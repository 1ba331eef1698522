import BankDemo.Foundations.ReadCommitted
import BankDemo.Foundations.Interleave
import BankDemo.Sessions.Service

/-!
# Signing in, statement by statement

The transaction of `issueSession` once more, this time as its statements under read-committed
isolation, so that transactions of several sign-ins can overlap: the insertion of the session, the
search for others, and, when there are some, the update that revokes them, which first finds the
rows and then takes them one by one.

`issueStatements_alone` connects the two: without other transactions, the statements do what the
transaction of `Sessions/Service.lean` does. `issueStatements_does` says what each statement can do
in company.
-/

namespace BankDemo.Identity

open ReadCommitted

/-- The session table, with the transactions that are open on it. -/
abbrev SessionTable := ReadCommitted Uuid Session

/-- A sign-in: the arguments of `issueSession`. -/
structure Login where
  now : Instant
  ids : Draws
  input : IssueSessionInput
  deriving DecidableEq

namespace Login

variable (c : Login)

/-- The row of the session. -/
def row (env : Env) : Session := issuedRow env c.now c.ids c.input

/-- The sessions that the sign-in looks for: the other ones of the user. -/
def others (sessions : Table Uuid Session) : List Uuid :=
  (unrevoked (otherThan c.input.userId c.ids.sessionId) sessions).map Prod.fst

/-- The condition of the update, for a row. -/
def selects (id : Uuid) (s : Session) : Bool :=
  otherThan c.input.userId c.ids.sessionId id s && s.revokedAt.isNone

theorem mem_others {sessions : Table Uuid Session} {id : Uuid} :
    id ∈ c.others sessions ↔ ∃ s, sessions.lookup id = some s ∧ c.selects id s = true := by
  simp only [others, List.mem_map, Prod.exists, exists_and_right, exists_eq_right, mem_unrevoked,
    selects, Bool.and_eq_true, Option.isNone_iff_eq_none]

end Login

/-- The transaction of `issueSession`, run as transaction `i`. -/
def issueStatements (env : Env) (i : ℕ) (c : Login) : Prog SessionTable Error (List Uuid) := do
  insertRow i c.ids.sessionId (c.row env) (fun s =>
    s.accessTokenJti = (c.row env).accessTokenJti ∨
      s.refreshTokenHash = (c.row env).refreshTokenHash) .uniqueViolation
  let others ← select i c.others
  unless others.isEmpty do
    let found ← select i c.others
    found.forM fun id => updateRow i id (c.selects id) (revoke c.now .newerLogin)
  commit i
  return others

/-! ## Alone -/

/-- The update of the rows found, one by one. -/
theorem run_updateRows (i : ℕ) (c : Login) (ids : List Uuid) (s : SessionTable) :
    ∃ s', ((ids.forM fun id => updateRow i id (c.selects id) (revoke c.now .newerLogin)) :
        Prog SessionTable Error PUnit).run s = (.ok ⟨⟩, s') ∧
      ∀ id, (s'.view i).lookup id = ((s.view i).lookup id).map fun r =>
        if id ∈ ids ∧ c.selects id r = true then revoke c.now .newerLogin r else r := by
  induction ids generalizing s with
  | nil => exact ⟨s, rfl, fun id => by simp⟩
  | cons first ids ih =>
    obtain ⟨s', hrun, hview⟩ := ih (updated i first (c.selects first) (revoke c.now .newerLogin) s)
    refine ⟨s', hrun, fun id => ?_⟩
    rw [hview id]
    -- a row that was just revoked is not selected again
    have hagain : ∀ r, c.selects id (revoke c.now .newerLogin r) = false := by
      simp [Login.selects, revoke]
    unfold updated
    cases hfirst : (s.view i).lookup first with
    | none =>
      by_cases hid : id = first
      · rw [hid, hfirst]
        rfl
      · simp [hid]
    | some r =>
      dsimp only
      split
      · rename_i hsel
        rw [lookup_view_write]
        by_cases hid : id = first
        · subst hid
          simp [hfirst, hsel, hagain]
        · simp [hid]
      · rename_i hsel
        by_cases hid : id = first
        · subst hid
          simp [hfirst, hsel]
        · simp [hid]

/-- Without other transactions, the statements do what the transaction does. -/
theorem issueStatements_alone (env : Env) (i : ℕ) (c : Login) (db : Db)
    (huser : (db.users.lookup c.input.userId).isSome)
    (hdevice : (db.devices.lookup c.input.deviceId).isSome) :
    match issueTx env c.now c.ids c.input db with
    | .error e => ((issueStatements env i c).run ⟨db.sessions, ∅⟩).1 = .error e
    | .ok (others, db') => ∃ s, (issueStatements env i c).run ⟨db.sessions, ∅⟩ = (.ok others, s) ∧
        ∀ id, s.committed.lookup id = db'.sessions.lookup id := by
  have hview : (⟨db.sessions, ∅⟩ : SessionTable).view i = db.sessions := AList.empty_union
  by_cases hclash : (db.sessions.lookup c.ids.sessionId).isSome ∨ (db.sessions.findRow fun s =>
      s.accessTokenJti = (c.row env).accessTokenJti ∨
        s.refreshTokenHash = (c.row env).refreshTokenHash).isSome
  · -- the insertion fails in both
    have hcreate : createSession c.ids.sessionId (c.row env) db = .error .uniqueViolation := by
      unfold createSession
      split
      · rfl
      · rw [if_pos (hclash.resolve_left ‹_›)]
    have htx : issueTx env c.now c.ids c.input db = .error .uniqueViolation := by
      simp only [issueTx, Bind.bind, StateT.bind, Except.bind]
      rw [show createSession c.ids.sessionId (issuedRow env c.now c.ids c.input) db = _ from hcreate]
    rw [htx]
    simp only [issueStatements, Prog.run_bind, run_insertRow, hview, if_pos hclash]
  · have hcreate : createSession c.ids.sessionId (c.row env) db = .ok ((), { db with
        sessions := db.sessions.insert c.ids.sessionId (c.row env) }) := by
      obtain ⟨hid, hunique⟩ := not_or.1 hclash
      have huser' : ¬ (db.users.lookup (c.row env).userId).isNone := by
        rw [Option.isNone_iff_eq_none]
        exact Option.isSome_iff_ne_none.1 huser
      have hdevice' : ¬ (db.devices.lookup (c.row env).deviceId).isNone := by
        rw [Option.isNone_iff_eq_none]
        exact Option.isSome_iff_ne_none.1 hdevice
      unfold createSession
      rw [if_neg hid, if_neg hunique, if_neg huser', if_neg hdevice']
    have hview₁ : ((⟨db.sessions, ∅⟩ : SessionTable).write i c.ids.sessionId (c.row env)).view i =
        db.sessions.insert c.ids.sessionId (c.row env) := by
      unfold view
      rw [writes_write, if_pos rfl]
      show (∅ : Table Uuid Session).insert c.ids.sessionId (c.row env) ∪ db.sessions = _
      rw [← AList.insert_union, AList.empty_union]
    rw [issueTx_eq hcreate]
    simp only [issueStatements, Prog.run_bind, run_insertRow, hview, if_neg hclash, run_select,
      hview₁]
    split
    · rename_i hempty
      refine ⟨_, rfl, fun id => ?_⟩
      show (((⟨db.sessions, ∅⟩ : SessionTable).write i c.ids.sessionId (c.row env)).view i).lookup
        id = _
      have hnone : unrevoked (otherThan c.input.userId c.ids.sessionId)
          (db.sessions.insert c.ids.sessionId (c.row env)) = [] :=
        List.map_eq_nil_iff.1 (List.isEmpty_iff.1 hempty)
      unfold issuedDb
      rw [revokeMany_of_empty hnone, hview₁]
      rfl
    · obtain ⟨s, hrun, hlookup⟩ := run_updateRows i c
        (c.others (db.sessions.insert c.ids.sessionId (c.row env)))
        ((⟨db.sessions, ∅⟩ : SessionTable).write i c.ids.sessionId (c.row env))
      simp only [Prog.run_bind, run_select, hview₁, hrun]
      refine ⟨_, rfl, fun id => ?_⟩
      show (s.view i).lookup id = _
      rw [hlookup, hview₁]
      unfold issuedDb
      rw [lookup_revokeMany]
      refine Option.map_congr fun r hr => ?_
      have hothers : (id ∈ c.others (db.sessions.insert c.ids.sessionId (c.row env)) ∧
          c.selects id r = true) ↔ c.selects id r = true :=
        ⟨fun h => h.2, fun h => ⟨(Login.mem_others c).2 ⟨r, hr, h⟩, h⟩⟩
      simp only [hothers]
      rfl

/-! ## In company -/

/-- The transaction keeps the versions it has, and the committed rows stay as they are. -/
def Grows (i : ℕ) (x : SessionTable × SessionTable) : Prop :=
  x.2.committed = x.1.committed ∧
    ∀ id, ((x.1.writes i).lookup id).isSome → ((x.2.writes i).lookup id).isSome

/-- The state in which the sign-in last looked for other sessions: its update, or its search when
that found none. -/
def Login.lastLook (c : Login) (i : ℕ) (own : List (SessionTable × SessionTable)) :
    Option SessionTable :=
  match own.reverse with
  | _ :: search :: update =>
    if (c.others (search.1.view i)).isEmpty then some search.1
    else update.head?.map Prod.fst
  | _ => none

/-- A commit, with what led to it: the session was inserted, and every session found at the last
look was taken by the update after it. -/
structure Commits (env : Env) (i : ℕ) (c : Login) (w w' : SessionTable)
    (before : List (SessionTable × SessionTable)) : Prop where
  post : w' = w.commitAll i
  grows : ∀ x ∈ before, Grows i x
  inserted : ∃ x ∈ before, x.2 = x.1.write i c.ids.sessionId (c.row env)
  looked : ∃ look after rest, c.lastLook i before = some look ∧
    before = after ++ (look, look) :: rest ∧ ∀ id ∈ c.others (look.view i),
      ∃ x ∈ after, x.2 = updated i id (c.selects id) (revoke c.now .newerLogin) x.1

/-- What the newest step of a sign-in is. -/
inductive Signs (env : Env) (i : ℕ) (c : Login) : List (SessionTable × SessionTable) → Prop
  | look {w : SessionTable} {before : List (SessionTable × SessionTable)} :
      Signs env i c ((w, w) :: before)
  | insert {w : SessionTable} (hfree : w.free i c.ids.sessionId = true)
      (hnew : (w.view i).lookup c.ids.sessionId = none) :
      Signs env i c [(w, w.write i c.ids.sessionId (c.row env))]
  | refuse {w : SessionTable} : Signs env i c [(w, w.rollback i)]
  | update {w : SessionTable} {before : List (SessionTable × SessionTable)} {id : Uuid}
      (hfree : w.free i id = true) : Signs env i c
        ((w, updated i id (c.selects id) (revoke c.now .newerLogin) w) :: before)
  | commit {w w' : SessionTable} {before : List (SessionTable × SessionTable)}
      (h : Commits env i c w w' before) : Signs env i c ((w, w') :: before)

variable {env : Env} {i : ℕ} {c : Login}

theorem grows_look (w : SessionTable) : Grows i (w, w) := ⟨rfl, fun _ h => h⟩

theorem grows_write (w : SessionTable) (id : Uuid) (s : Session) :
    Grows i (w, w.write i id s) := by
  refine ⟨rfl, fun id' h => ?_⟩
  dsimp only at h ⊢
  rw [writes_write, if_pos rfl, Table.lookup_insert_ite]
  split
  · rfl
  · exact h

theorem grows_updated (w : SessionTable) (id : Uuid) :
    Grows i (w, updated i id (c.selects id) (revoke c.now .newerLogin) w) := by
  unfold updated
  split
  · split
    · exact grows_write w id _
    · exact grows_look w
  · exact grows_look w

theorem does_updateRows {own : List (SessionTable × SessionTable)} {α : Type}
    {Q : List (SessionTable × SessionTable) → Except Error α → Prop}
    {k : PUnit → Prog SessionTable Error α} (ids : List Uuid)
    (hk : ∀ later, (∀ x ∈ later, Grows i x) → (∀ id ∈ ids, ∃ x ∈ later,
        x.2 = updated i id (c.selects id) (revoke c.now .newerLogin) x.1) →
      (k ⟨⟩).Does (Signs env i c) Q (later ++ own)) :
    ((ids.forM fun id => updateRow i id (c.selects id) (revoke c.now .newerLogin)) >>= k).Does
      (Signs env i c) Q own := by
  induction ids generalizing own with
  | nil => exact hk [] (by simp) (by simp)
  | cons id ids ih =>
    have hfirst : (id :: ids).forM (fun id => updateRow i id (c.selects id)
        (revoke c.now .newerLogin)) >>= k = updateRow i id (c.selects id)
          (revoke c.now .newerLogin) >>= fun _ => ids.forM (fun id => updateRow i id (c.selects id)
            (revoke c.now .newerLogin)) >>= k := bind_assoc _ _ _
    rw [hfirst]
    refine Prog.does_bind (Prog.does_modify fun w hfree => ⟨.update hfree, ih fun later hgrows
      htaken => ?_⟩)
    rw [List.append_cons]
    refine hk _ (fun x hx => ?_) fun id' hid' => ?_
    · rcases List.mem_append.1 hx with hx | hx
      · exact hgrows x hx
      · rw [List.mem_singleton.1 hx]
        exact grows_updated w id
    · rcases List.mem_cons.1 hid' with rfl | hid'
      · exact ⟨_, List.mem_append_right _ (List.mem_singleton_self _), rfl⟩
      · obtain ⟨x, hx, heq⟩ := htaken id' hid'
        exact ⟨x, List.mem_append_left _ hx, heq⟩

/-- **What the statements of a sign-in do**; once it has returned, it has committed. -/
theorem issueStatements_does (env : Env) (i : ℕ) (c : Login) : (issueStatements env i c).Does
    (Signs env i c) (fun own r => ∀ ids, r = .ok ids → ∃ w before, own = (w, w.commitAll i) :: before ∧
      Commits env i c w (w.commitAll i) before) [] := by
  unfold issueStatements
  refine does_insertRow (fun w hfree hnew => ⟨.insert hfree hnew, ?_⟩)
    fun w => ⟨.refuse, fun ids h => by cases h⟩
  · refine Prog.does_bind (Prog.does_read fun w₁ => ⟨.look, ?_⟩)
    have hfirst : ∀ x : SessionTable × SessionTable,
        x ∈ [(w₁, w₁), (w, w.write i c.ids.sessionId (c.row env))] → Grows i x := by
      intro x hx
      simp only [List.mem_cons, List.not_mem_nil, or_false] at hx
      rcases hx with rfl | rfl
      · exact grows_look w₁
      · exact grows_write w _ _
    dsimp only
    split
    · -- no other session was found
      rename_i hempty
      refine Prog.does_bind (Prog.does_modify fun w₂ _ => ?_)
      have hcommits : Commits env i c w₂ (w₂.commitAll i) [(w₁, w₁),
          (w, w.write i c.ids.sessionId (c.row env))] := by
        refine ⟨rfl, hfirst, ⟨(w, w.write i c.ids.sessionId (c.row env)), by simp, rfl⟩, w₁, [], _,
          ?_, rfl, fun id hid => ?_⟩
        · simp [Login.lastLook, List.isEmpty_iff.1 hempty]
        · rw [List.isEmpty_iff.1 hempty] at hid
          cases hid
      exact ⟨.commit hcommits, fun ids _ => ⟨w₂, _, rfl, hcommits⟩⟩
    · rename_i hnonempty
      refine Prog.does_bind (Prog.does_read fun w₂ => ⟨.look, ?_⟩)
      refine does_updateRows _ fun later hgrows htaken => ?_
      refine Prog.does_bind (Prog.does_modify fun w₃ _ => ?_)
      have hcommits : Commits env i c w₃ (w₃.commitAll i) (later ++ [(w₂, w₂), (w₁, w₁),
          (w, w.write i c.ids.sessionId (c.row env))]) := by
        refine ⟨rfl, fun x hx => ?_, ⟨(w, w.write i c.ids.sessionId (c.row env)), by simp, rfl⟩,
          w₂, later, _, ?_, rfl, htaken⟩
        · simp only [List.mem_append, List.mem_cons, List.not_mem_nil, or_false] at hx
          rcases hx with hx | rfl | hx
          · exact hgrows x hx
          · exact grows_look w₂
          · exact hfirst x (by simpa using hx)
        · simp [Login.lastLook, hnonempty]
      exact ⟨.commit hcommits, fun ids _ => ⟨w₃, _, rfl, hcommits⟩⟩

end BankDemo.Identity
