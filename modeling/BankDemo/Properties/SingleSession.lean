import BankDemo.Sessions.Calls
import BankDemo.Sessions.Statements

/-!
# One session at a time, and overlapping sign-ins

A sign-in revokes the other sessions of the user that it can see. Two that overlap do not see each
other's session, and both stay (`overlapping_sign_ins`). With sign-ins that look once more after the
last session was committed, there is one session at a time, that of the last sign-in to commit
(`single_session`).
-/

namespace BankDemo.Identity

open ReadCommitted

variable {env : Env} {i : ℕ} {c : Login} {s₀ : SessionTable} {tr : List (Step SessionTable Login)}
  {P : Pool SessionTable Error (List Uuid) Login}

/-- The runs of overlapping sign-ins. -/
abbrev LoginRun (env : Env) := Run (issueStatements env) fun _ => True

/-- The user has at most one unrevoked session. -/
def Single (userId : Uuid) (sessions : Table Uuid Session) : Prop :=
  ∀ id s id' s', sessions.lookup id = some s → sessions.lookup id' = some s' →
    s.userId = userId → s'.userId = userId → s.revokedAt = none → s'.revokedAt = none → id = id'

/-- The sign-in has seen every session of its user that is committed by now: the sessions were
there when it last looked. -/
def Looked (x : Step SessionTable Login) (before : List (SessionTable × SessionTable)) : Prop :=
  ∀ look, x.call.lastLook x.tid before = some look → ∀ id s, x.pre.committed.lookup id = some s →
    s.userId = x.call.input.userId → (look.committed.lookup id).isSome

instance (x : Step SessionTable Login) (before : List (SessionTable × SessionTable)) :
    Decidable (Looked x before) :=
  decidable_of_iff (∀ look ∈ x.call.lastLook x.tid before, ∀ e ∈ x.pre.committed.entries,
      e.2.userId = x.call.input.userId → (look.committed.lookup e.1).isSome)
    ⟨fun h look hlook id s hs => h look hlook ⟨id, s⟩ (Table.mem_entries_iff.2 hs),
      fun h look hlook e he => h look hlook e.1 e.2 (Table.mem_entries_iff.1 he)⟩

/-! ## One step -/

theorem Signs.moves {w w' : SessionTable} {before : List (SessionTable × SessionTable)}
    (h : Signs env i c ((w, w') :: before)) : Moves Kept i w w' := by
  cases h with
  | look => exact .read
  | insert hfree hnew => exact .insert hfree hnew
  | refuse => exact .rollback
  | @update id _ _ hfree =>
    unfold updated
    split
    · rename_i s hs
      split
      · exact .update hfree hs (kept_revoke _ _ s)
      · exact .read
    · exact .read
  | commit h =>
    rw [h.post]
    exact .commit

/-- The versions after a step: old ones, revoked ones, and the session of the sign-in. -/
theorem Signs.version {w w' : SessionTable} {before : List (SessionTable × SessionTable)}
    (h : Signs env i c ((w, w') :: before)) {j : ℕ} {id : Uuid} {v : Session}
    (hv : (w'.writes j).lookup id = some v) : (w.writes j).lookup id = some v ∨
      v.revokedAt.isSome ∨ (j = i ∧ id = c.ids.sessionId ∧ v = c.row env) := by
  have hwrite : ∀ {id' s}, ((w.write i id' s).writes j).lookup id = some v →
      (w.writes j).lookup id = some v ∨ (j = i ∧ id = id' ∧ v = s) := by
    intro id' s hv
    rw [writes_write] at hv
    split at hv
    · rename_i hj
      rw [Table.lookup_insert_ite] at hv
      split at hv
      · exact .inr ⟨hj, ‹_›, (Option.some.inj hv).symm⟩
      · rw [hj]
        exact .inl hv
    · exact .inl hv
  have herase : ∀ {committed}, ((⟨committed, w.pending.erase i⟩ : SessionTable).writes j).lookup id =
      some v → (w.writes j).lookup id = some v := by
    intro committed hv
    by_cases hj : j = i
    · subst hj
      simp only [writes, writes_erase_self] at hv
      cases hv
    · simpa only [writes, writes_erase hj] using hv
  cases h with
  | look => exact .inl hv
  | insert _ _ =>
    rcases hwrite hv with hold | hnew
    · exact .inl hold
    · exact .inr (.inr hnew)
  | refuse => exact .inl (herase hv)
  | update _ =>
    unfold updated at hv
    split at hv
    · split at hv
      · rcases hwrite hv with hold | ⟨-, -, rfl⟩
        · exact .inl hold
        · exact .inr (.inl rfl)
      · exact .inl hv
    · exact .inl hv
  | commit h =>
    rw [h.post] at hv
    exact .inl (herase hv)

/-- A step that changes the committed rows is a commit. -/
theorem Signs.commits {w w' : SessionTable} {before : List (SessionTable × SessionTable)}
    (h : Signs env i c ((w, w') :: before)) (hne : w'.committed ≠ w.committed) :
    Commits env i c w w' before := by
  cases h with
  | look => exact (hne rfl).elim
  | insert _ _ => exact (hne rfl).elim
  | refuse => exact (hne rfl).elim
  | update _ => exact (hne (grows_updated _ _).1).elim
  | commit h => exact h

/-! ## Every run -/

theorem signs_of_run (hrun : LoginRun env s₀ tr P) {later earlier : List (Step SessionTable Login)}
    {x : Step SessionTable Login} (hsplit : tr = later ++ x :: earlier) :
    Signs env x.tid x.call ((x.pre, x.post) :: own x.tid earlier) :=
  (hrun.does fun i c _ => issueStatements_does env i c).1 later x earlier hsplit

theorem isolated_of_run (hclosed : s₀.pending = ∅) (hrun : LoginRun env s₀ tr P) :
    Isolated Kept P.state := by
  refine hrun.induct (I := fun _ w => Isolated Kept w) ?_ fun later x earlier hsplit ih => ?_
  · obtain ⟨committed, pending⟩ := s₀
    simp only at hclosed
    subst hclosed
    exact isolated_start committed
  · exact (signs_of_run hrun hsplit).moves.isolated (fun h h' => h.trans h') ih

/-- Every version is revoked, or the session of the sign-in that wrote it. -/
theorem version_of_run (hclosed : s₀.pending = ∅) (hrun : LoginRun env s₀ tr P) {j : ℕ} {id : Uuid}
    {v : Session} (hv : (P.state.writes j).lookup id = some v) : v.revokedAt.isSome ∨
      ∃ y ∈ tr, y.tid = j ∧ id = y.call.ids.sessionId ∧ v = y.call.row env := by
  refine hrun.induct (I := fun tr w => ∀ v, (w.writes j).lookup id = some v → v.revokedAt.isSome ∨
    ∃ y ∈ tr, y.tid = j ∧ id = y.call.ids.sessionId ∧ v = y.call.row env) ?_ ?_ v hv
  · intro v hv
    simp only [writes, hclosed] at hv
    cases hv
  · intro later x earlier hsplit ih v hv
    rcases (signs_of_run hrun hsplit).version hv with hold | hrevoked | ⟨rfl, hid, hrow⟩
    · rcases ih v hold with hrevoked | ⟨y, hy, hmade⟩
      · exact .inl hrevoked
      · exact .inr ⟨y, List.mem_cons_of_mem _ hy, hmade⟩
    · exact .inl hrevoked
    · exact .inr ⟨x, List.mem_cons_self, rfl, hid, hrow⟩

/-- Committed sessions stay, and are not less revoked. -/
theorem committed_kept (hclosed : s₀.pending = ∅) (hrun : LoginRun env s₀ tr P)
    {later earlier : List (Step SessionTable Login)} (hsplit : tr = later ++ earlier) {id : Uuid}
    {s : Session} (hs : (reached s₀ earlier).committed.lookup id = some s) :
    ∃ s', P.state.committed.lookup id = some s' ∧ Kept s s' := by
  rw [hrun.state_eq]
  refine (hrun.keeps (I := fun w => ∃ s', w.committed.lookup id = some s' ∧ Kept s s') hsplit
    ⟨s, hs, kept_refl s⟩ ?_).2
  rintro late x mid hlater ⟨s', hs', hkept⟩
  have hx : tr = late ++ x :: (mid ++ earlier) := by
    rw [hsplit, hlater]
    simp
  obtain ⟨P', hrun', hstate⟩ := hrun.before hx
  have hisolated := isolated_of_run hclosed hrun'
  rw [hstate] at hisolated
  obtain ⟨s'', hs'', hkept'⟩ := (signs_of_run hrun hx).moves.committed kept_refl hisolated hs'
  exact ⟨s'', hs'', hkept.trans hkept'⟩

/-- The versions of a transaction stay until it commits. -/
theorem writes_kept (hrun : LoginRun env s₀ tr P) (hgrows : ∀ x ∈ own i tr, Grows i x)
    {later earlier : List (Step SessionTable Login)} (hsplit : tr = later ++ earlier) {id : Uuid}
    (hid : (((reached s₀ earlier).writes i).lookup id).isSome) :
    ((P.state.writes i).lookup id).isSome := by
  rw [hrun.state_eq]
  refine (hrun.keeps (I := fun w => ((w.writes i).lookup id).isSome) hsplit hid ?_).2
  intro late x mid hlater hpre
  have hx : tr = late ++ x :: (mid ++ earlier) := by
    rw [hsplit, hlater]
    simp
  by_cases htid : x.tid = i
  · have hmem : (x.pre, x.post) ∈ own i tr :=
      mem_own.2 ⟨x, by rw [hx]; simp, htid, rfl, rfl⟩
    exact (hgrows _ hmem).2 id hpre
  · rw [(signs_of_run hrun hx).moves.writes_other fun h => htid h.symm]
    exact hpre

/-- A session that was there at the last look, and is unrevoked at the commit, was taken by the
update. -/
theorem taken_of_looked (hclosed : s₀.pending = ∅) (hrun : LoginRun env s₀ tr P)
    (hgrows : ∀ x ∈ own i tr, Grows i x) {look : SessionTable}
    {after rest : List (SessionTable × SessionTable)}
    (hown : own i tr = after ++ (look, look) :: rest)
    (htaken : ∀ id ∈ c.others (look.view i), ∃ x ∈ after,
      x.2 = updated i id (c.selects id) (revoke c.now .newerLogin) x.1)
    {id : Uuid} {s : Session} (hseen : (look.committed.lookup id).isSome)
    (hs : P.state.committed.lookup id = some s) (huser : s.userId = c.input.userId)
    (hunrevoked : s.revokedAt = none) (hne : id ≠ c.ids.sessionId) :
    ((P.state.writes i).lookup id).isSome := by
  by_contra hnone
  obtain ⟨late, y, first, rfl, -, hy, hafter, -⟩ := own_eq_append hown
  obtain ⟨hypre, -⟩ := Prod.mk.inj hy
  -- from each state on, the row was as unrevoked as it is now, and not a version of this transaction
  have hrow : ∀ {l l' : List (Step SessionTable Login)} {r : Session},
      late ++ y :: first = l ++ l' → (reached s₀ l').committed.lookup id = some r →
      ((reached s₀ l').view i).lookup id = some r ∧ c.selects id r = true := by
    intro l l' r hl hr
    obtain ⟨s', hs', hkept⟩ := committed_kept hclosed hrun hl hr
    obtain rfl := Option.some.inj (hs.symm.trans hs')
    have hwrites : ((reached s₀ l').writes i).lookup id = none := by
      rw [← Option.not_isSome_iff_eq_none]
      exact fun hsome => hnone (writes_kept hrun hgrows hl hsome)
    have hr' : r.revokedAt = none := by
      rw [← Option.not_isSome_iff_eq_none]
      intro hsome
      have hrevoked := hkept.revoked hsome
      rw [hunrevoked] at hrevoked
      cases hrevoked
    refine ⟨by rw [lookup_view, hwrites, hr]; rfl, ?_⟩
    simp [Login.selects, otherThan, ← hkept.userId, huser, hne, hr']
  obtain ⟨r, hr⟩ := Option.isSome_iff_exists.1 hseen
  have hlook : reached s₀ first = look := by
    rw [← hrun.pre_eq rfl, hypre]
  have hrow₀ := @hrow (late ++ [y]) first r (by simp) (by rw [hlook]; exact hr)
  rw [hlook] at hrow₀
  obtain ⟨u, hu, hupdated⟩ := htaken id ((Login.mem_others c).2 ⟨r, hrow₀⟩)
  -- the step that took the row
  rw [← hafter] at hu
  obtain ⟨z, hz, hztid, hzpre, hzpost⟩ := mem_own.1 hu
  obtain ⟨l₁, l₂, rfl⟩ := List.append_of_mem hz
  have hzsplit : (l₁ ++ z :: l₂) ++ y :: first = l₁ ++ z :: (l₂ ++ y :: first) := by simp
  obtain ⟨P', hrun', hstate⟩ := hrun.before hzsplit
  obtain ⟨r₁, hr₁, -⟩ := committed_kept hclosed hrun'
    (show l₂ ++ y :: first = (l₂ ++ [y]) ++ first by simp) (by rw [hlook]; exact hr)
  have hzreached := hrun.pre_eq hzsplit
  rw [hstate] at hr₁
  have hrow₁ := @hrow (l₁ ++ [z]) (l₂ ++ y :: first) r₁ (by simp) (by rw [← hzreached]; exact hr₁)
  rw [← hzreached] at hrow₁
  refine hnone (writes_kept hrun hgrows (show (l₁ ++ z :: l₂) ++ y :: first =
    l₁ ++ (z :: (l₂ ++ y :: first)) by simp) ?_)
  show ((z.post.writes i).lookup id).isSome
  rw [hzpost, hupdated, updated, ← hzpre, hrow₁.1]
  dsimp only
  rw [if_pos hrow₁.2, writes_write, if_pos rfl, AList.lookup_insert]
  rfl

/-- An unrevoked session that a commit leaves is the new one, or it was there and the transaction had
no version of it. -/
theorem committed_row (hclosed : s₀.pending = ∅) (hrun : LoginRun env s₀ tr P)
    {later earlier : List (Step SessionTable Login)} {x : Step SessionTable Login}
    (hsplit : tr = later ++ x :: earlier) (hne : x.post.committed ≠ x.pre.committed) {id : Uuid}
    {s : Session} (hs : x.post.committed.lookup id = some s) (hunrevoked : s.revokedAt = none) :
    (id = x.call.ids.sessionId ∧ s = x.call.row env) ∨
      (x.pre.writes x.tid).lookup id = none ∧ x.pre.committed.lookup id = some s := by
  have hcommits := (signs_of_run hrun hsplit).commits hne
  obtain ⟨P', hrun', hstate⟩ := hrun.before hsplit
  rw [hcommits.post] at hs
  change (x.pre.view x.tid).lookup id = some s at hs
  rw [lookup_view] at hs
  cases hw : (x.pre.writes x.tid).lookup id with
  | some v =>
    rw [hw] at hs
    obtain rfl := Option.some.inj hs
    rcases version_of_run hclosed hrun' (by rw [hstate]; exact hw) with
      hrevoked | ⟨y, hy, hytid, hid, hrow⟩
    · rw [hunrevoked] at hrevoked
      cases hrevoked
    · have hcall := hrun.call_eq (by rw [hsplit]; simp [hy]) (by rw [hsplit]; simp) hytid
      rw [hcall] at hid hrow
      exact .inl ⟨hid, hrow⟩
  | none =>
    rw [hw] at hs
    exact .inr ⟨rfl, hs⟩

/-- A sign-in that has seen every session leaves only its own unrevoked. -/
theorem commit_single (hclosed : s₀.pending = ∅) (hrun : LoginRun env s₀ tr P)
    {later earlier : List (Step SessionTable Login)} {x : Step SessionTable Login}
    (hsplit : tr = later ++ x :: earlier) (hne : x.post.committed ≠ x.pre.committed)
    (hlooked : Looked x (own x.tid earlier)) {id : Uuid} {s : Session}
    (hs : x.post.committed.lookup id = some s) (huser : s.userId = x.call.input.userId)
    (hunrevoked : s.revokedAt = none) : id = x.call.ids.sessionId := by
  rcases committed_row hclosed hrun hsplit hne hs hunrevoked with ⟨hid, -⟩ | ⟨hw, hold⟩
  · exact hid
  · by_contra hid
    have hcommits := (signs_of_run hrun hsplit).commits hne
    obtain ⟨P', hrun', hstate⟩ := hrun.before hsplit
    obtain ⟨look, after, rest, hlast, hbefore, htaken⟩ := hcommits.looked
    have hseen := hlooked look hlast id s hold huser
    rw [← hstate] at hold hw
    have hsome := taken_of_looked hclosed hrun' hcommits.grows hbefore htaken hseen hold huser
      hunrevoked hid
    rw [hw] at hsome
    cases hsome

/-- A commit does not touch the unrevoked sessions of other users. -/
theorem commit_other (hclosed : s₀.pending = ∅) (hrun : LoginRun env s₀ tr P)
    {later earlier : List (Step SessionTable Login)} {x : Step SessionTable Login}
    (hsplit : tr = later ++ x :: earlier) (hne : x.post.committed ≠ x.pre.committed) {id : Uuid}
    {s : Session} (hs : x.post.committed.lookup id = some s)
    (huser : s.userId ≠ x.call.input.userId) (hunrevoked : s.revokedAt = none) :
    x.pre.committed.lookup id = some s := by
  rcases committed_row hclosed hrun hsplit hne hs hunrevoked with ⟨-, hrow⟩ | ⟨-, hold⟩
  · rw [hrow] at huser
    exact absurd rfl huser
  · exact hold

/-- The unrevoked session of a user is that of the sign-in which committed last. -/
def LastOnly (tr : List (Step SessionTable Login)) (sessions : Table Uuid Session) : Prop :=
  ∀ later x earlier, tr = later ++ x :: earlier → x.post.committed ≠ x.pre.committed →
    (∀ y ∈ later, y.call.input.userId = x.call.input.userId →
      y.post.committed = y.pre.committed) →
    ∀ id s, sessions.lookup id = some s → s.userId = x.call.input.userId → s.revokedAt = none →
      id = x.call.ids.sessionId

/-- **One session at a time**, as far as sign-ins see each other: in every run of overlapping
sign-ins in which each, when it commits, had seen every session of its user that is committed by
then, every user has at most one unrevoked session in every state, and after a sign-in it is the
session of the last one to commit. -/
theorem single_session (env : Env) (s₀ : SessionTable) (hclosed : s₀.pending = ∅)
    (hsingle : ∀ userId, Single userId s₀.committed) (tr : List (Step SessionTable Login))
    (P : Pool SessionTable Error (List Uuid) Login) (hrun : LoginRun env s₀ tr P)
    (hlooked : ∀ later x earlier, tr = later ++ x :: earlier →
      x.post.committed ≠ x.pre.committed → Looked x (own x.tid earlier)) :
    (∀ userId, Single userId P.state.committed) ∧ LastOnly tr P.state.committed := by
  refine hrun.induct (I := fun tr w => (∀ userId, Single userId w.committed) ∧
    LastOnly tr w.committed) ⟨hsingle, ?_⟩ fun later x earlier hsplit ih => ?_
  · intro later x earlier hnil
    simp at hnil
  · by_cases hne : x.post.committed = x.pre.committed
    · -- not a commit
      rw [hne]
      refine ⟨ih.1, fun late y first hsteps hcommit hlast => ?_⟩
      cases late with
      | nil =>
        obtain ⟨rfl, rfl⟩ := List.cons.inj hsteps
        exact (hcommit hne).elim
      | cons z late =>
        obtain ⟨rfl, hearlier⟩ := List.cons.inj hsteps
        exact ih.2 late y first hearlier hcommit fun v hv => hlast v (List.mem_cons_of_mem _ hv)
    · have hown := fun {id : Uuid} {s : Session} =>
        @commit_single env s₀ tr P hclosed hrun later earlier x hsplit hne
          (hlooked later x earlier hsplit hne) id s
      have hother := fun {id : Uuid} {s : Session} =>
        @commit_other env s₀ tr P hclosed hrun later earlier x hsplit hne id s
      refine ⟨fun userId id s id' s' hs hs' huser huser' hs₀ hs₀' => ?_,
        fun late y first hsteps hcommit hlast id s hs huser hs₀ => ?_⟩
      · by_cases hid : userId = x.call.input.userId
        · subst hid
          rw [hown hs huser hs₀, hown hs' huser' hs₀']
        · exact ih.1 userId id s id' s' (hother hs (by rw [huser]; exact hid) hs₀)
            (hother hs' (by rw [huser']; exact hid) hs₀') huser huser' hs₀ hs₀'
      · cases late with
        | nil =>
          obtain ⟨rfl, rfl⟩ := List.cons.inj hsteps
          exact hown hs huser hs₀
        | cons z late =>
          obtain ⟨rfl, hearlier⟩ := List.cons.inj hsteps
          have hid : x.call.input.userId ≠ y.call.input.userId := fun heq =>
            hne (hlast x List.mem_cons_self heq)
          exact ih.2 late y first hearlier hcommit (fun v hv => hlast v (List.mem_cons_of_mem _ hv))
            id s (hother hs (by rw [huser]; exact hid.symm) hs₀) huser hs₀

/-- A sign-in of Ann, with identifiers from `n` on. -/
def sampleLogin (n : ℕ) : Login := ⟨0, ⟨n, n + 1, n + 2, n + 3⟩, ⟨1, 11, .customer⟩⟩

/-- Ann signs in, and again after that. -/
def sampleInTurn : List (Choice Login) :=
  [.call (sampleLogin 100), .step 0, .step 0, .step 0, .call (sampleLogin 200), .step 1, .step 1,
    .step 1, .step 1, .step 1]

/-- The run of sign-ins from an empty table. -/
def sampleLogins (sched : List (Choice Login)) :
    List (Step SessionTable Login) × Pool SessionTable Error (List Uuid) Login :=
  exec (issueStatements sampleEnv) ⟨∅, ∅⟩ sched

theorem sampleInTurn_looked : EachStep (fun _ x earlier =>
    x.post.committed.entries ≠ x.pre.committed.entries → Looked x (own x.tid earlier)) []
      (sampleLogins sampleInTurn).1 := by
  decide +kernel

theorem sample_single (userId : Uuid) : Single userId (∅ : Table Uuid Session) := by
  intro id s id' s' hs
  cases hs

theorem single_session_in_turn :
    ((sampleLogins sampleInTurn).2.state.committed.keys = [100, 200]) ∧
      ∀ userId, Single userId (sampleLogins sampleInTurn).2.state.committed :=
  ⟨by decide +kernel, (single_session sampleEnv ⟨∅, ∅⟩ rfl sample_single _ _
    (exec_run sampleInTurn fun _ _ => trivial) fun later x earlier hsplit hne => by
      have hlooked := sampleInTurn_looked
      rw [show (sampleLogins sampleInTurn).1 = _ from hsplit] at hlooked
      exact hlooked.split fun heq => hne (AList.ext heq)).1⟩

/-- Ann signs in twice at the same time: each sign-in looks for others before the other one has
committed. -/
def sampleOverlapping : List (Choice Login) :=
  [.call (sampleLogin 100), .call (sampleLogin 200), .step 0, .step 1, .step 0, .step 1, .step 0,
    .step 1]

/-- Two sign-ins that overlap leave the user with two sessions. -/
theorem overlapping_sign_ins : ¬ ∀ (env : Env) (tr : List (Step SessionTable Login))
    (P : Pool SessionTable Error (List Uuid) Login), LoginRun env ⟨∅, ∅⟩ tr P →
      (∀ t ∈ P.threads, ∃ ids, t.rest.result = some (.ok ids)) →
      ∀ userId, Single userId P.state.committed := by
  intro h
  have hended : ∀ t ∈ (sampleLogins sampleOverlapping).2.threads,
      t.rest.result = some (.ok []) := by decide +kernel
  have hsingle := h sampleEnv _ _ (exec_run sampleOverlapping fun _ _ => trivial)
    (fun t ht => ⟨[], hended t ht⟩) 1 100
    ((sampleLogin 100).row sampleEnv) 200 ((sampleLogin 200).row sampleEnv) (by decide +kernel)
    (by decide +kernel) rfl rfl rfl rfl
  exact absurd hsingle (by decide)

end BankDemo.Identity
