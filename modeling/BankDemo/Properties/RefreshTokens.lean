import BankDemo.Sessions.Calls

/-!
# Refresh tokens are single-use

A rotation looks up the audit and the session outside its transaction, so any number of calls that
present one token may get past both. What makes the token single-use is the audit row under its
unique hash: only one of the transactions creates it, and the others fail as a whole.

An invariant of the runs says where the hash of a session comes from (`Traced`): a step of the run
that will return the token, and whose family the session is of.
-/

namespace BankDemo.Identity

open Crypto

variable {env : Env} {s₀ : Realm} {tr : List (Step Realm Call)} {P : Pool Realm Error Answer Call}

/-- The calls other than the purge of a user's login history. -/
def Call.Keeping : Call → Prop
  | .purgeForUser _ _ => False
  | _ => True

/-! ## Tokens of a run -/

/-- The token that a call presents for rotation. -/
def Call.presents : Call → List Token
  | .rotateRefresh _ _ _ (.signed token) => [token]
  | _ => []

/-- The refresh tokens that a call signs, having found the realm `w`. -/
def Call.mints (env : Env) : Call → Realm → List Token
  | .issueSession now ids input, _ => [issuedRefresh env now ids input.userId]
  | .rotateRefresh now _ refreshJti presented, w =>
    (w.db.sessions.entries.filter fun e => e.2.refreshTokenHash = env.sha256 presented).map
      fun e => rotatedRefresh env now refreshJti e.1 e.2
  | _, _ => []

/-- The tokens of a run: those presented and those signed. -/
def issuedTokens (env : Env) (tr : List (Step Realm Call)) : List Token :=
  tr.flatMap fun x => x.call.presents ++ x.call.mints env x.pre

theorem issuedTokens_cons {x : Step Realm Call} {token : Token}
    (h : token ∈ issuedTokens env tr) : token ∈ issuedTokens env (x :: tr) := by
  simp only [issuedTokens, List.flatMap_cons]
  exact List.mem_append_right _ h

theorem issuedTokens_append {later earlier : List (Step Realm Call)} {token : Token}
    (h : token ∈ issuedTokens env earlier) : token ∈ issuedTokens env (later ++ earlier) := by
  simp only [issuedTokens, List.flatMap_append]
  exact List.mem_append_right _ h

theorem mints_mem {x : Step Realm Call} {token : Token} (hx : x ∈ tr)
    (h : token ∈ x.call.mints env x.pre) : token ∈ issuedTokens env tr :=
  List.mem_flatMap.2 ⟨x, hx, List.mem_append_right _ h⟩

theorem presents_mem {x : Step Realm Call} {token : Token} (hx : x ∈ tr)
    (h : token ∈ x.call.presents) : token ∈ issuedTokens env tr :=
  List.mem_flatMap.2 ⟨x, hx, List.mem_append_left _ h⟩

/-! ## One step -/

/-- The audit only grows. -/
theorem Took.audit {c : Call} {w w' : Realm} {own : List (Realm × Realm)}
    (h : Took env c ((w, w') :: own)) (hc : c.Keeping) {hash : String} {a : RefreshTokenAudit}
    (ha : w.db.refreshTokenAudits.lookup hash = some a) :
    w'.db.refreshTokenAudits.lookup hash = some a := by
  cases h with
  | idle hdb =>
    rw [hdb]
    exact ha
  | upkeep hup =>
    dsimp only
    rw [hup.frame.2.1]
    exact ha
  | issued _ => exact ha
  | rotated _ haudit _ =>
    simp only [Identity.rotated, rotatedDb]
    rw [Table.lookup_insert_ite, if_neg]
    · exact ha
    · rintro rfl
      rw [haudit] at ha
      cases ha
  | purged _ => exact hc.elim

/-- A session stays, in its family. -/
theorem Took.stays {c : Call} {w w' : Realm} {own : List (Realm × Realm)}
    (h : Took env c ((w, w') :: own)) (hc : c.Keeping) {id : Uuid} {s : Session}
    (hs : w.db.sessions.lookup id = some s) : ∃ s', w'.db.sessions.lookup id = some s' ∧
      s'.refreshTokenFamilyId = s.refreshTokenFamilyId := by
  cases h with
  | idle hdb =>
    rw [hdb]
    exact ⟨s, hs, rfl⟩
  | upkeep hup =>
    have hsessions := hup.sessions id
    rw [hs] at hsessions
    obtain ⟨s', hs', hkept⟩ := hsessions
    exact ⟨s', hs', hkept.refreshTokenFamilyId⟩
  | @issued now ids input _ hfresh =>
    have hne : id ≠ ids.sessionId := by
      rintro rfl
      rw [hfresh] at hs
      cases hs
    dsimp only [issuedDb]
    rw [lookup_revokeMany]
    dsimp only
    rw [Table.lookup_insert_ite, if_neg hne, hs]
    refine ⟨_, rfl, ?_⟩
    dsimp only
    split <;> rfl
  | @rotated now accessJti refreshJti presented w₁ w₂ _ sid read s₁ _ _ hs₁ =>
    simp only [Identity.rotated, rotatedDb]
    rw [Table.lookup_insert_ite]
    split
    · rename_i hid
      rw [hid, hs₁] at hs
      obtain rfl := Option.some.inj hs
      exact ⟨_, rfl, rfl⟩
    · exact ⟨s, hs, rfl⟩
  | purged _ => exact hc.elim

/-- A new row of the audit is that of a rotation. -/
theorem Took.audited {c : Call} {w w' : Realm} {own : List (Realm × Realm)}
    (h : Took env c ((w, w') :: own)) {hash : String}
    (hpre : w.db.refreshTokenAudits.lookup hash = none) {a : RefreshTokenAudit}
    (hpost : w'.db.refreshTokenAudits.lookup hash = some a) :
    ∃ now accessJti refreshJti presented w₁ w₂ sid read,
      c = .rotateRefresh now accessJti refreshJti presented ∧ own = [(w₂, w₂), (w₁, w₁)] ∧
      Rotatable env now presented w₁ w₂ sid read ∧ hash = env.sha256 presented ∧
      a.familyId = read.refreshTokenFamilyId := by
  have hsame : w'.db.refreshTokenAudits ≠ w.db.refreshTokenAudits := by
    intro heq
    rw [heq, hpre] at hpost
    cases hpost
  cases h with
  | idle hdb => exact (hsame (by rw [hdb])).elim
  | upkeep hup => exact (hsame hup.frame.2.1).elim
  | issued _ => exact (hsame rfl).elim
  | @rotated now accessJti refreshJti presented w₁ w₂ _ sid read s hfound _ _ =>
    simp only [Identity.rotated, rotatedDb] at hpost
    rw [Table.lookup_insert_ite] at hpost
    split at hpost
    · rename_i hhash
      obtain rfl := Option.some.inj hpost
      exact ⟨now, accessJti, refreshJti, presented, w₁, w₂, sid, read, rfl, rfl, hfound, hhash,
        rfl⟩
    · rw [hpre] at hpost
      cases hpost
  | purged _ =>
    obtain ⟨hold, -⟩ := Table.lookup_deleteMany.1 hpost
    rw [hpre] at hold
    cases hold

/-- The step puts the hash of a token into a session. -/
inductive Mints (env : Env) (x : Step Realm Call) : Uuid → Token → Prop
  | issued {now : Instant} {ids : Draws} {input : IssueSessionInput}
      (hcall : x.call = .issueSession now ids input)
      (hpre : x.pre.db.sessions.lookup ids.sessionId = none)
      (hpost : (x.post.db.sessions.lookup ids.sessionId).isSome) :
      Mints env x ids.sessionId (issuedRefresh env now ids input.userId)
  | rotated {now : Instant} {accessJti refreshJti : Uuid} {presented : Text} {id : Uuid}
      {read s : Session} (hcall : x.call = .rotateRefresh now accessJti refreshJti presented)
      (haudit : x.pre.db.refreshTokenAudits.lookup (env.sha256 presented) = none)
      (hpost : x.post = rotated env now accessJti refreshJti presented id read s x.pre) :
      Mints env x id (rotatedRefresh env now refreshJti id read)

/-- Where the hash and the family of a session come from. -/
structure Traced (env : Env) (tr : List (Step Realm Call)) (id : Uuid) (s : Session) : Prop where
  minted : ∃ x ∈ tr, ∃ token ∈ issuedTokens env tr, Mints env x id token ∧
    s.refreshTokenHash = env.sha256 (.signed token) ∧
    token.claims.fam = some s.refreshTokenFamilyId
  family : ∃ y ∈ tr, ∃ now ids input, y.call = .issueSession now ids input ∧
    ids.familyId = s.refreshTokenFamilyId

theorem Traced.cons {x : Step Realm Call} {id : Uuid} {s s' : Session} (h : Traced env tr id s)
    (hkept : Kept s s') : Traced env (x :: tr) id s' := by
  obtain ⟨y, hy, token, htoken, hmints, hhash, hfam⟩ := h.minted
  obtain ⟨z, hz, hfamily⟩ := h.family
  refine ⟨⟨y, List.mem_cons_of_mem _ hy, token, issuedTokens_cons htoken, hmints, ?_, ?_⟩,
    z, List.mem_cons_of_mem _ hz, ?_⟩
  · rw [hkept.refreshTokenHash, hhash]
  · rw [hkept.refreshTokenFamilyId, hfam]
  · rw [hkept.refreshTokenFamilyId]
    exact hfamily

/-! ## Every run -/

/-- A session is of one family in all states. -/
theorem family_fixed (hrun : SessionRun env Call.Keeping s₀ tr P)
    {later earlier : List (Step Realm Call)} {x y : Step Realm Call}
    (hsplit : tr = later ++ x :: earlier) (hy : y ∈ earlier) {id : Uuid} {s s' : Session}
    (hs : y.post.db.sessions.lookup id = some s) (hs' : x.pre.db.sessions.lookup id = some s') :
    s'.refreshTokenFamilyId = s.refreshTokenFamilyId := by
  obtain ⟨mid, first, hearlier⟩ := List.append_of_mem hy
  have hlate : tr = (later ++ x :: mid) ++ y :: first := by
    rw [hsplit, hearlier]
    simp
  obtain ⟨hkeeps, -⟩ := hrun.keeps (I := fun w => ∃ s₁, w.db.sessions.lookup id = some s₁ ∧
      s₁.refreshTokenFamilyId = s.refreshTokenFamilyId) hlate ⟨s, hs, rfl⟩ <| by
    rintro late z mid' hsteps ⟨s₁, hs₁, hfam₁⟩
    have hz : tr = late ++ z :: (mid' ++ y :: first) := by
      rw [hlate, hsteps]
      simp
    obtain ⟨s₂, hs₂, hfam₂⟩ := (took_of_run hrun hz).stays (hrun.step_ok (by rw [hz]; simp)) hs₁
    exact ⟨s₂, hs₂, hfam₂.trans hfam₁⟩
  obtain ⟨⟨s₁, hs₁, hfam⟩, -⟩ := hkeeps x (by simp)
  obtain rfl := Option.some.inj (hs'.symm.trans hs₁)
  exact hfam

/-- The token of a rotation is among the tokens of the run. -/
theorem rotated_issued {ok : Call → Prop} (hrun : SessionRun env ok s₀ tr P)
    {later earlier : List (Step Realm Call)} {x : Step Realm Call}
    (hsplit : tr = later ++ x :: earlier) {now : Instant} {accessJti refreshJti : Uuid}
    {presented : Text} {w₁ w₂ : Realm} {id : Uuid} {read : Session}
    (hc : x.call = .rotateRefresh now accessJti refreshJti presented)
    (hown : own x.tid earlier = [(w₂, w₂), (w₁, w₁)])
    (hfound : Rotatable env now presented w₁ w₂ id read) :
    (∃ y ∈ earlier, y.post = w₂) ∧
      rotatedRefresh env now refreshJti id read ∈ issuedTokens env (x :: earlier) := by
  -- the step at which the thread read the session
  have hmem : (w₂, w₂) ∈ own x.tid earlier := by
    rw [hown]
    exact List.mem_cons_self
  obtain ⟨y, hy, hytid, hypre, hypost⟩ := mem_own.1 hmem
  obtain ⟨hread, hwaiting⟩ := hfound.waiting
  have hycall : y.call = x.call :=
    hrun.call_eq (by rw [hsplit]; simp [hy]) (by rw [hsplit]; simp) hytid
  refine ⟨⟨y, hy, hypost⟩, mints_mem (List.mem_cons_of_mem _ hy) ?_⟩
  rw [hycall, hc, hypre]
  exact List.mem_map.2 ⟨⟨id, read⟩, List.mem_filter.2
    ⟨Table.mem_entries_iff.2 hread, by simpa using hwaiting⟩, rfl⟩

/-- Every session of a run is traced. -/
theorem traced_of_run (hnone : s₀.db.sessions = ∅) (hrun : SessionRun env Call.Keeping s₀ tr P) :
    ∀ id s, P.state.db.sessions.lookup id = some s → Traced env tr id s := by
  refine hrun.induct (I := fun tr w => ∀ id s, w.db.sessions.lookup id = some s →
    Traced env tr id s) ?_ ?_
  · intro id s hs
    rw [hnone] at hs
    cases hs
  · intro later x earlier hsplit ih id s' hs'
    rcases (took_of_run hrun hsplit).session hs' with
      ⟨now, ids, input, hc, -, rfl, rfl, hpre⟩ |
      ⟨now, accessJti, refreshJti, presented, w₁, w₂, read, s, hc, hown, hfound, hs, haudit, hpost,
        rfl⟩ | ⟨s, hs, hkept⟩
    · refine ⟨⟨x, List.mem_cons_self, _, mints_mem List.mem_cons_self ?_,
        .issued hc hpre (by rw [hs']; rfl), rfl, rfl⟩, x, List.mem_cons_self, now, ids, input, hc,
        rfl⟩
      rw [hc]
      exact List.mem_singleton_self _
    · obtain ⟨⟨y, hy, hypost⟩, htoken⟩ := rotated_issued hrun hsplit hc hown hfound
      have hfam : s.refreshTokenFamilyId = read.refreshTokenFamilyId :=
        family_fixed hrun hsplit hy (by rw [hypost]; exact hfound.waiting.1) hs
      obtain ⟨z, hz, hfamily⟩ := (ih id s hs).family
      refine ⟨⟨x, List.mem_cons_self, _, htoken, .rotated hc haudit hpost, rfl, ?_⟩, z,
        List.mem_cons_of_mem _ hz, hfamily⟩
      show some read.refreshTokenFamilyId = some s.refreshTokenFamilyId
      rw [hfam]
    · exact (ih id s hs).cons hkept

/-- The step puts a hash into the audit. -/
def Audits (hash : String) (x : Step Realm Call) : Prop :=
  x.pre.db.refreshTokenAudits.lookup hash = none ∧
    (x.post.db.refreshTokenAudits.lookup hash).isSome

/-- A hash goes into the audit at most once. -/
theorem audits_once (hrun : SessionRun env Call.Keeping s₀ tr P) (hash : String) :
    AtMostOnce (Audits hash) tr := by
  refine (hrun.induct (I := fun tr w => AtMostOnce (Audits hash) tr ∧
    ((∃ y ∈ tr, Audits hash y) → (w.db.refreshTokenAudits.lookup hash).isSome)) ?_ ?_).1
  · exact ⟨List.Pairwise.nil, by simp⟩
  · intro later x earlier hsplit ih
    have hkeep : (x.pre.db.refreshTokenAudits.lookup hash).isSome →
        (x.post.db.refreshTokenAudits.lookup hash).isSome := by
      intro hpre
      obtain ⟨a, ha⟩ := Option.isSome_iff_exists.1 hpre
      rw [(took_of_run hrun hsplit).audit (hrun.step_ok (by rw [hsplit]; simp)) ha]
      rfl
    refine ⟨ih.1.cons fun hx y hy hay => ?_, ?_⟩
    · have hsome := ih.2 ⟨y, hy, hay⟩
      rw [hx.1] at hsome
      cases hsome
    · rintro ⟨y, hy, hay⟩
      rcases List.mem_cons.1 hy with rfl | hy
      · exact hay.2
      · exact hkeep (ih.2 ⟨y, hy, hay⟩)

/-- A successful rotation is a step that puts the presented hash into the audit. -/
theorem rotated_audits (hrun : SessionRun env Call.Keeping s₀ tr P) {i : ℕ} {now : Instant}
    {accessJti refreshJti : Uuid} {presented : Text} {a : Answer}
    (ht : P.threads[i]? = some ⟨.rotateRefresh now accessJti refreshJti presented, .ret a⟩) :
    ∃ x ∈ tr, x.tid = i ∧ Audits (env.sha256 presented) x := by
  have hpromise : Promise env (.rotateRefresh now accessJti refreshJti presented) (own i tr)
      (.ok a) := promise_of_run hrun ht
  obtain ⟨r, w₁, w₂, w₃, sid, read, s, -, -, -, haudit, hown⟩ := hpromise
  have hmem : (w₃, rotated env now accessJti refreshJti presented sid read s w₃) ∈ own i tr := by
    rw [hown]
    exact List.mem_cons_self
  obtain ⟨x, hx, hxtid, hxpre, hxpost⟩ := mem_own.1 hmem
  refine ⟨x, hx, hxtid, ?_, ?_⟩
  · rw [hxpre]
    exact haudit
  · rw [hxpost]
    simp only [rotated, rotatedDb]
    rw [AList.lookup_insert]
    rfl

/-- A step that mints is one of a thread that has returned the token, or can only return it. -/
theorem mints_returned (hrun : SessionRun env Call.Keeping s₀ tr P) {x : Step Realm Call}
    (hx : x ∈ tr) {id : Uuid} {token : Token} (hmints : Mints env x id token) :
    ∃ t, P.threads[x.tid]? = some t ∧ t.rest.Ends fun o => ∃ r, o = .ok (.issued r) ∧
      env.sha256 (.signed r.refreshToken) = env.sha256 (.signed token) := by
  obtain ⟨t, ht, hcall⟩ := hrun.thread_of_step hx
  have hmem : ∀ later, (x.pre, x.post) ∈ later ++ own x.tid tr := fun later =>
    List.mem_append_right _ (mem_own.2 ⟨x, hx, rfl, rfl, rfl⟩)
  refine ⟨t, ht, (promise_of_run hrun ht).ends fun later o hpromise => ?_⟩
  rw [hcall] at hpromise
  cases hmints with
  | @issued now ids input hxcall hpre hpost =>
    rw [hxcall] at hpromise
    cases o with
    | ok a =>
      obtain ⟨r, w, before, rfl, htoken, -⟩ := hpromise
      exact ⟨r, rfl, by rw [htoken]⟩
    | error e =>
      -- a call that failed has left the database alone
      obtain ⟨w, hown⟩ := hpromise
      have hsame := hmem later
      rw [hown] at hsame
      obtain ⟨rfl, heq⟩ := Prod.mk.inj (List.mem_singleton.1 hsame)
      rw [heq, hpre] at hpost
      cases hpost
  | @rotated now accessJti refreshJti presented _ read s hxcall haudit hpost =>
    rw [hxcall] at hpromise
    have hpostaudit : x.post.db.refreshTokenAudits.lookup (env.sha256 presented) =
        some ⟨read.refreshTokenFamilyId, id⟩ := by
      rw [hpost]
      exact AList.lookup_insert _
    have hchanged : x.post.db.refreshTokenAudits ≠ x.pre.db.refreshTokenAudits := by
      intro heq
      rw [heq, haudit] at hpostaudit
      cases hpostaudit
    cases o with
    | ok a =>
      obtain ⟨r, w₁, w₂, w₃, sid, read', s', rfl, htoken, -, -, hown⟩ := hpromise
      have hsame := hmem later
      rw [hown] at hsame
      simp only [List.mem_cons, List.not_mem_nil, or_false, Prod.mk.injEq] at hsame
      rcases hsame with ⟨rfl, heq⟩ | ⟨hpre₂, hpost₂⟩ | ⟨hpre₁, hpost₁⟩
      · refine ⟨r, rfl, ?_⟩
        have hsid : (⟨read'.refreshTokenFamilyId, sid⟩ : RefreshTokenAudit) =
            ⟨read.refreshTokenFamilyId, id⟩ := by
          rw [heq] at hpostaudit
          exact Option.some.inj ((AList.lookup_insert _).symm.trans hpostaudit)
        obtain ⟨-, rfl⟩ := RefreshTokenAudit.mk.inj hsid
        have hrow : rotatedRow env now accessJti refreshJti sid read' s' =
            rotatedRow env now accessJti refreshJti sid read s := by
          have hlookup : ∀ read s, (rotated env now accessJti refreshJti presented sid read s
              x.pre).db.sessions.lookup sid =
                some (rotatedRow env now accessJti refreshJti sid read s) :=
            fun read s => AList.lookup_insert _
          rw [← Option.some_inj, ← hlookup, ← hlookup, ← hpost, heq]
        rw [htoken]
        exact congrArg Session.refreshTokenHash hrow
      · rw [hpre₂, hpost₂] at hchanged
        exact (hchanged rfl).elim
      · rw [hpre₁, hpost₁] at hchanged
        exact (hchanged rfl).elim
    | error e =>
      rcases hpromise.1 _ (hmem later) with heq | hup
      · rw [heq] at hchanged
        exact (hchanged rfl).elim
      · exact (hchanged hup.frame.2.1).elim

/-- The step commits the rotation of a token. -/
def Rotates (env : Env) (presented : Text) (x : Step Realm Call) : Prop :=
  (∃ now accessJti refreshJti, x.call = .rotateRefresh now accessJti refreshJti presented) ∧
    Audits (env.sha256 presented) x

/-- The digest tells the tokens of the run apart. -/
def Injective (env : Env) (tr : List (Step Realm Call)) : Prop :=
  ∀ token ∈ issuedTokens env tr, ∀ token' ∈ issuedTokens env tr,
    env.sha256 (.signed token) = env.sha256 (.signed token') → token = token'

instance (env : Env) (tr : List (Step Realm Call)) : Decidable (Injective env tr) :=
  inferInstanceAs (Decidable (∀ token ∈ issuedTokens env tr, ∀ token' ∈ issuedTokens env tr,
    env.sha256 (.signed token) = env.sha256 (.signed token') → token = token'))

/-- The audit row of a rotated token is of the family in its claims, which a call has drawn. -/
theorem rotates_audit (hnone : s₀.db.sessions = ∅) (hrun : SessionRun env Call.Keeping s₀ tr P)
    (hinj : Injective env tr) {later earlier : List (Step Realm Call)} {x : Step Realm Call}
    (hsplit : tr = later ++ x :: earlier) {token : Token} (hx : Rotates env (.signed token) x) :
    ∃ a, x.post.db.refreshTokenAudits.lookup (env.sha256 (.signed token)) = some a ∧
      token.claims.fam = some a.familyId ∧ ∃ y ∈ earlier, ∃ now ids input,
        y.call = .issueSession now ids input ∧ ids.familyId = a.familyId := by
  obtain ⟨⟨now, accessJti, refreshJti, hc⟩, hpre, hpost⟩ := hx
  obtain ⟨a, ha⟩ := Option.isSome_iff_exists.1 hpost
  refine ⟨a, ha, ?_⟩
  obtain ⟨now', _, _, presented, w₁, w₂, sid, read, hc', hown, hfound, -, hfam⟩ :=
    (took_of_run hrun hsplit).audited hpre ha
  rw [hc] at hc'
  cases hc'
  -- the session was read from a state of the run
  have hmem : (w₂, w₂) ∈ own x.tid earlier := by
    rw [hown]
    exact List.mem_cons_self
  obtain ⟨y, hy, -, hypre, -⟩ := mem_own.1 hmem
  obtain ⟨mid, first, hearlier⟩ := List.append_of_mem hy
  have hbefore : tr = (later ++ x :: mid) ++ y :: first := by
    rw [hsplit, hearlier]
    simp
  obtain ⟨P', hrun', hstate⟩ := hrun.before hbefore
  obtain ⟨hread, hwaiting⟩ := hfound.waiting
  have htraced := traced_of_run hnone hrun' sid read (by rw [hstate, hypre]; exact hread)
  obtain ⟨-, -, token', htoken', -, hhash, hfam'⟩ := htraced.minted
  have heq : token = token' := by
    refine hinj token (presents_mem (x := x) (by rw [hsplit]; simp) ?_) token' ?_ ?_
    · rw [hc]
      exact List.mem_singleton_self _
    · rw [hbefore]
      exact issuedTokens_append (issuedTokens_cons htoken')
    · rw [← hwaiting, hhash]
  rw [hfam, heq, hfam']
  refine ⟨rfl, ?_⟩
  obtain ⟨z, hz, hfamily⟩ := htraced.family
  refine ⟨z, ?_, hfamily⟩
  rw [hearlier]
  exact List.mem_append_right _ (List.mem_cons_of_mem _ hz)

/-- The sessions of a family are revoked. -/
def FamilyRevoked (familyId : Uuid) (w : Realm) : Prop :=
  ∀ id s, w.db.sessions.lookup id = some s → s.refreshTokenFamilyId = familyId →
    s.revokedAt.isSome

/-- A family that has been revoked stays so, since no call draws it again. -/
theorem family_revoked (hrun : SessionRun env Call.Keeping s₀ tr P) (hfresh : Fresh s₀ P)
    {later earlier : List (Step Realm Call)} {x y : Step Realm Call}
    (hsplit : tr = later ++ x :: earlier) {familyId : Uuid} (hx : FamilyRevoked familyId x.post)
    (hy : y ∈ earlier) {now : Instant} {ids : Draws} {input : IssueSessionInput}
    (hyc : y.call = .issueSession now ids input) (hids : ids.familyId = familyId) :
    FamilyRevoked familyId P.state := by
  rw [hrun.state_eq]
  refine (hrun.keeps hsplit hx ?_).2
  intro late z mid hlater hpre id s' hs' hfam
  have hz : tr = late ++ z :: (mid ++ x :: earlier) := by
    rw [hsplit, hlater]
    simp
  rcases (took_of_run hrun hz).session hs' with
    ⟨now', ids', input', hc, hown, -, rfl, -⟩ |
    ⟨_, _, _, _, _, _, _, s, -, -, -, hs, -, -, rfl⟩ | ⟨s, hs, hkept⟩
  · -- the family would have been drawn twice
    obtain ⟨t, ht, htc⟩ := hrun.thread_of_step (show z ∈ tr by rw [hz]; simp)
    obtain ⟨t', ht', htc'⟩ := hrun.thread_of_step (show y ∈ tr by rw [hz]; simp [hy])
    have hdraws : familyId ∈ t.call.draws := by
      have hfamily : ids'.familyId = familyId := hfam
      rw [htc, hc, ← hfamily]
      exact List.mem_cons_of_mem _ List.mem_cons_self
    have hdraws' : familyId ∈ t'.call.draws := by
      rw [htc', hyc, ← hids]
      exact List.mem_cons_of_mem _ List.mem_cons_self
    have htid := hfresh.tid_eq ht ht' hdraws hdraws'
    have hmem : (y.pre, y.post) ∈ own z.tid (mid ++ x :: earlier) :=
      mem_own.2 ⟨y, by simp [hy], htid.symm, rfl, rfl⟩
    rw [hown] at hmem
    cases hmem
  · exact hpre id s hs hfam
  · exact hkept.revoked (hpre id s hs (hkept.refreshTokenFamilyId.symm.trans hfam))

/-- A token presented after its rotation: the call fails, and its family ends up revoked. -/
theorem replay_rejected (hnone : s₀.db.sessions = ∅)
    (hrun : SessionRun env Call.Keeping s₀ tr P) (hinj : Injective env tr) (hfresh : Fresh s₀ P)
    {later earlier : List (Step Realm Call)} {x : Step Realm Call}
    (hsplit : tr = later ++ x :: earlier) {presented : Text} (hx : Rotates env presented x) {i : ℕ}
    {now : Instant} {accessJti refreshJti : Uuid} {rest : Handler Answer}
    (ht : P.threads[i]? = some ⟨.rotateRefresh now accessJti refreshJti presented, rest⟩)
    (hstart : own i (x :: earlier) = []) {claims : Claims}
    (hverify : verifyRefresh now presented = some claims) :
    (∀ a, rest ≠ .ret a) ∧ ∀ e, rest = .fail e → ∀ familyId, claims.fam = some familyId →
      FamilyRevoked familyId P.state := by
  obtain ⟨token, rfl, rfl, -⟩ := verify_signed hverify
  obtain ⟨audit, haudit, hfam, y, hy, _, ids, _, hyc, hids⟩ :=
    rotates_audit hnone hrun hinj hsplit hx
  -- the audit row is there whenever the call looks
  obtain ⟨hkept, -⟩ := hrun.keeps (I := fun w =>
    w.db.refreshTokenAudits.lookup (env.sha256 (.signed token)) = some audit) hsplit haudit <| by
    intro late z mid hlater hpre
    have hz : tr = late ++ z :: (mid ++ x :: earlier) := by
      rw [hsplit, hlater]
      simp
    exact (took_of_run hrun hz).audit (hrun.step_ok (by rw [hz]; simp)) hpre
  have hown : own i tr = own i later := by
    rw [hsplit, own_append, hstart, List.append_nil]
  have hpromise := promise_of_run hrun ht
  refine ⟨?_, ?_⟩
  · rintro a rfl
    obtain ⟨r, w₁, w₂, w₃, sid, read, s, -, -, hfound, -, hsteps⟩ := hpromise
    have hmem : (w₁, w₁) ∈ own i later := by
      rw [← hown, hsteps]
      simp
    obtain ⟨z, hz, -, hzpre, -⟩ := mem_own.1 hmem
    have hsome := (hkept z hz).1
    rw [hzpre, hfound.unaudited] at hsome
    cases hsome
  · rintro e rfl familyId hfamily
    obtain ⟨-, hinvalid | ⟨w₁, late, hsteps, hreplay⟩⟩ := hpromise
    · rw [hverify] at hinvalid
      cases hinvalid
    · rw [hfam] at hfamily
      obtain rfl := Option.some.inj hfamily
      have hmem : (w₁, w₁) ∈ own i later := by
        rw [← hown, hsteps]
        simp
      obtain ⟨z, hz, -, hzpre, -⟩ := mem_own.1 hmem
      have hfound := (hkept z hz).1
      rw [hzpre] at hfound
      obtain ⟨⟨u, u'⟩, hu, hswept⟩ := hreplay audit hfound
      have hmem' : (u, u') ∈ own i later := by
        rw [← hown, hsteps]
        exact List.mem_append_left _ hu
      obtain ⟨v, hv, -, -, hvpost⟩ := mem_own.1 hmem'
      obtain ⟨late', mid, hlater⟩ := List.append_of_mem hv
      have hv' : tr = late' ++ v :: (mid ++ x :: earlier) := by
        rw [hsplit, hlater]
        simp
      refine family_revoked hrun hfresh hv' (fun id s hs hfamily => ?_) (by simp [hy]) hyc hids
      exact hswept id s (by rw [← hvpost]; exact hs) (by simpa [ofFamily] using hfamily)

/-- **Refresh tokens are single-use.** In every run of rotations, sign-ins and revocations from a
realm without sessions:

* of the calls that present one token, at most one succeeds;
* a call that presents an unexpired token, and begins after the token's rotation has committed, does
  not succeed, and once it has ended every session of the token's family is revoked;
* the hash of every session is that of a token which a call has returned, or can only return. -/
theorem refresh_single_use (env : Env) (s₀ : Realm) (hnone : s₀.db.sessions = ∅)
    (tr : List (Step Realm Call)) (P : Pool Realm Error Answer Call)
    (hrun : SessionRun env Call.Keeping s₀ tr P) (hinj : Injective env tr) (hfresh : Fresh s₀ P) :
    (∀ (i j : ℕ) presented now accessJti refreshJti a now' accessJti' refreshJti' a',
      P.threads[i]? = some ⟨.rotateRefresh now accessJti refreshJti presented, .ret a⟩ →
      P.threads[j]? = some ⟨.rotateRefresh now' accessJti' refreshJti' presented, .ret a'⟩ →
      i = j) ∧
    (∀ later x earlier presented, tr = later ++ x :: earlier → Rotates env presented x →
      ∀ (i : ℕ) now accessJti refreshJti rest claims,
        P.threads[i]? = some ⟨.rotateRefresh now accessJti refreshJti presented, rest⟩ →
        own i (x :: earlier) = [] → verifyRefresh now presented = some claims →
        (∀ a, rest ≠ .ret a) ∧ ∀ e, rest = .fail e → ∀ familyId, claims.fam = some familyId →
          FamilyRevoked familyId P.state) ∧
    ∀ id s, P.state.db.sessions.lookup id = some s → ∃ (i : ℕ) (t : _), P.threads[i]? = some t ∧
      t.rest.Ends fun o => ∃ r, o = .ok (.issued r) ∧
        env.sha256 (.signed r.refreshToken) = s.refreshTokenHash := by
  refine ⟨?_, ?_, ?_⟩
  · intro i j presented now accessJti refreshJti a now' accessJti' refreshJti' a' hi hj
    obtain ⟨x, hx, rfl, hxaudits⟩ := rotated_audits hrun hi
    obtain ⟨y, hy, rfl, hyaudits⟩ := rotated_audits hrun hj
    rw [(audits_once hrun _).eq hx hy hxaudits hyaudits]
  · intro later x earlier presented hsplit hx i now accessJti refreshJti rest claims ht hstart
      hverify
    exact replay_rejected hnone hrun hinj hfresh hsplit hx ht hstart hverify
  · intro id s hs
    obtain ⟨x, hx, token, -, hmints, hhash, -⟩ := (traced_of_run hnone hrun id s hs).minted
    obtain ⟨t, ht, hends⟩ := mints_returned hrun hx hmints
    rw [hhash]
    exact ⟨x.tid, t, ht, hends⟩

/-- Ann signs in, two calls present her refresh token at the same time, and a third one after
them. -/
def sampleRotations : List (Choice Call) :=
  [.call (sampleIssue 100), .step 0, .call (.rotateRefresh 1000 110 111 (sampleRefresh 100)),
    .call (.rotateRefresh 1000 120 121 (sampleRefresh 100)), .step 1, .step 2, .step 1, .step 2,
    .step 1, .step 2, .call (.rotateRefresh 2000 130 131 (sampleRefresh 100)), .step 3, .step 3,
    .step 3, .step 3]

/-- The run of these calls. -/
def sampleRotated : List (Step Realm Call) × Pool Realm Error Answer Call :=
  exec (fun _ => handle sampleEnv) sampleRealm sampleRotations

theorem refresh_single_use_sample :
    (sampleRotated.2.state.db.sessions.lookup 100).isSome ∧
      ∀ id s, sampleRotated.2.state.db.sessions.lookup id = some s → ∃ (i : ℕ) (t : _),
        sampleRotated.2.threads[i]? = some t ∧ t.rest.Ends fun o => ∃ r, o = .ok (.issued r) ∧
          sampleEnv.sha256 (.signed r.refreshToken) = s.refreshTokenHash := by
  refine ⟨by decide +kernel, (refresh_single_use sampleEnv sampleRealm rfl _ _
    (exec_run sampleRotations ?_) (by decide +kernel) ⟨by decide +kernel, by decide +kernel⟩).2.2⟩
  intro c hc
  have hkeeping : ∀ ch ∈ sampleRotations, ∀ c, ch = .call c → c.Keeping := by
    simp [sampleRotations, sampleIssue, Call.Keeping]
  exact hkeeping _ hc c rfl

end BankDemo.Identity
