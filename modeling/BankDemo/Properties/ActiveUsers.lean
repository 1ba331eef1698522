import BankDemo.Auth.Calls

/-!
# No session for an inactive user

Four requests sign a user in: `login` and the passkey sign-in look at the user's status and make the
session some steps later, `mfaVerify` and `rotateRefresh` do not look at it. So a user who is frozen
meanwhile, or was frozen before, is signed in all the same (`frozen_sign_in`). The users who are signed
in are active in every run in which no step takes a user out of `active` while a request that will sign
it in is under way, and in which codes and refresh tokens are presented for active users only
(`sign_ins_active`).
-/

namespace BankDemo.Identity

open Crypto

/-- The step of a request makes a session of the user, or gives one of them new tokens. -/
inductive SignsIn (env : Env) : Request → Realm → Realm → Uuid → Prop
  | issued {c : Request} {now : Instant} {ids : Draws} {input : IssueSessionInput} {w : Realm}
      (hc : c.issues = some (now, ids))
      (hfresh : w.db.sessions.lookup ids.sessionId = none) :
      SignsIn env c w { w with db := issuedDb env now ids input w.db } input.userId
  | rotated {now : Instant} {accessJti refreshJti : Uuid} {presented : Text} {w : Realm}
      {sid : Uuid} {read s : Session} (hs : w.db.sessions.lookup sid = some s) :
      SignsIn env (.rotateRefresh now accessJti refreshJti presented) w
        (rotated env now accessJti refreshJti presented sid read s w) s.userId

/-- The user is active. -/
def Active (userId : Uuid) (w : Realm) : Prop := w.db.userStatus userId = some .active

instance (userId : Uuid) (w : Realm) : Decidable (Active userId w) :=
  inferInstanceAs (Decidable (_ = _))

/-- The step, after the steps `earlier`, does not sign in a user whose status was lost sight of: since
its request began no step has taken the user out of `active`, and if the request does not look at the
status itself, the user was active when it began. -/
structure Watched (env : Env) (x : Step Realm Request) (earlier : List (Step Realm Request)) :
    Prop where
  steady : ∀ userId, SignsIn env x.call x.pre x.post userId →
    ∀ y ∈ sinceBegun x.tid earlier, Active userId y.pre → Active userId y.post
  begun : ∀ userId, SignsIn env x.call x.pre x.post userId → x.call.checksStatus = false →
    ∀ w, begun x.tid (x :: earlier) = some w → Active userId w

/-! ## Whose sessions are -/

theorem Upkeep.owner {db db' : Db} (h : Upkeep db db') (id : Uuid) :
    (db'.sessions.lookup id).map Session.userId = (db.sessions.lookup id).map Session.userId := by
  have hsessions := h.sessions id
  cases hs : db.sessions.lookup id with
  | none =>
    rw [hs] at hsessions
    rw [hsessions]
  | some s =>
    rw [hs] at hsessions
    obtain ⟨s', hs', hkept⟩ := hsessions
    rw [hs', Option.map_some, Option.map_some, hkept.userId]

theorem lookup_issuedDb_self (env : Env) (now : Instant) (ids : Draws) (input : IssueSessionInput)
    (db : Db) : (issuedDb env now ids input db).sessions.lookup ids.sessionId =
      some (issuedRow env now ids input) := by
  unfold issuedDb
  rw [lookup_revokeMany]
  dsimp only
  rw [Table.lookup_insert_ite, if_pos rfl]
  simp [otherThan]

theorem lookup_issuedDb_of_ne {env : Env} {now : Instant} {ids : Draws} {input : IssueSessionInput}
    {db : Db} {id : Uuid} (hid : id ≠ ids.sessionId) :
    ((issuedDb env now ids input db).sessions.lookup id).map Session.userId =
      (db.sessions.lookup id).map Session.userId := by
  unfold issuedDb
  rw [lookup_revokeMany]
  dsimp only
  rw [Table.lookup_insert_ite, if_neg hid, Option.map_map]
  congr 1
  funext s
  simp only [Function.comp_apply]
  split
  · rfl
  · rfl

/-- Whose a session is stays, or the step makes the session, for a user whose status its request has
looked at if it does so. -/
theorem Did.owner {env : Env} {c : Request} {w w' : Realm} {own : List (Realm × Realm)}
    (h : Did env c ((w, w') :: own)) (id : Uuid) :
    (w'.db.sessions.lookup id).map Session.userId = (w.db.sessions.lookup id).map Session.userId ∨
      ∃ s, w'.db.sessions.lookup id = some s ∧ w.db.sessions.lookup id = none ∧
        SignsIn env c w w' s.userId ∧ (c.checksStatus = true → FoundActive s.userId own) := by
  cases h with
  | idle hdb => exact .inl (by rw [hdb])
  | upkeep hup => exact .inl (hup.owner id)
  | aside haside => exact .inl (by rw [haside.frame.2])
  | challenged userId hnone => exact .inl rfl
  | begun hnone => exact .inl rfl
  | @issued _ now ids input _ _ hc hchecked hfresh =>
    by_cases hid : id = ids.sessionId
    · subst hid
      exact .inr ⟨_, lookup_issuedDb_self env now ids input w.db, hfresh,
        SignsIn.issued hc hfresh, hchecked⟩
    · exact .inl (lookup_issuedDb_of_ne hid)
  | @rotated now accessJti refreshJti presented _ _ _ sid read s _ hs =>
    left
    simp only [Identity.rotated, rotatedDb]
    rw [Table.lookup_insert_ite]
    split
    · rename_i hid
      subst hid
      rw [hs]
      rfl
    · rfl
  | status _ => exact .inl rfl

section Runs

variable {env : Env} {s₀ : Realm} {tr : List (Step Realm Request)}
  {P : Pool Realm Error Reply Request} {ok : Request → Prop}

/-- A session that is there stays there, and the user's. -/
theorem owner_kept (hrun : SignInRun env ok s₀ tr P) {later earlier : List (Step Realm Request)}
    (hsplit : tr = later ++ earlier) {id userId : Uuid}
    (hs : ((reached s₀ earlier).db.sessions.lookup id).map Session.userId = some userId) :
    ((reached s₀ tr).db.sessions.lookup id).map Session.userId = some userId := by
  refine (hrun.keeps (I := fun w => (w.db.sessions.lookup id).map Session.userId = some userId)
    hsplit hs fun late x mid hlater hpre => ?_).2
  have hx : tr = late ++ x :: (mid ++ earlier) := by
    rw [hsplit, hlater]
    simp
  rcases (did_of_run hrun hx).owner id with heq | ⟨s, -, hnone, -⟩
  · rw [heq]
    exact hpre
  · rw [hnone] at hpre
    cases hpre

/-- The user that a watched step signs in is active. -/
theorem active_of_signs (hrun : SignInRun env ok s₀ tr P) {later earlier : List (Step Realm Request)}
    {x : Step Realm Request} (hsplit : tr = later ++ x :: earlier) (hx : Watched env x earlier)
    {userId : Uuid} (hsigns : SignsIn env x.call x.pre x.post userId)
    (hchecked : x.call.checksStatus = true → FoundActive userId (own x.tid earlier)) :
    Active userId x.pre := by
  have hsteady := hx.steady userId hsigns
  cases hcheck : x.call.checksStatus with
  | true =>
    obtain ⟨w, hw, hactive⟩ := hchecked hcheck
    obtain ⟨y, hy, htid, hpre, -⟩ := mem_own.1 hw
    obtain ⟨mid, rest, rfl⟩ := List.append_of_mem hy
    rw [← hpre] at hactive
    exact hrun.since hsplit hsteady (show x :: (mid ++ y :: rest) = (x :: mid) ++ y :: rest from rfl)
      htid hactive
  | false =>
    obtain ⟨w, hw⟩ := begun_self x earlier
    obtain ⟨mid, y, rest, hmid, htid, hpre⟩ := begun_split hw
    have hactive := hx.begun userId hsigns hcheck w hw
    rw [← hpre] at hactive
    exact hrun.since hsplit hsteady hmid htid hactive

/-- The tokens of an answer were made by one of the request's steps, which signed their user in. -/
theorem returned_signs (hrun : SignInRun env ok s₀ tr P) {i : ℕ} {c : Request}
    {r : IssueSessionResult} (hreturned : P.Returned i c (.session r)) :
    ∃ x ∈ tr, x.tid = i ∧ x.post.db.sessions.lookup r.sessionId = some r.session ∧
      r.accessToken.claims.sub = some r.session.userId ∧
      SignsIn env x.call x.pre x.post r.session.userId := by
  have hthread := hreturned.thread
  have hvow : Granted env c (own i tr) r := vow_of_run hrun hthread
  have hcall : ∀ x ∈ tr, x.tid = i → x.call = c := by
    intro x hx htid
    obtain ⟨t, ht, htc⟩ := hrun.thread_of_step hx
    rw [htid, hthread] at ht
    rw [← htc, ← Option.some.inj ht]
  generalize hown : own i tr = steps at hvow
  cases hvow with
  | @issued _ now ids input _ w later' earlier' hc hfresh hr =>
    obtain ⟨later, x, earlier, hsplit, htid, hx, -, -⟩ := own_eq_append hown
    obtain ⟨rfl, hpost⟩ := Prod.mk.inj hx
    have hmem : x ∈ tr := by simp [hsplit]
    refine ⟨x, hmem, htid, ?_, ?_, ?_⟩
    · rw [hpost, hr.session, hr.sessionId]
      exact lookup_issuedDb_self env now ids input x.pre.db
    · rw [hr.accessToken, hr.session]
      rfl
    · rw [hcall x hmem htid, hpost, hr.session]
      exact SignsIn.issued hc hfresh
  | @rotated now accessJti refreshJti presented w₁ w₂ w₃ sid read s _ hfound hs hr =>
    obtain ⟨later, x, earlier, hsplit, htid, hx, -, hearlier⟩ :=
      own_eq_append (show own i tr = [] ++ _ :: _ from hown)
    obtain ⟨rfl, hpost⟩ := Prod.mk.inj hx
    have hmem : x ∈ tr := by simp [hsplit]
    -- the lookup found the session some steps before; it is still the same user's
    have huser : s.userId = read.userId := by
      obtain ⟨mid, y, rest, rfl, -, hy, -, -⟩ :=
        own_eq_append (show own i earlier = [] ++ _ :: _ from hearlier)
      obtain ⟨rfl, -⟩ := Prod.mk.inj hy
      obtain ⟨P', hrun', hpre⟩ := hrun.before hsplit
      have hread : ((reached s₀ rest).db.sessions.lookup sid).map Session.userId =
          some read.userId := by
        rw [← hrun'.pre_eq rfl, hfound.waiting.1]
        rfl
      have hkept := owner_kept hrun' (show mid ++ y :: rest = (mid ++ [y]) ++ rest by simp) hread
      rw [← hrun'.state_eq, hpre, hs] at hkept
      exact Option.some.inj hkept
    refine ⟨x, hmem, htid, ?_, ?_, ?_⟩
    · rw [hpost, hr.session, hr.sessionId]
      simp only [rotated, rotatedDb]
      rw [Table.lookup_insert_ite, if_pos rfl]
    · obtain ⟨role, htoken⟩ := hr.accessToken
      rw [htoken, hr.session, ← huser]
      rfl
    · rw [hcall x hmem htid, hpost, hr.session]
      exact SignsIn.rotated hs

/-- The step that signs a user in has looked at the status if its request does so. -/
theorem Did.checked {c : Request} {w w' : Realm} {own : List (Realm × Realm)} {userId : Uuid}
    (h : Did env c ((w, w') :: own)) (hsigns : SignsIn env c w w' userId) :
    c.checksStatus = true → FoundActive userId own := by
  cases hsigns with
  | @issued _ now ids input _ hc hfresh =>
    have hself := lookup_issuedDb_self env now ids input w.db
    rcases h.owner ids.sessionId with heq | ⟨s, hs, -, -, hchecked⟩
    · rw [hfresh, hself] at heq
      cases heq
    · obtain rfl := Option.some.inj (hs.symm.trans hself)
      exact hchecked
  | rotated _ => exact fun h => by cases h

/-- **No session for an inactive user**, in every run whose steps are all `Watched`: every session is
made for a user who is active then, and every pair of tokens that a request returns was made by a step
of the request which found their user active. -/
theorem sign_ins_active (env : Env) (s₀ : Realm) (tr : List (Step Realm Request))
    (P : Pool Realm Error Reply Request) (hrun : SignInRun env (fun _ => True) s₀ tr P)
    (hwatched : ∀ later x earlier, tr = later ++ x :: earlier → Watched env x earlier) :
    (∀ x ∈ tr, ∀ id s, x.pre.db.sessions.lookup id = none →
      x.post.db.sessions.lookup id = some s → Active s.userId x.pre) ∧
    ∀ i c r, P.Returned i c (.session r) →
      ∃ x ∈ tr, x.tid = i ∧ x.post.db.sessions.lookup r.sessionId = some r.session ∧
        r.accessToken.claims.sub = some r.session.userId ∧ Active r.session.userId x.pre := by
  have hactive : ∀ x ∈ tr, ∀ userId, SignsIn env x.call x.pre x.post userId →
      Active userId x.pre := by
    intro x hx userId hsigns
    obtain ⟨later, earlier, hsplit⟩ := List.append_of_mem hx
    exact active_of_signs hrun hsplit (hwatched later x earlier hsplit) hsigns
      ((did_of_run hrun hsplit).checked hsigns)
  refine ⟨fun x hx id s hnone hs => ?_, fun i c r hreturned => ?_⟩
  · obtain ⟨later, earlier, hsplit⟩ := List.append_of_mem hx
    rcases (did_of_run hrun hsplit).owner id with heq | ⟨s', hs', -, hsigns, -⟩
    · rw [hnone, hs] at heq
      cases heq
    · obtain rfl := Option.some.inj (hs.symm.trans hs')
      exact hactive x hx _ hsigns
  · obtain ⟨x, hx, htid, hrow, hsub, hsigns⟩ := returned_signs hrun hreturned
    exact ⟨x, hx, htid, hrow, hsub, hactive x hx _ hsigns⟩

end Runs

/-! ## Two samples -/

/-- Ann signs in on the device she trusts, twice. -/
def sampleWatched : List (Choice Request) :=
  [.call (.login 0 "ann@example.com" "ann" "phone"
      ⟨20, ⟨21, "111111", 0⟩, 22, ⟨100, 101, 102, 103⟩⟩), .step 0, .step 0, .step 0,
    .call (.login 1000 "ann@example.com" "ann" "phone"
      ⟨30, ⟨31, "222222", 0⟩, 32, ⟨200, 201, 202, 203⟩⟩), .step 1, .step 0, .step 0, .step 1,
    .step 1, .step 1, .step 1, .step 1]

/-- Ann's password is right and a code is sent to her; an admin freezes her account; she answers the
code. -/
def sampleFrozen : List (Choice Request) :=
  [.call (.login 0 "ann@example.com" "ann" "tablet"
      ⟨20, ⟨21, "123456", 0⟩, 22, ⟨23, 24, 25, 26⟩⟩), .step 0, .step 0, .step 0,
    .call (.setStatus 1000 3 1 true), .step 1, .step 1, .step 1,
    .call (.mfaVerify 2000 (.signed (signMfa sampleEnv.ttl 0 22 1 21)) "123456" "tablet"
      ⟨30, ⟨31, "222222", 0⟩, 32, ⟨100, 101, 102, 103⟩⟩), .step 2, .step 2, .step 2, .step 2,
    .step 2, .step 2, .step 2]

theorem sample_watched (later : List (Step Realm Request)) (x : Step Realm Request)
    (earlier : List (Step Realm Request))
    (hsplit : (sampleRequests sampleWatched).1 = later ++ x :: earlier) :
    Watched sampleEnv x earlier := by
  have hquiet : ∀ y ∈ (sampleRequests sampleWatched).1, y.call.checksStatus = true ∧
      y.post.db.users.entries = y.pre.db.users.entries := by decide +kernel
  rw [hsplit] at hquiet
  refine ⟨fun userId _ y hy hactive => ?_, fun userId _ hcheck => ?_⟩
  · have husers := AList.ext (hquiet y (by simp [mem_of_sinceBegun hy])).2
    unfold Active Db.userStatus at hactive ⊢
    rw [husers]
    exact hactive
  · rw [(hquiet x (by simp)).1] at hcheck
    cases hcheck

theorem sign_ins_active_sample :
    (sampleRequests sampleWatched).2.state.db.sessions.keys = [200, 100] ∧
      ∀ x ∈ (sampleRequests sampleWatched).1, ∀ id s, x.pre.db.sessions.lookup id = none →
        x.post.db.sessions.lookup id = some s → Active s.userId x.pre :=
  ⟨by decide +kernel, (sign_ins_active sampleEnv sampleRealm _ _
    (exec_run sampleWatched fun _ _ => trivial) sample_watched).1⟩

/-- A frozen user who answers a code is signed in. -/
theorem frozen_sign_in : ¬ ∀ (env : Env) (s₀ : Realm) (tr : List (Step Realm Request))
    (P : Pool Realm Error Reply Request), SignInRun env (fun _ => True) s₀ tr P →
      ∀ x ∈ tr, ∀ id s, x.pre.db.sessions.lookup id = none →
        x.post.db.sessions.lookup id = some s → Active s.userId x.pre := by
  intro h
  have hactive := h sampleEnv sampleRealm _ _ (exec_run sampleFrozen fun _ _ => trivial)
  have hmade : ∃ x ∈ (sampleRequests sampleFrozen).1, x.pre.db.sessions.lookup 100 = none ∧
      (x.post.db.sessions.lookup 100).map Session.userId = some 1 ∧ ¬ Active 1 x.pre := by
    decide +kernel
  obtain ⟨x, hx, hnone, hs, hfrozen⟩ := hmade
  obtain ⟨s, hs, huser⟩ := Option.map_eq_some_iff.1 hs
  have huserActive := hactive x hx 100 s hnone hs
  rw [huser] at huserActive
  exact hfrozen huserActive

end BankDemo.Identity
