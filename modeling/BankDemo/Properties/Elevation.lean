import BankDemo.Auth.Calls

/-!
# Who earns an elevation token

`verifyChallenge` signs a token for its caller and for the scope of its request once `verify` has
consumed the challenge; it looks neither at whose the challenge is nor at what it was made for. So a
token is earned by its owner exactly when the request itself keeps to that: the challenge is the
caller's, and it was not made by a sign-in or for another scope (`elevation_earned_iff`).

Where the row of a challenge comes from is an invariant of all runs (`Sourced`): the request that made
it is a sign-in or a `beginChallenge` of the user that the row names, and there is one such request.
-/

namespace BankDemo.Identity

open Crypto

/-- The user and the scope that a request begins an elevation for. -/
def Request.elevates : Request → Option (Uuid × ElevationScope)
  | .beginChallenge _ userId scope _ => some (userId, scope)
  | _ => none

/-- The request is a sign-in with a password. -/
def Request.isLogin : Request → Bool
  | .login _ _ _ _ _ => true
  | _ => false

/-- The step made the challenge. -/
def MadeChallenge (id : Uuid) (x : Step Realm Request) : Prop :=
  x.pre.db.mfaChallenges.lookup id = none ∧ (x.post.db.mfaChallenges.lookup id).isSome = true

instance (id : Uuid) (x : Step Realm Request) : Decidable (MadeChallenge id x) :=
  inferInstanceAs (Decidable (_ ∧ _))

/-- The challenge was made by `beginChallenge` for the user and the scope. -/
def Earned (tr : List (Step Realm Request)) (userId : Uuid) (scope : ElevationScope) (id : Uuid) :
    Prop :=
  ∃ x ∈ tr, MadeChallenge id x ∧ x.call.elevates = some (userId, scope)

instance (tr : List (Step Realm Request)) (userId : Uuid) (scope : ElevationScope) (id : Uuid) :
    Decidable (Earned tr userId scope id) :=
  inferInstanceAs (Decidable (∃ x ∈ tr, _))

/-- The request presents, in the state `w`, a challenge of the user's own, which was made neither by
a sign-in nor for another scope. This is what the row of the challenge and the steps before it tell; the
code itself never asks for it. -/
structure PresentsOwn (tr : List (Step Realm Request)) (w : Realm) (userId : Uuid)
    (scope : ElevationScope) (id : Uuid) : Prop where
  owner : (w.db.mfaChallenges.lookup id).map MfaChallenge.userId = some userId
  purpose : ∀ x ∈ tr, MadeChallenge id x → x.call.isLogin = false
  scope : ∀ x ∈ tr, MadeChallenge id x → ∀ e, x.call.elevates = some e → e.2 = scope

/-! ## Where challenges come from -/

/-- The request can make a challenge of the user. -/
def Request.Challenges (c : Request) (userId : Uuid) : Prop :=
  c.isLogin = true ∨ ∃ scope, c.elevates = some (userId, scope)

/-- What a step of a request does to a challenge: whose it is stays, or the step makes it. -/
def ChallengeStep (c : Request) (id : Uuid) (w w' : Realm) : Prop :=
  (w'.db.mfaChallenges.lookup id).map MfaChallenge.userId =
      (w.db.mfaChallenges.lookup id).map MfaChallenge.userId ∨
    w.db.mfaChallenges.lookup id = none ∧
      ∃ row, w'.db.mfaChallenges.lookup id = some row ∧ c.Challenges row.userId

theorem challengeStep_of_eq {c : Request} {w w' : Realm}
    (h : w'.db.mfaChallenges = w.db.mfaChallenges) (id : Uuid) : ChallengeStep c id w w' := by
  left
  rw [h]

theorem challengeStep_withChallenge {c : Request} {w : Realm} {id' : Uuid} {row : MfaChallenge}
    (hnone : w.db.mfaChallenges.lookup id' = none) (hc : c.Challenges row.userId) (id : Uuid) :
    ChallengeStep c id w (w.withChallenge id' row) := by
  simp only [ChallengeStep, Realm.withChallenge, Table.lookup_insert_ite]
  by_cases hid : id = id'
  · subst hid
    exact .inr ⟨hnone, row, if_pos rfl, hc⟩
  · exact .inl (by rw [if_neg hid])

theorem Did.challengeStep {env : Env} {c : Request} {w w' : Realm} {own : List (Realm × Realm)}
    (h : Did env c ((w, w') :: own)) (id : Uuid) : ChallengeStep c id w w' := by
  cases h with
  | idle hdb => exact challengeStep_of_eq (by rw [hdb]) id
  | upkeep hup => exact challengeStep_of_eq hup.frame.2.2.2 id
  | aside haside => exact .inl (haside.challenges id)
  | challenged userId hnone => exact challengeStep_withChallenge hnone (.inl rfl) id
  | begun hnone => exact challengeStep_withChallenge hnone (.inr ⟨_, rfl⟩) id
  | issued _ _ _ => exact challengeStep_of_eq rfl id
  | rotated _ _ => exact challengeStep_of_eq rfl id
  | status _ => exact challengeStep_of_eq rfl id

/-- A challenge after the steps `tr`: it was made once, it is still there, and by a request that makes
challenges of the user that it names. -/
structure Sourced (id : Uuid) (tr : List (Step Realm Request)) (w : Realm) : Prop where
  once : AtMostOnce (MadeChallenge id) tr
  stays : ∀ x ∈ tr, MadeChallenge id x → (w.db.mfaChallenges.lookup id).isSome = true
  source : ∀ row, w.db.mfaChallenges.lookup id = some row →
    ∃ x ∈ tr, MadeChallenge id x ∧ x.call.Challenges row.userId

theorem Sourced.step {id : Uuid} {x : Step Realm Request} {earlier : List (Step Realm Request)}
    (h : Sourced id earlier x.pre) (hx : ChallengeStep x.call id x.pre x.post) :
    Sourced id (x :: earlier) x.post := by
  have hstays : (x.pre.db.mfaChallenges.lookup id).isSome = true →
      (x.post.db.mfaChallenges.lookup id).isSome = true := by
    intro hpre
    rcases hx with heq | ⟨hnone, -⟩
    · rw [← Option.isSome_map (f := MfaChallenge.userId), heq, Option.isSome_map]
      exact hpre
    · rw [hnone] at hpre
      cases hpre
  refine ⟨h.once.cons fun hmade y hy hymade => ?_, fun y hy hymade => ?_, fun row hrow => ?_⟩
  · have hsome := h.stays y hy hymade
    rw [hmade.1] at hsome
    cases hsome
  · rcases List.mem_cons.1 hy with rfl | hy
    · exact hymade.2
    · exact hstays (h.stays y hy hymade)
  · rcases hx with heq | ⟨hnone, row', hrow', hc⟩
    · rw [hrow, Option.map_some] at heq
      obtain ⟨row', hrow', howner⟩ := Option.map_eq_some_iff.1 heq.symm
      obtain ⟨y, hy, hymade, hyc⟩ := h.source row' hrow'
      rw [howner] at hyc
      exact ⟨y, List.mem_cons_of_mem _ hy, hymade, hyc⟩
    · obtain rfl := Option.some.inj (hrow.symm.trans hrow')
      exact ⟨x, List.mem_cons_self, ⟨hnone, by rw [hrow]; rfl⟩, hc⟩

section Runs

variable {env : Env} {s₀ : Realm} {tr : List (Step Realm Request)}
  {P : Pool Realm Error Reply Request} {ok : Request → Prop}

theorem sourced_of_run (hempty : s₀.db.mfaChallenges = ∅) (hrun : SignInRun env ok s₀ tr P)
    (id : Uuid) : Sourced id tr P.state := by
  refine hrun.induct ⟨List.Pairwise.nil, by simp, fun row hrow => ?_⟩
    fun later x earlier hsplit ih => ih.step ((did_of_run hrun hsplit).challengeStep id)
  rw [hempty] at hrow
  cases hrow

/-- The row that a `verifyChallenge` found when it began, and where it comes from. -/
theorem verified_source (hempty : s₀.db.mfaChallenges = ∅) (hrun : SignInRun env ok s₀ tr P)
    {i : ℕ} {now : Instant} {userId id : Uuid} {code : String} {scope : ElevationScope}
    {jti : Uuid} {token : Token}
    (hreturned : P.Returned i (.verifyChallenge now userId id code scope jti) (.elevated token)) :
    token = signElevation env.ttl now jti userId scope ∧
    ∃ w row x, begun i tr = some w ∧ w.db.mfaChallenges.lookup id = some row ∧ x ∈ tr ∧
      MadeChallenge id x ∧ x.call.Challenges row.userId := by
  have hvow : Elevated env _ (own i tr) token := vow_of_run hrun hreturned.thread
  generalize hown : own i tr = steps at hvow
  cases hvow with
  | @verified _ _ _ _ _ _ w₁ w₂ row hfound hrow =>
    refine ⟨rfl, w₁, ?_⟩
    obtain ⟨row₁, hrow₁⟩ := Option.isSome_iff_exists.1 hfound
    obtain ⟨later, y, earlier, hsplit, -, hy, -, -⟩ :=
      own_eq_append (show own i tr = [_] ++ _ :: [] from hown)
    obtain ⟨P', hrun', hpre⟩ := hrun.before hsplit
    obtain ⟨rfl, -⟩ := Prod.mk.inj hy
    rw [← hpre] at hrow₁ ⊢
    obtain ⟨x, hx, hmade, hc⟩ := (sourced_of_run hempty hrun' id).source row₁ hrow₁
    refine ⟨row₁, x, ?_, hrow₁, ?_, hmade, hc⟩
    · rw [begun_eq_own, hown, hpre]
      rfl
    · rw [hsplit]
      exact List.mem_append_right _ (List.mem_cons_of_mem _ hx)

/-- **Elevation is earned by its owner, exactly when the request says so.** In every run of sign-in,
code and elevation requests, of a `verifyChallenge` that returned a token (which is for its user and
scope): the challenge it consumed was made by `beginChallenge` for the same user and scope if and only
if the challenge was the user's own when it was presented, and was made neither by a sign-in nor for
another scope. -/
theorem elevation_earned_iff (env : Env) (s₀ : Realm) (hempty : s₀.db.mfaChallenges = ∅)
    (tr : List (Step Realm Request)) (P : Pool Realm Error Reply Request)
    (hrun : SignInRun env (fun _ => True) s₀ tr P) (i : ℕ) (now : Instant) (userId id : Uuid)
    (code : String) (scope : ElevationScope) (jti : Uuid) (token : Token)
    (hreturned : P.Returned i (.verifyChallenge now userId id code scope jti) (.elevated token)) :
    token = signElevation env.ttl now jti userId scope ∧
      (Earned tr userId scope id ↔
        ∀ w, begun i tr = some w → PresentsOwn tr w userId scope id) := by
  obtain ⟨htoken, w, row, x, hbegun, hrow, hx, hmade, hc⟩ := verified_source hempty hrun hreturned
  have honce := (sourced_of_run hempty hrun id).once
  refine ⟨htoken, ?_, fun hown => ?_⟩
  · rintro ⟨y, hy, hymade, helevates⟩
    -- the challenge was made by one step, so all that is asked of its maker is known of `y`
    have hmaker : ∀ z ∈ tr, MadeChallenge id z → z.call.elevates = some (userId, scope) :=
      fun z hz hzmade => by rw [honce.eq hz hy hzmade hymade, helevates]
    have hlogin : ∀ z ∈ tr, MadeChallenge id z → z.call.isLogin = false := by
      intro z hz hzmade
      have hz := hmaker z hz hzmade
      cases hcall : z.call <;> simp_all [Request.elevates, Request.isLogin]
    intro w' hw'
    obtain rfl := Option.some.inj (hbegun.symm.trans hw')
    refine ⟨?_, hlogin, fun z hz hzmade e he => ?_⟩
    · rcases hc with hc | ⟨scope', hc⟩
      · rw [hlogin x hx hmade] at hc
        cases hc
      · rw [hmaker x hx hmade] at hc
        rw [hrow, Option.map_some, ← (Prod.mk.inj (Option.some.inj hc)).1]
    · rw [hmaker z hz hzmade] at he
      rw [← Option.some.inj he]
  · have hpresents := hown w hbegun
    refine ⟨x, hx, hmade, ?_⟩
    rcases hc with hc | ⟨scope', hc⟩
    · rw [hpresents.purpose x hx hmade] at hc
      cases hc
    · have howner := hpresents.owner
      rw [hrow, Option.map_some] at howner
      have hscope : scope' = scope := hpresents.scope x hx hmade _ hc
      rw [hc, Option.some.inj howner, hscope]

end Runs

/-! ## Two samples -/

/-- Ann begins an elevation for a transfer and answers her code. -/
def sampleElevation : List (Choice Request) :=
  [.call (.beginChallenge 0 1 .transferAuthorize ⟨50, "123456", 0⟩), .step 0, .step 0,
    .call (.verifyChallenge 1000 1 50 "123456" .transferAuthorize 51), .step 1, .step 1]

/-- Ann signs in on a new device, and Bob answers the code of her challenge. -/
def sampleBorrowed : List (Choice Request) :=
  [.call (.login 0 "ann@example.com" "ann" "tablet"
      ⟨60, ⟨50, "123456", 0⟩, 61, ⟨62, 63, 64, 65⟩⟩), .step 0, .step 0, .step 0,
    .call (.verifyChallenge 1000 2 50 "123456" .transferAuthorize 51), .step 1, .step 1]

theorem elevation_earned_sample :
    Earned (sampleRequests sampleElevation).1 1 .transferAuthorize 50 ∧
      ∀ w, begun 1 (sampleRequests sampleElevation).1 = some w →
        PresentsOwn (sampleRequests sampleElevation).1 w 1 .transferAuthorize 50 := by
  have hearned : Earned (sampleRequests sampleElevation).1 1 .transferAuthorize 50 := by
    decide +kernel
  exact ⟨hearned, (elevation_earned_iff sampleEnv sampleRealm rfl _ _
    (exec_run sampleElevation fun _ _ => trivial) 1 1000 1 50 "123456" .transferAuthorize 51
    (signElevation sampleEnv.ttl 1000 51 1 .transferAuthorize) (by decide +kernel)).2.1 hearned⟩

/-- A challenge that Ann's sign-in made gives Bob a token for transfers. -/
theorem borrowed_challenge : ¬ ∀ (env : Env) (s₀ : Realm), s₀.db.mfaChallenges = ∅ →
    ∀ (tr : List (Step Realm Request)) (P : Pool Realm Error Reply Request),
      SignInRun env (fun _ => True) s₀ tr P →
      ∀ (i : ℕ) now userId id code scope jti token,
        P.Returned i (.verifyChallenge now userId id code scope jti) (.elevated token) →
        Earned tr userId scope id := by
  intro h
  have hearned := h sampleEnv sampleRealm rfl _ _ (exec_run sampleBorrowed fun _ _ => trivial) 1
    1000 2 50 "123456" .transferAuthorize 51
    (signElevation sampleEnv.ttl 1000 51 2 .transferAuthorize) (by decide +kernel)
  exact absurd hearned (by decide +kernel)

end BankDemo.Identity
