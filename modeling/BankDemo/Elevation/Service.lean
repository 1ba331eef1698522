import BankDemo.Mfa.Service

/-!
# Elevation

`ElevationService`: a signed-in user proves a second factor and gets a token for one scope, which
`ElevationGuard` asks for on the routes it protects. The code travels as in sign-in, through a
challenge of `MfaService`; `verifyChallenge` hands the challenge to `verify` and signs a token for
the caller and the scope of the request.
-/

namespace BankDemo.Identity

open Crypto

section

variable (env : Env) (now : Instant)

/-- `beginChallenge`: the challenge and the scope it was asked for. -/
def beginChallenge (userId : Uuid) (scope : ElevationScope) (d : ChallengeDraws) :
    Handler (Uuid × ElevationScope) := do
  match ← query fun db => db.users.lookup userId with
  | none => throw (.unauthorized "User not found")
  | some _ =>
    let challengeId ← createSmsChallenge env now d userId
    return (challengeId, scope)

/-- `verifyChallenge`. -/
def verifyChallenge (userId challengeId : Uuid) (code : String) (scope : ElevationScope)
    (jti : Uuid) : Handler Token := do
  verifyCode env now (some challengeId) code
  return signElevation env.ttl now jti userId scope

end

/-- `ElevationGuard.canActivate`, on a handler with the scope of its decorator, if it has one. -/
def canActivate (now : Instant) (scope : Option ElevationScope) (header : Option Text)
    (userId : Option Uuid) : Except Error Unit :=
  match scope with
  | none => .ok ()
  | some scope =>
    match header with
    | none => .error (.unauthorized "Elevation required")
    | some token =>
      match verifyToken now token scope with
      | .error e => .error e
      | .ok claims =>
        if claims.sub ≠ userId then .error (.unauthorized "Elevation does not match user")
        else .ok ()

/-- What the guard lets through under a scope: a token that verifies for it, of the user. -/
theorem canActivate_ok {now : Instant} {scope : ElevationScope} {header : Option Text}
    {userId : Option Uuid} (h : canActivate now (some scope) header userId = .ok ()) :
    ∃ token claims, header = some token ∧ verifyToken now token scope = .ok claims ∧
      claims.sub = userId := by
  unfold canActivate at h
  cases header with
  | none => cases h
  | some token =>
    dsimp only at h
    split at h
    · cases h
    · rename_i claims hverify
      split at h
      · cases h
      · rename_i hsub
        exact ⟨token, claims, rfl, hverify, not_not.1 hsub⟩

section Rules

variable {β : Type} {G : List (Realm × Realm) → Prop} {own : List (Realm × Realm)}
  {Q : List (Realm × Realm) → Except Error β → Prop} {env : Env} {now : Instant}

theorem does_beginChallenge [Idle G] {userId : Uuid} {scope : ElevationScope} {d : ChallengeDraws}
    {k : Uuid × ElevationScope → Handler β}
    (hok : ∀ w₁ w₂ : Realm, w₂.db.mfaChallenges.lookup d.id = none →
      G ((w₂, w₂.withChallenge d.id (challengeRow env now d userId)) :: (w₁, w₁) :: own) ∧
      (k (d.id, scope)).Does G Q
        ((w₂, w₂.withChallenge d.id (challengeRow env now d userId)) :: (w₁, w₁) :: own))
    (herr : ∀ later e, Q (later ++ own) (.error e)) :
    (beginChallenge env now userId scope d >>= k).Does G Q own := by
  simp only [beginChallenge, bind_assoc]
  refine does_query fun w₁ => ?_
  cases w₁.db.users.lookup userId with
  | none => exact herr [(w₁, w₁)] _
  | some user =>
    simp only [bind_assoc, pure_bind]
    exact does_createChallenge (fun w₂ hnone => hok w₁ w₂ hnone)
      fun w₂ e => herr [(w₂, w₂), (w₁, w₁)] e

theorem does_verifyChallenge [Idle G] {userId challengeId : Uuid} {code : String}
    {scope : ElevationScope} {jti : Uuid} {k : Token → Handler β}
    (halter : ∀ (w : Realm) (db : Db) own, Altered w.db db → G ((w, { w with db }) :: own))
    (hk : ∀ w₁ w₂ row, (w₁.db.mfaChallenges.lookup challengeId).isSome →
      w₂.db.mfaChallenges.lookup challengeId = some row →
      (k (signElevation env.ttl now jti userId scope)).Does G Q
        ((w₂, w₂.withChallenge challengeId { row with consumedAt := some now }) ::
          (w₁, w₁) :: own))
    (herr : ∀ later e, Q (later ++ own) (.error e)) :
    (verifyChallenge env now userId challengeId code scope jti >>= k).Does G Q own := by
  simp only [verifyChallenge, bind_assoc, pure_bind]
  refine does_verifyCode halter (fun id w₁ w₂ row hid hfound hrow => ?_) herr
  cases hid
  exact hk w₁ w₂ row hfound hrow

end Rules

end BankDemo.Identity
