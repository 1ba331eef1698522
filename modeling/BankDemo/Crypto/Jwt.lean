import BankDemo.Store

/-!
# Tokens

All tokens of the system are JSON Web Tokens under one RS256 key. `JwtCryptoService` signs five
kinds of them and `ElevationService` a sixth; they differ in the claims they carry, and in nothing
else. The text of a token is determined by its payload, so a token stands for its text here, and a
text that was not signed under the key is a `Text.other`. Verification (`verify`) gives back the
claims of a signed token that has not expired, and nothing for any other text.

The three that carry a `purpose` are checked for it when they are verified (`verifyRecovery`,
`verifyGuestSupport`, `verifyToken`); `verifyAccess`, `verifyRefresh` and `verifyMfa` are one
function.
-/

namespace BankDemo.Crypto

/-! ## Claims -/

/-- The values of the claim `purpose`. -/
inductive Purpose
  | passwordReset | guestSupport | elevation
  deriving DecidableEq

/-- What an elevation token authorizes. -/
inductive ElevationScope
  | cardReveal | wireCreate | transferAuthorize | profileEdit | securityManage
  deriving DecidableEq

/-- The payload of a token. A claim that it does not carry is `none`. -/
structure Claims where
  sub : Option Uuid := none
  sid : Option Uuid := none
  role : Option UserRole := none
  fam : Option Uuid := none
  cid : Option Uuid := none
  tid : Option Uuid := none
  purpose : Option Purpose := none
  scope : Option ElevationScope := none
  jti : Uuid
  deriving DecidableEq

/-- A signed token. It expires at a second since the epoch. -/
structure Token where
  claims : Claims
  exp : ℤ
  deriving DecidableEq

/-- What is presented as a token: the text of one, or some other text. -/
inductive Text
  | signed (token : Token)
  | other (text : String)
  deriving DecidableEq

/-- How long tokens are good for, in seconds. -/
structure TokenTtl where
  access : ℤ
  refresh : ℤ
  mfa : ℤ
  recovery : ℤ
  elevation : ℤ

/-- The values used when the environment sets none. -/
def TokenTtl.default : TokenTtl where
  access := 15 * 60
  refresh := 30 * 24 * 60 * 60
  mfa := 5 * 60
  recovery := 15 * 60
  elevation := 5 * 60

/-- The second an instant is in. -/
def seconds (now : Instant) : ℤ := now.fdiv 1000

/-- `jwt.sign` with `expiresIn`. -/
def sign (now : Instant) (ttl : ℤ) (claims : Claims) : Token := ⟨claims, seconds now + ttl⟩

/-- `jwt.verify`. -/
def verify (now : Instant) : Text → Option Claims
  | .signed token => if seconds now < token.exp then some token.claims else none
  | .other _ => none

theorem verify_signed {now : Instant} {text : Text} {claims : Claims}
    (h : verify now text = some claims) :
    ∃ token, text = .signed token ∧ token.claims = claims ∧ seconds now < token.exp := by
  cases text with
  | signed token =>
    simp only [verify] at h
    split at h
    · rename_i hexp
      exact ⟨token, rfl, Option.some.inj h, hexp⟩
    · cases h
  | other text => cases h

/-! ## The kinds of tokens -/

section Sign

variable (ttl : TokenTtl) (now : Instant) (jti : Uuid)

/-- `signAccess`. -/
def signAccess (sub sid : Uuid) (role : Option UserRole) : Token :=
  sign now ttl.access { sub, sid, role, jti }

/-- `signRefresh`. -/
def signRefresh (sub sid fam : Uuid) : Token :=
  sign now ttl.refresh { sub, sid, fam, jti }

/-- `signMfa`. -/
def signMfa (sub cid : Uuid) : Token :=
  sign now ttl.mfa { sub, cid, jti }

/-- `signRecovery`. -/
def signRecovery (sub : Uuid) : Token :=
  sign now ttl.recovery { sub, purpose := some .passwordReset, jti }

/-- `signGuestSupport`: good for 30 days whatever the environment says. -/
def signGuestSupport (threadId : Uuid) : Token :=
  sign now (30 * 24 * 60 * 60) { tid := some threadId, purpose := some .guestSupport, jti }

/-- `ElevationService.signElevation`. -/
def signElevation (userId : Uuid) (scope : ElevationScope) : Token :=
  sign now ttl.elevation { sub := some userId, scope, purpose := some .elevation, jti }

end Sign

/-- `verifyAccess`, `verifyRefresh` and `verifyMfa`: the claims, whatever they are. -/
def verifyAccess : Instant → Text → Option Claims := verify

@[inherit_doc verifyAccess]
def verifyRefresh : Instant → Text → Option Claims := verify

@[inherit_doc verifyAccess]
def verifyMfa : Instant → Text → Option Claims := verify

/-- A token whose purpose is the one wanted. -/
def verifyPurpose (purpose : Purpose) (now : Instant) (text : Text) : Option Claims :=
  (verify now text).filter fun claims => claims.purpose = some purpose

/-- `verifyRecovery`. -/
def verifyRecovery : Instant → Text → Option Claims := verifyPurpose .passwordReset

/-- `verifyGuestSupport`. -/
def verifyGuestSupport : Instant → Text → Option Claims := verifyPurpose .guestSupport

/-- `ElevationService.verifyToken`. -/
def verifyToken (now : Instant) (text : Text) (requiredScope : ElevationScope) :
    Except Error Claims :=
  match verify now text with
  | none => .error (.unauthorized "Invalid elevation token")
  | some claims =>
    if claims.purpose ≠ some .elevation then .error (.unauthorized "Wrong token purpose")
    else if claims.scope ≠ some requiredScope then
      .error (.unauthorized "Elevation scope mismatch")
    else .ok claims

theorem verifyPurpose_eq_some {purpose : Purpose} {now : Instant} {text : Text} {claims : Claims} :
    verifyPurpose purpose now text = some claims ↔
      verify now text = some claims ∧ claims.purpose = some purpose := by
  simp [verifyPurpose, Option.filter_eq_some_iff]

theorem verifyToken_ok {now : Instant} {text : Text} {scope : ElevationScope} {claims : Claims} :
    verifyToken now text scope = .ok claims ↔ verify now text = some claims ∧
      claims.purpose = some .elevation ∧ claims.scope = some scope := by
  unfold verifyToken
  cases hverify : verify now text with
  | none => simp
  | some claims' =>
    simp only [Option.some.injEq]
    constructor
    · intro h
      split at h
      · cases h
      · split at h
        · cases h
        · rename_i hpurpose hscope
          cases h
          exact ⟨rfl, not_not.1 hpurpose, not_not.1 hscope⟩
    · rintro ⟨rfl, hpurpose, hscope⟩
      simp [hpurpose, hscope]

end BankDemo.Crypto
