import BankDemo.Auth.Service
import BankDemo.Properties.RefreshTokens
import BankDemo.Realtime.Gateway

/-!
# What a token is good for

Six kinds of tokens are signed under one key, and each verifier is meant for one kind. The three kinds
with a `purpose` are told apart by it; the others by the claims that a verifier happens to use, and by
what it looks up: `rotateRefresh` by the hash of the token, `mfaVerify` by its challenge, the access
strategy by its session. The socket gateway uses nothing but the signature.

So the gateway takes every token that has not expired, and the access strategy takes a refresh token of
a live session for an access token; there are no other confusions (`purpose_separation_iff`).
-/

namespace BankDemo.Identity

open Crypto

/-- The kinds of tokens. -/
inductive Kind
  | access | refresh | mfa | recovery | guestSupport | elevation
  deriving DecidableEq

/-- The tokens of a kind: what the function that signs them can return. -/
inductive Minted (ttl : TokenTtl) : Kind → Token → Prop
  | access (now : Instant) (jti sub sid : Uuid) (role : Option UserRole) :
      Minted ttl .access (signAccess ttl now jti sub sid role)
  | refresh (now : Instant) (jti sub sid fam : Uuid) :
      Minted ttl .refresh (signRefresh ttl now jti sub sid fam)
  | mfa (now : Instant) (jti sub cid : Uuid) : Minted ttl .mfa (signMfa ttl now jti sub cid)
  | recovery (now : Instant) (jti sub : Uuid) : Minted ttl .recovery (signRecovery ttl now jti sub)
  | guestSupport (now : Instant) (jti threadId : Uuid) :
      Minted ttl .guestSupport (signGuestSupport now jti threadId)
  | elevation (now : Instant) (jti userId : Uuid) (scope : ElevationScope) :
      Minted ttl .elevation (signElevation ttl now jti userId scope)

/-- The kind of a token, from its claims. -/
def kindOf (claims : Claims) : Kind :=
  match claims.purpose with
  | some .passwordReset => .recovery
  | some .guestSupport => .guestSupport
  | some .elevation => .elevation
  | none => if claims.cid.isSome then .mfa else if claims.fam.isSome then .refresh else .access

theorem Minted.kindOf_eq {ttl : TokenTtl} {kind : Kind} {token : Token} (h : Minted ttl kind token) :
    kindOf token.claims = kind := by
  cases h <;> rfl

theorem Minted.sid {ttl : TokenTtl} {kind : Kind} {token : Token} (h : Minted ttl kind token)
    (hsid : token.claims.sid ≠ none) : kind = .access ∨ kind = .refresh := by
  cases h with
  | access => exact .inl rfl
  | refresh => exact .inr rfl
  | mfa => exact (hsid rfl).elim
  | recovery => exact (hsid rfl).elim
  | guestSupport => exact (hsid rfl).elim
  | elevation => exact (hsid rfl).elim

theorem Minted.cid {ttl : TokenTtl} {kind : Kind} {token : Token} (h : Minted ttl kind token)
    (hcid : token.claims.cid ≠ none) : kind = .mfa := by
  cases h with
  | mfa => rfl
  | access => exact (hcid rfl).elim
  | refresh => exact (hcid rfl).elim
  | recovery => exact (hcid rfl).elim
  | guestSupport => exact (hcid rfl).elim
  | elevation => exact (hcid rfl).elim

/-! ## Verifiers -/

/-- Where a token can be presented, with what else the verifier is given. -/
inductive Verifier
  | validate
  | gateway
  | rotateRefresh (accessJti refreshJti : Uuid)
  | mfaVerify (code fingerprint : String) (d : SignInDraws)
  | mfaResend (code : String) (salt : ℕ) (jti : Uuid)
  | verifyRecovery
  | verifyGuestSupport
  | verifyToken (scope : ElevationScope)
  deriving DecidableEq

/-- The kind of token that a verifier is for. -/
def Verifier.kind : Verifier → Kind
  | .validate | .gateway => .access
  | .rotateRefresh _ _ => .refresh
  | .mfaVerify _ _ _ | .mfaResend _ _ _ => .mfa
  | .verifyRecovery => .recovery
  | .verifyGuestSupport => .guestSupport
  | .verifyToken _ => .elevation

/-- The verifier accepts the text in the realm. -/
def Accepts (env : Env) (now : Instant) (text : Text) (w : Realm) : Verifier → Prop
  | .validate => ∃ p, ((validate env now text).run w).1 = .ok p
  | .gateway => ∃ h socket sub, h.guestToken = none ∧ extractToken h = some text ∧
      authenticate now h = some socket ∧ Room.user sub ∈ socket.rooms
  | .rotateRefresh accessJti refreshJti =>
    ∃ r, ((rotateRefresh env now accessJti refreshJti text).run w).1 = .ok r
  | .mfaVerify code fingerprint d => ∃ r, ((mfaVerify env now text code fingerprint d).run w).1 = .ok r
  | .mfaResend code salt jti => ∃ t, ((mfaResend env now text code salt jti).run w).1 = .ok t
  | .verifyRecovery => (verifyRecovery now text).isSome = true
  | .verifyGuestSupport => (verifyGuestSupport now text).isSome = true
  | .verifyToken scope => ∃ claims, verifyToken now text scope = .ok claims

/-- The session of the token is there, unrevoked, unexpired and not idle. -/
def SessionLive (env : Env) (now : Instant) (token : Token) (w : Realm) : Prop :=
  ∃ sid s, token.claims.sid = some sid ∧ w.db.sessions.lookup sid = some s ∧ s.revokedAt = none ∧
    now < s.expiresAt ∧ isIdle s.lastSeenAt env.idleMs now = false

/-- The token is taken for one of another kind: any unexpired token but an access token by the gateway,
and an unexpired refresh token by the access strategy while its session is live. -/
def Confused (env : Env) (now : Instant) (kind : Kind) (token : Token) (w : Realm) : Verifier → Prop
  | .gateway => kind ≠ .access ∧ seconds now < token.exp
  | .validate => kind = .refresh ∧ seconds now < token.exp ∧ SessionLive env now token w
  | _ => False

/-! ## What each verifier accepts -/

section Verifiers

variable {env : Env} {now : Instant} {text : Text} {w : Realm}

theorem verify_signed_iff {token : Token} {claims : Claims} :
    verify now (.signed token) = some claims ↔ seconds now < token.exp ∧ token.claims = claims := by
  simp only [verify]
  split <;> simp_all

/-- The access strategy accepts what is `Valid` only. -/
theorem valid_of_validate {p : Principal} (h : ((validate env now text).run w).1 = .ok p) :
    ∃ claims sid s, Valid env now text w claims sid s := by
  unfold validate at h
  cases hverify : verifyAccess now text with
  | none =>
    rw [hverify] at h
    cases h
  | some claims =>
    rw [hverify] at h
    dsimp only at h
    cases hsid : claims.sid with
    | none =>
      rw [hsid] at h
      cases h
    | some sid =>
      rw [hsid, Prog.run_bind, run_query] at h
      dsimp only at h
      cases hs : w.db.sessions.lookup sid with
      | none =>
        rw [hs] at h
        cases h
      | some s =>
        rw [hs] at h
        dsimp only at h
        split at h
        · cases h
        · rename_i hrevoked
          split at h
          · cases h
          · rename_i hexpired
            split at h
            · rw [Prog.run_bind, run_transaction] at h
              simp only [updateSession, hs] at h
              cases h
            · rename_i hidle
              exact ⟨claims, sid, s, hverify, hsid, hs, by simpa using hrevoked,
                not_le.1 hexpired, by simpa using hidle⟩

theorem validate_of_valid {claims : Claims} {sid : Uuid} {s : Session}
    (h : Valid env now text w claims sid s) : ∃ p, ((validate env now text).run w).1 = .ok p := by
  unfold validate
  rw [h.verified]
  dsimp only
  rw [h.sid_eq, Prog.run_bind, run_query]
  dsimp only
  rw [h.found]
  simp only [h.unrevoked, Option.isSome_none, Bool.false_eq_true, if_false, not_le.2 h.unexpired,
    h.active]
  split
  · rw [Prog.run_bind, run_transaction]
    simp only [updateSession, h.found]
    exact ⟨_, rfl⟩
  · exact ⟨_, rfl⟩

/-- The gateway puts a signed token's socket into the room of a user exactly when the token has not
expired. -/
theorem gateway_accepts {token : Token} :
    Accepts env now (.signed token) w .gateway ↔ seconds now < token.exp := by
  have hpresent : (some (Text.signed token)).filter isPresent = some (.signed token) := rfl
  constructor
  · rintro ⟨h, socket, sub, hguest, htoken, hsocket, hroom⟩
    by_contra hexpired
    have hnone : verifyAccess now (.signed token) = none := if_neg hexpired
    rw [authenticate_token (by rw [hguest]; rfl), htoken, hpresent, Option.bind_some, hnone] at hsocket
    cases hsocket
  · intro hexp
    have hsome : verifyAccess now (.signed token) = some token.claims := if_pos hexp
    refine ⟨{ token := some (.signed token) }, socketOf token.claims, token.claims.sub, rfl, rfl, ?_,
      List.mem_cons_self⟩
    rw [authenticate_token rfl, show extractToken _ = some (Text.signed token) from rfl, hpresent,
      Option.bind_some, hsome]
    rfl

/-- A handler that ends with an error does not succeed. -/
theorem not_ok_of_throw {α β : Type} {p : Handler β} {e : Error} {a : α}
    (h : ((p >>= fun _ => (throw e : Handler α)).run w).1 = .ok a) : False := by
  rw [Prog.run_bind] at h
  cases hp : p.run w with
  | mk r w' =>
    rw [hp] at h
    cases r <;> cases h

/-- A rotation succeeds only with a token that a session is waiting for. -/
theorem waiting_of_rotateRefresh {accessJti refreshJti : Uuid} {r : IssueSessionResult}
    (h : ((rotateRefresh env now accessJti refreshJti text).run w).1 = .ok r) :
    ∃ sid s, w.db.sessions.lookup sid = some s ∧ s.refreshTokenHash = env.sha256 text := by
  unfold rotateRefresh at h
  cases hverify : verifyRefresh now text with
  | none =>
    rw [hverify] at h
    cases h
  | some claims =>
    rw [hverify] at h
    dsimp only at h
    rw [Prog.run_bind, run_query] at h
    dsimp only at h
    cases haudit : w.db.refreshTokenAudits.lookup (env.sha256 text) with
    | some replay =>
      rw [haudit] at h
      exact (not_ok_of_throw h).elim
    | none =>
      rw [haudit] at h
      dsimp only at h
      rw [Prog.run_bind, run_query] at h
      dsimp only at h
      cases hfind : w.db.sessions.findRow fun s => s.refreshTokenHash = env.sha256 text with
      | none =>
        rw [hfind] at h
        simp only [Option.map_none, rejectRefresh] at h
        cases hfam : claims.fam with
        | none =>
          rw [hfam] at h
          cases h
        | some fam =>
          rw [hfam] at h
          exact (not_ok_of_throw h).elim
      | some found =>
        obtain ⟨hs, hhash⟩ := Table.findRow_some hfind
        exact ⟨found.1, found.2, hs, by simpa using hhash⟩

/-- A sign-in is completed only with a token that names a challenge. -/
theorem cid_of_mfaVerify {token : Token} {code fingerprint : String} {d : SignInDraws}
    {r : IssueSessionResult}
    (h : ((mfaVerify env now (.signed token) code fingerprint d).run w).1 = .ok r) :
    token.claims.cid ≠ none := by
  intro hcid
  unfold mfaVerify at h
  cases hverify : verifyMfa now (.signed token) with
  | none =>
    rw [hverify] at h
    cases h
  | some claims =>
    obtain ⟨-, rfl⟩ := verify_signed_iff.1 hverify
    rw [hverify] at h
    dsimp only at h
    rw [hcid] at h
    cases h

theorem cid_of_mfaResend {token : Token} {code : String} {salt : ℕ} {jti : Uuid} {t : Token}
    (h : ((mfaResend env now (.signed token) code salt jti).run w).1 = .ok t) :
    token.claims.cid ≠ none := by
  intro hcid
  unfold mfaResend at h
  cases hverify : verifyMfa now (.signed token) with
  | none =>
    rw [hverify] at h
    cases h
  | some claims =>
    obtain ⟨-, rfl⟩ := verify_signed_iff.1 hverify
    rw [hverify] at h
    dsimp only at h
    cases hsub : token.claims.sub with
    | none =>
      rw [hsub] at h
      cases h
    | some sub =>
      rw [hsub, Prog.run_bind, run_query] at h
      dsimp only at h
      cases hu : w.db.users.lookup sub with
      | none =>
        rw [hu] at h
        cases h
      | some user =>
        rw [hu, hcid] at h
        cases h

theorem kind_of_verifyPurpose {kind : Kind} {token : Token} (hminted : Minted env.ttl kind token)
    {purpose : Purpose} (h : (verifyPurpose purpose now (.signed token)).isSome = true) :
    kind = kindOf { purpose := some purpose, jti := 0 } := by
  obtain ⟨claims, hclaims⟩ := Option.isSome_iff_exists.1 h
  obtain ⟨hverify, hpurpose⟩ := verifyPurpose_eq_some.1 hclaims
  obtain ⟨-, rfl⟩ := verify_signed_iff.1 hverify
  rw [← hminted.kindOf_eq]
  unfold kindOf
  rw [hpurpose]
  cases purpose <;> rfl

end Verifiers

/-! ## The hashes of sessions -/

section Runs

variable {env : Env} {s₀ : Realm} {tr : List (Step Realm Call)} {P : Pool Realm Error Answer Call}

/-- The hash of a session is that of a refresh token of the run. -/
theorem hashed_of_run {ok : Call → Prop} (hnone : s₀.db.sessions = ∅)
    (hrun : SessionRun env ok s₀ tr P) : ∀ id s, P.state.db.sessions.lookup id = some s →
      ∃ token ∈ issuedTokens env tr, Minted env.ttl .refresh token ∧
        s.refreshTokenHash = env.sha256 (.signed token) := by
  refine hrun.induct (I := fun tr w => ∀ id s, w.db.sessions.lookup id = some s →
    ∃ token ∈ issuedTokens env tr, Minted env.ttl .refresh token ∧
      s.refreshTokenHash = env.sha256 (.signed token)) ?_ ?_
  · intro id s hs
    rw [hnone] at hs
    cases hs
  · intro later x earlier hsplit ih id s' hs'
    rcases (took_of_run hrun hsplit).session hs' with
      ⟨now, ids, input, hc, -, rfl, rfl, -⟩ |
      ⟨now, accessJti, refreshJti, presented, w₁, w₂, read, s, hc, hown, hfound, -, -, -, rfl⟩ |
      ⟨s, hs, hkept⟩
    · refine ⟨_, mints_mem List.mem_cons_self ?_, .refresh .., rfl⟩
      rw [hc]
      exact List.mem_singleton_self _
    · exact ⟨_, (rotated_issued hrun hsplit hc hown hfound).2, .refresh .., rfl⟩
    · obtain ⟨token, htoken, hminted, hhash⟩ := ih id s hs
      exact ⟨token, issuedTokens_cons htoken, hminted, hkept.refreshTokenHash.trans hhash⟩

/-- **Tokens are good for their own purpose, but for two confusions.** In every state that session
calls can reach, and for every token that is signed and every verifier: the verifier accepts the token
only if it is for tokens of that kind, if and only if the token is not `Confused` there, provided that
no refresh token of the run has the digest of another token. -/
theorem purpose_separation_iff (env : Env) (s₀ : Realm) (hnone : s₀.db.sessions = ∅)
    (tr : List (Step Realm Call)) (P : Pool Realm Error Answer Call)
    (hrun : SessionRun env (fun _ => True) s₀ tr P) (kind : Kind) (token : Token)
    (hminted : Minted env.ttl kind token)
    (hsha : ∀ t ∈ issuedTokens env tr,
      env.sha256 (.signed t) = env.sha256 (.signed token) → t = token)
    (v : Verifier) (now : Instant) :
    (Accepts env now (.signed token) P.state v → v.kind = kind) ↔
      ¬ Confused env now kind token P.state v := by
  constructor
  · intro h hconfused
    cases v with
    | gateway =>
      obtain ⟨hkind, hexp⟩ := hconfused
      exact hkind (h (gateway_accepts.2 hexp)).symm
    | validate =>
      obtain ⟨rfl, hexp, sid, s, hsid, hs, hrevoked, hexpires, hidle⟩ := hconfused
      have hkind := h (validate_of_valid
        ⟨verify_signed_iff.2 ⟨hexp, rfl⟩, hsid, hs, hrevoked, hexpires, hidle⟩)
      cases hkind
    | _ => exact hconfused
  · intro hconfused haccepts
    cases v with
    | gateway =>
      by_contra hkind
      exact hconfused ⟨fun h => hkind h.symm, gateway_accepts.1 haccepts⟩
    | validate =>
      obtain ⟨p, hp⟩ := haccepts
      obtain ⟨claims, sid, s, hvalid⟩ := valid_of_validate hp
      obtain ⟨hexp, rfl⟩ := verify_signed_iff.1 hvalid.verified
      rcases hminted.sid (by rw [hvalid.sid_eq]; simp) with rfl | rfl
      · rfl
      · exact (hconfused ⟨rfl, hexp, sid, s, hvalid.sid_eq, hvalid.found, hvalid.unrevoked,
          hvalid.unexpired, hvalid.active⟩).elim
    | rotateRefresh accessJti refreshJti =>
      obtain ⟨r, hr⟩ := haccepts
      obtain ⟨sid, s, hs, hhash⟩ := waiting_of_rotateRefresh hr
      obtain ⟨t, ht, hrefresh, hthash⟩ := hashed_of_run hnone hrun sid s hs
      obtain rfl := hsha t ht (hthash.symm.trans hhash)
      exact hrefresh.kindOf_eq.symm.trans hminted.kindOf_eq
    | mfaVerify code fingerprint d =>
      obtain ⟨r, hr⟩ := haccepts
      exact (hminted.cid (cid_of_mfaVerify hr)).symm
    | mfaResend code salt jti =>
      obtain ⟨t, ht⟩ := haccepts
      exact (hminted.cid (cid_of_mfaResend ht)).symm
    | verifyRecovery => exact (kind_of_verifyPurpose hminted haccepts).symm
    | verifyGuestSupport => exact (kind_of_verifyPurpose hminted haccepts).symm
    | verifyToken scope =>
      obtain ⟨claims, hclaims⟩ := haccepts
      obtain ⟨hverify, hpurpose, -⟩ := verifyToken_ok.1 hclaims
      exact (kind_of_verifyPurpose hminted
        (by rw [verifyPurpose_eq_some.2 ⟨hverify, hpurpose⟩]; rfl)).symm

end Runs

/-! ## Two samples -/

/-- The run in which Ann signs in. -/
def sampleSignedIn : List (Step Realm Call) × Pool Realm Error Answer Call :=
  exec (fun _ => handle sampleEnv) sampleRealm [.call (sampleIssue 100), .step 0]

theorem sampleSignedIn_run :
    SessionRun sampleEnv (fun _ => True) sampleRealm sampleSignedIn.1 sampleSignedIn.2 :=
  exec_run _ fun _ _ => trivial

/-- Her access token is good for requests and not for a rotation. -/
theorem purpose_separation_sample :
    Accepts sampleEnv 1000 (sampleAccess 100) sampleSignedIn.2.state .validate ∧
      ¬ Accepts sampleEnv 1000 (sampleAccess 100) sampleSignedIn.2.state
        (.rotateRefresh 110 111) := by
  refine ⟨⟨⟨some 1, some 100, some .customer⟩, by decide +kernel⟩, fun haccepts => ?_⟩
  have hkind := (purpose_separation_iff sampleEnv sampleRealm rfl _ _ sampleSignedIn_run .access _
    (.access 0 102 1 100 (some .customer)) (by decide +kernel) (.rotateRefresh 110 111) 1000).2
    (fun hconfused => hconfused) haccepts
  cases hkind

/-- Her refresh token is good for requests. -/
theorem refresh_token_as_access : ¬ ∀ (env : Env) (s₀ : Realm), s₀.db.sessions = ∅ →
    ∀ (tr : List (Step Realm Call)) (P : Pool Realm Error Answer Call),
      SessionRun env (fun _ => True) s₀ tr P →
      ∀ kind token, Minted env.ttl kind token →
        (∀ t ∈ issuedTokens env tr,
          env.sha256 (.signed t) = env.sha256 (.signed token) → t = token) →
        ∀ v now, Accepts env now (.signed token) P.state v → v.kind = kind := by
  intro h
  have hkind := h sampleEnv sampleRealm rfl _ _ sampleSignedIn_run .refresh _
    (.refresh 0 103 1 100 101) (by decide +kernel) .validate 1000
    ⟨⟨some 1, some 100, none⟩, by decide +kernel⟩
  cases hkind

end BankDemo.Identity
