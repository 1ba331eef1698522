import BankDemo.Auth.PasswordReset
import BankDemo.Sessions.Calls

/-!
# How often a proof of recovery is good

A recovery token is good until it expires: `reset` keeps no record of a token, and does not ask when the
password was changed. `verify` reads a challenge and consumes it in two statements, and `request`
supersedes the open challenges and creates one in two.

The trace is watched for the tokens that are issued and the passwords that are changed (`log`). Where a
reset gets past its checks only with a token that is not spent, and calls keep apart, every password is
changed by a token that is not spent, a code leads to one change, and a user has one open challenge
(`proofs_spent_once`). A run keeps two things: what the calls of `reset` under way know of their tokens
(`Guarded`), and what those of `request` know of the challenges (`Orderly`).
-/

namespace BankDemo.PasswordReset

open Crypto

/-! ## What the calls do -/

section

variable (env : Env)

/-- The challenge that `verify` compares its code with, and finds it right. -/
def Desk.matched (s : Desk) (email code : String) : Option (Uuid × Challenge) :=
  (s.newest env email).filter fun e => !(e.2.expiresAt < s.now) && !(env.maxAttempts ≤ e.2.attempts) &&
    env.argonVerify e.2.codeHash code

/-- The user whose password `reset` goes on to change. -/
def Desk.admitted (s : Desk) (token : Text) (newPassword : String) : Option Uuid :=
  ((verifyRecovery s.now token).bind Claims.sub).filter fun userId =>
    (s.realm.db.users.lookup userId).isSome && !(JsString.length newPassword < 8)

/-- The desk with a challenge in the place of another, or beside the others. -/
def Desk.withChallenge (s : Desk) (id : Uuid) (c : Challenge) : Desk :=
  { s with challenges := s.challenges.insert id c }

/-- The desk with another row of a user. -/
def Desk.withUser (s : Desk) (userId : Uuid) (user : Identity.User) : Desk :=
  { s with realm := { s.realm with db := { s.realm.db with
      users := s.realm.db.users.insert userId user } } }

/-- The steps that a call can take. -/
inductive Took : Call → List (Desk × Desk) → Prop
  | asked {email : String} {id : Uuid} {code : String} {salt : ℕ} {s : Desk} :
      Took (.request email id code salt) [(s, s)]
  | superseded {email : String} {id : Uuid} {code : String} {salt : ℕ} {s₁ s₂ : Desk} {userId : Uuid}
      {user : Identity.User} (hfound : s₁.found env email = some (userId, user)) :
      Took (.request email id code salt)
        [(s₂, s₂.superseded userId (env.hashEmail (address env email))), (s₁, s₁)]
  | created {email : String} {id : Uuid} {code : String} {salt : ℕ} {s₁ s₂ s₂' s₃ : Desk} {userId : Uuid}
      {user : Identity.User} (hfound : s₁.found env email = some (userId, user))
      (hnew : s₃.challenges.lookup id = none) : Took (.request email id code salt)
        [(s₃, s₃.withChallenge id (s₃.newChallenge env userId email code salt)), (s₂, s₂'), (s₁, s₁)]
  | refused {email : String} {id : Uuid} {code : String} {salt : ℕ} {s₁ s₂ s₂' s₃ : Desk} :
      Took (.request email id code salt) [(s₃, s₃), (s₂, s₂'), (s₁, s₁)]
  | looked {email code : String} {jti : Uuid} {s : Desk} : Took (.verify email code jti) [(s, s)]
  | consumed {email code : String} {jti : Uuid} {s₁ s₂ : Desk} {k : Uuid} {c row : Challenge}
      (hmatched : s₁.matched env email code = some (k, c)) (hrow : s₂.challenges.lookup k = some row) :
      Took (.verify email code jti)
        [(s₂, s₂.withChallenge k { row with consumedAt := some s₂.now }), (s₁, s₁)]
  | missed {email code : String} {jti : Uuid} {s₁ s₂ : Desk} {k : Uuid} {row : Challenge}
      (hmatched : s₁.matched env email code = none) (hrow : s₂.challenges.lookup k = some row) :
      Took (.verify email code jti)
        [(s₂, s₂.withChallenge k { row with attempts := row.attempts + 1 }), (s₁, s₁)]
  | gone {email code : String} {jti : Uuid} {s₁ s₂ : Desk}
      (hgone : ∀ k c, s₁.matched env email code = some (k, c) → s₂.challenges.lookup k = none) :
      Took (.verify email code jti) [(s₂, s₂), (s₁, s₁)]
  | checked {token : Text} {newPassword : String} {salt : ℕ} {s : Desk} :
      Took (.reset token newPassword salt) [(s, s)]
  | changed {token : Text} {newPassword : String} {salt : ℕ} {s₁ s₂ : Desk} {userId : Uuid}
      {user : Identity.User} (hadmitted : s₁.admitted token newPassword = some userId)
      (hrow : s₂.realm.db.users.lookup userId = some user) :
      Took (.reset token newPassword salt) [(s₂, s₂.withUser userId
        { user with passwordHash := env.argonHash salt newPassword }), (s₁, s₁)]
  | vanished {token : Text} {newPassword : String} {salt : ℕ} {s₁ s₂ : Desk} {userId : Uuid}
      (hadmitted : s₁.admitted token newPassword = some userId)
      (hrow : s₂.realm.db.users.lookup userId = none) :
      Took (.reset token newPassword salt) [(s₂, s₂), (s₁, s₁)]
  | revoked {token : Text} {newPassword : String} {salt : ℕ} {s s' : Desk} {own : List (Desk × Desk)}
      (hlater : 2 ≤ own.length) (husers : s'.realm.db.users = s.realm.db.users)
      (hchallenges : s'.challenges = s.challenges) :
      Took (.reset token newPassword salt) ((s, s') :: own)
  | waited {ms : ℕ} {s : Desk} : Took (.wait ms) [(s, s.later ms)]

end

variable {env : Env}

theorem does_statement {α β : Type} {c : Call} {f : Desk → Except Error Desk} {a : Desk → α}
    {k : α → Handler β} {own : List (Desk × Desk)}
    (hok : ∀ s s', f s = .ok s' → Took env c ((s, s') :: own) ∧
      (k (a s)).Does (Took env c) (fun _ _ => True) ((s, s') :: own))
    (herr : ∀ s e, f s = .error e → Took env c ((s, s) :: own)) :
    (statement f a >>= k).Does (Took env c) (fun _ _ => True) own := by
  refine Prog.does_bind (Prog.does_attempt (fun s b s' _ hb => ?_) fun s e _ hb => ?_)
  · cases hf : f s with
    | error e => simp [hf, Except.map] at hb
    | ok s'' =>
      simp only [hf, Except.map, Except.ok.injEq, Prod.mk.injEq] at hb
      obtain ⟨rfl, rfl⟩ := hb
      exact hok s s'' hf
  · cases hf : f s with
    | error e' => exact ⟨herr s e' hf, trivial⟩
    | ok s'' => simp [hf, Except.map] at hb

theorem updated_ok {s s' : Desk} {id : Uuid} {f : Challenge → Challenge} (h : s.updated id f = .ok s') :
    ∃ c, s.challenges.lookup id = some c ∧ s' = s.withChallenge id (f c) := by
  unfold Desk.updated at h
  split at h
  · cases h
  · rename_i c hc
    cases h
    exact ⟨c, hc, rfl⟩

theorem updated_error {s : Desk} {id : Uuid} {f : Challenge → Challenge} {e : Error}
    (h : s.updated id f = .error e) : s.challenges.lookup id = none := by
  unfold Desk.updated at h
  split at h
  · rename_i hnone
    exact hnone
  · cases h

/-- The users and the challenges are the same. -/
def SameProofs (s s' : Desk) : Prop :=
  s'.realm.db.users = s.realm.db.users ∧ s'.challenges = s.challenges

/-- Revocations are about the sessions only. -/
theorem each_revokeAllOther (now : Instant) (userId currentSessionId : Uuid)
    (reason : Identity.SessionRevokedReason) :
    (Identity.revokeAllOther now userId currentSessionId reason).Each
      fun w w' => w'.db.users = w.db.users := by
  unfold Identity.revokeAllOther Identity.revokeWhere
  refine Prog.each_bind (Prog.each_read _ fun w => rfl) fun found => ?_
  split
  · exact Prog.each_pure _
  · refine Prog.each_bind (Prog.each_attempt (fun w => rfl) fun w r hr => ?_) fun _ => ?_
    · cases hr
      rfl
    · refine Prog.each_bind ?_ fun _ => Prog.each_pure _
      have hmute := Identity.mute_forM (fun s : Uuid × Identity.Session =>
        Identity.mute_emitRevoked s.2.userId s.1 reason) found
      exact hmute.1.imp fun w w' hdb => by rw [hdb]

theorem request_does (email : String) (id : Uuid) (code : String) (salt : ℕ) :
    (handle env (.request email id code salt)).Does (Took env (.request email id code salt))
      (fun _ _ => True) [] := by
  simp only [handle, request, bind_assoc]
  refine Prog.does_bind (Prog.does_read fun s₁ => ⟨.asked, ?_⟩)
  dsimp only
  cases hfound : s₁.found env email with
  | none => exact trivial
  | some e =>
    dsimp only
    rw [bind_assoc]
    refine Prog.does_bind (Prog.does_modify fun s₂ _ => ⟨.superseded hfound, ?_⟩)
    refine does_statement (fun s₃ s' hs' => ?_) fun s₃ e' _ => .refused
    unfold Desk.created at hs'
    split at hs'
    · cases hs'
    · rename_i hnew
      split at hs'
      · cases hs'
      · cases hs'
        exact ⟨.created hfound (Option.not_isSome_iff_eq_none.1 hnew), trivial⟩

theorem verify_does (email code : String) (jti : Uuid) :
    (handle env (.verify email code jti)).Does (Took env (.verify email code jti))
      (fun _ _ => True) [] := by
  simp only [handle, verify, bind_assoc]
  refine Prog.does_bind (Prog.does_read fun s₁ => ⟨.looked, ?_⟩)
  dsimp only
  cases hnewest : s₁.newest env email with
  | none => exact trivial
  | some e =>
    obtain ⟨k, c⟩ := e
    dsimp only
    split
    · exact trivial
    · rename_i hexpired
      split
      · exact trivial
      · rename_i hattempts
        split
        · rename_i hright
          have hmatched : s₁.matched env email code = some (k, c) := by
            simp [Desk.matched, hnewest, Option.filter, hexpired, hattempts, hright]
          refine does_statement (fun s₂ s' hs' => ?_) fun s₂ e hs' => .gone fun k' c' hk' => ?_
          · obtain ⟨row, hrow, rfl⟩ := updated_ok hs'
            exact ⟨.consumed hmatched hrow, trivial⟩
          · rw [hmatched] at hk'
            cases hk'
            exact updated_error hs'
        · rename_i hwrong
          have hmatched : s₁.matched env email code = none := by
            simp [Desk.matched, hnewest, Option.filter, hwrong]
          rw [bind_assoc]
          refine does_statement (fun s₂ s' hs' => ?_) fun s₂ e hs' => .gone fun k' c' hk' => ?_
          · obtain ⟨row, hrow, rfl⟩ := updated_ok hs'
            exact ⟨.missed hmatched hrow, trivial⟩
          · rw [hmatched] at hk'
            cases hk'

theorem reset_does (token : Text) (newPassword : String) (salt : ℕ) :
    (handle env (.reset token newPassword salt)).Does (Took env (.reset token newPassword salt))
      (fun _ _ => True) [] := by
  simp only [handle, reset, bind_assoc]
  refine Prog.does_bind (Prog.does_read fun s₁ => ⟨.checked, ?_⟩)
  dsimp only
  cases hclaims : verifyRecovery s₁.now token with
  | none => exact trivial
  | some claims =>
    dsimp only
    cases hsub : claims.sub with
    | none => exact trivial
    | some userId =>
      dsimp only
      split
      · exact trivial
      · rename_i hthere
        split
        · exact trivial
        · rename_i hlong
          have hadmitted : s₁.admitted token newPassword = some userId := by
            simp [Desk.admitted, hclaims, hsub, Option.filter, hlong, Option.isSome_iff_ne_none,
              Option.isNone_iff_eq_none] at hthere ⊢
            exact hthere
          rw [bind_assoc]
          refine does_statement (fun s₂ s' hs' => ?_) fun s₂ e hs' => ?_
          · unfold Desk.withPassword at hs'
            split at hs'
            · cases hs'
            · rename_i user hrow
              cases hs'
              refine ⟨.changed hadmitted hrow, ?_⟩
              rw [← bind_pure (_ >>= _)]
              refine Prog.Each.does_bind (P := SameProofs) ?_
                (fun s s' later hsame => .revoked (by simp) hsame.1 hsame.2)
                (fun _ _ _ => trivial) fun _ _ => trivial
              refine Prog.each_bind (Prog.each_bind (Prog.each_read _ fun s => ⟨rfl, rfl⟩)
                fun now => ?_) fun _ => Prog.each_pure _
              refine Prog.each_bind ?_ fun _ => Prog.each_pure _
              exact (each_revokeAllOther now userId nilUuid .passwordChanged).zoom
                fun w s husers => ⟨husers, rfl⟩
          · unfold Desk.withPassword at hs'
            split at hs'
            · rename_i hrow
              exact .vanished hadmitted hrow
            · cases hs'

theorem call_does (c : Call) : (handle env c).Does (Took env c) (fun _ _ => True) [] := by
  cases c with
  | request email id code salt => exact request_does email id code salt
  | verify email code jti => exact verify_does email code jti
  | reset token newPassword salt => exact reset_does token newPassword salt
  | wait ms =>
    exact Prog.does_bind (Prog.does_modify fun s _ => ⟨.waited, trivial⟩)

/-! ## Watching the proofs -/

/-- What happens to proofs of recovery. -/
inductive Event
  /-- a token was signed for the code of the challenge -/
  | issued (challenge : Uuid) (token : Token)
  /-- the password of the user was changed under the token -/
  | changed (userId : Uuid) (token : Text)
  deriving DecidableEq

/-- The event of the next step of a call, from `s`. -/
def eventOf (env : Env) : Call → List (Desk × Desk) → Desk → Option Event
  | .verify email code jti, [(s₁, _)], s =>
    (s₁.matched env email code).bind fun e => (s.challenges.lookup e.1).map fun _ =>
      .issued e.1 (signRecovery env.ttl s.now jti e.2.userId)
  | .reset token newPassword _, [(s₁, _)], s =>
    (s₁.admitted token newPassword).bind fun userId => (s.realm.db.users.lookup userId).map fun _ =>
      .changed userId token
  | _, _, _ => none

/-- The events of a run, the newest first. -/
def log (env : Env) : List (Step Desk Call) → List Event
  | [] => []
  | x :: earlier => (eventOf env x.call (own x.tid earlier) x.pre).toList ++ log env earlier

/-- The token was issued. -/
def issuedIn (token : Text) (events : List Event) : Bool :=
  events.any fun e => match e with
    | .issued _ t => .signed t = token
    | .changed _ _ => false

/-- The token was issued for the code of the challenge. -/
def issuedFor (k : Uuid) (token : Text) (events : List Event) : Bool :=
  events.any fun e => match e with
    | .issued k' t => k' = k && .signed t = token
    | .changed _ _ => false

/-- The token is spent: it was used, or it was issued before a change of the password of the user. -/
def spent (userId : Uuid) (token : Text) : List Event → Bool
  | [] => false
  | .issued _ _ :: before => spent userId token before
  | .changed u t :: before => t = token || (u = userId && issuedIn token before) ||
      spent userId token before

/-- Every change of a password was under a token that was not spent. -/
def Unspent : List Event → Prop
  | [] => True
  | .issued _ _ :: before => Unspent before
  | .changed u t :: before => spent u t before = false ∧ Unspent before

/-- How many changes of a password the code of a challenge led to. -/
def changesBy (k : Uuid) : List Event → ℕ
  | [] => 0
  | .issued _ _ :: before => changesBy k before
  | .changed _ t :: before => changesBy k before + if issuedFor k t before then 1 else 0

/-- Where a call is. -/
inductive Phase
  /-- it asks for a code for the user, and has superseded nothing yet -/
  | asked (userId : Uuid) (emailHash : String)
  /-- it has superseded the open challenges of the user, and has still to create one -/
  | creating (userId : Uuid) (emailHash : String)
  /-- it has checked the token, and has still to change the password -/
  | resetting (userId : Uuid) (token : Text)
  deriving DecidableEq

/-- Where a call is by its steps, while it is under way. -/
def phaseOf (env : Env) : Call → List (Desk × Desk) → Option Phase
  | .request email _ _ _, [(s₁, _)] =>
    (s₁.found env email).map fun e => .asked e.1 (env.hashEmail (address env email))
  | .request email _ _ _, [_, (s₁, _)] =>
    (s₁.found env email).map fun e => .creating e.1 (env.hashEmail (address env email))
  | .reset token newPassword _, [(s₁, _)] =>
    (s₁.admitted token newPassword).map fun userId => .resetting userId token
  | _, _ => none

/-- The call is one that changes the password of the user. -/
def Phase.resets (userId : Uuid) : Phase → Bool
  | .resetting u _ => u = userId
  | _ => false

/-- The call is one that creates a challenge for the user. -/
def Phase.creates (userId : Uuid) : Phase → Bool
  | .creating u _ => u = userId
  | _ => false

/-- The next step of a call keeps apart from the calls under way: `reset` gets past its checks with a
token that is not spent, while no other changes the password; `verify` consumes a challenge that no other
has consumed; `request` supersedes the challenges of a user while no other has still to create one. -/
def keepsApart (env : Env) (busy : List (ℕ × Phase)) (events : List Event) (c : Call)
    (own : List (Desk × Desk)) (s : Desk) : Bool :=
  match c, own with
  | .reset token newPassword _, [] => ∀ userId ∈ s.admitted token newPassword,
      spent userId token events = false ∧ ∀ e ∈ busy, e.2.resets userId = false
  | .verify email code _, [(s₁, _)] => ∀ e ∈ s₁.matched env email code,
      ∀ row ∈ s.challenges.lookup e.1, row.consumedAt = none
  | .request email _ _ _, [(s₁, _)] => ∀ e ∈ s₁.found env email, ∀ e' ∈ busy, e'.2.creates e.1 = false
  | _, _ => true

/-- Every step keeps apart. -/
def Apart (env : Env) (_ : List (Step Desk Call)) (x : Step Desk Call)
    (earlier : List (Step Desk Call)) : Prop :=
  keepsApart env (underWay (phaseOf env) earlier) (log env earlier) x.call (own x.tid earlier) x.pre =
    true

instance (env : Env) (later : List (Step Desk Call)) (x : Step Desk Call)
    (earlier : List (Step Desk Call)) : Decidable (Apart env later x earlier) :=
  inferInstanceAs (Decidable (_ = true))

/-! ## Events -/

/-- The events say that the challenge led to a token once. -/
def Event.challenge : Event → Option Uuid
  | .issued k _ => some k
  | .changed _ _ => none

theorem issuedFor_spec {k : Uuid} {token : Text} {events : List Event} :
    issuedFor k token events = true ↔ ∃ t, .issued k t ∈ events ∧ token = .signed t := by
  unfold issuedFor
  rw [List.any_eq_true]
  constructor
  · rintro ⟨e, he, hmatch⟩
    cases e with
    | issued k' t =>
      simp only [Bool.and_eq_true, decide_eq_true_eq] at hmatch
      obtain ⟨rfl, rfl⟩ := hmatch
      exact ⟨t, he, rfl⟩
    | changed u t => cases hmatch
  · rintro ⟨t, ht, rfl⟩
    exact ⟨_, ht, by simp⟩

/-- A token that has changed a password is spent. -/
theorem spent_of_changed {u u' : Uuid} {token : Text} {events : List Event}
    (h : .changed u' token ∈ events) : spent u token events = true := by
  induction events with
  | nil => cases h
  | cons e before ih =>
    rcases List.mem_cons.1 h with rfl | hbefore
    · simp [spent]
    · cases e with
      | issued k t => exact ih hbefore
      | changed v t => simp [spent, ih hbefore]

/-- The code of a challenge led to one token. -/
theorem issued_unique {events : List Event} (honce : (events.filterMap Event.challenge).Nodup)
    {k : Uuid} {t t' : Token} (ht : .issued k t ∈ events) (ht' : .issued k t' ∈ events) : t = t' := by
  induction events with
  | nil => cases ht
  | cons e before ih =>
    cases e with
    | issued k' s =>
      obtain ⟨hnew, hrest⟩ := List.nodup_cons.1 honce
      have hnot : ∀ s', .issued k' s' ∉ before := fun s' hs' =>
        hnew (List.mem_filterMap.2 ⟨_, hs', rfl⟩)
      rcases List.mem_cons.1 ht with heq | hbefore
      · cases heq
        rcases List.mem_cons.1 ht' with heq' | hbefore'
        · cases heq'
          rfl
        · exact (hnot t' hbefore').elim
      · rcases List.mem_cons.1 ht' with heq' | hbefore'
        · cases heq'
          exact (hnot t hbefore).elim
        · exact ih hrest hbefore hbefore'
    | changed u token =>
      refine ih honce ?_ ?_
      · simpa using ht
      · simpa using ht'

/-- A challenge that led to a change led to a token that was used. -/
theorem changed_of_changesBy {k : Uuid} {events : List Event} (h : changesBy k events ≠ 0) :
    ∃ u token, .changed u token ∈ events ∧ issuedFor k token events = true := by
  induction events with
  | nil => exact absurd rfl h
  | cons e before ih =>
    have hmore : ∀ token, issuedFor k token before = true → issuedFor k token (e :: before) = true := by
      intro token htoken
      obtain ⟨t, ht, heq⟩ := issuedFor_spec.1 htoken
      exact issuedFor_spec.2 ⟨t, List.mem_cons_of_mem _ ht, heq⟩
    have hold : changesBy k before ≠ 0 →
        ∃ u token, .changed u token ∈ e :: before ∧ issuedFor k token (e :: before) = true := by
      intro hbefore
      obtain ⟨u, token, hmem, hissued⟩ := ih hbefore
      exact ⟨u, token, List.mem_cons_of_mem _ hmem, hmore token hissued⟩
    cases e with
    | issued k' t => exact hold h
    | changed v t =>
      by_cases hissued : issuedFor k t before = true
      · exact ⟨v, t, List.mem_cons_self, hmore t hissued⟩
      · simp only [changesBy, if_neg hissued, add_zero] at h
        exact hold h

/-- A challenge that led to one token led to one change, where no token was used that is spent. -/
theorem changesBy_le_one {events : List Event} (hunspent : Unspent events)
    (honce : (events.filterMap Event.challenge).Nodup) (k : Uuid) : changesBy k events ≤ 1 := by
  induction events with
  | nil => exact Nat.zero_le 1
  | cons e before ih =>
    cases e with
    | issued k' t => exact ih hunspent (List.nodup_cons.1 honce).2
    | changed u token =>
      by_cases hissued : issuedFor k token before = true
      · simp only [changesBy, if_pos hissued]
        have hzero : changesBy k before = 0 := by
          by_contra hne
          obtain ⟨u', token', hmem, hissued'⟩ := changed_of_changesBy hne
          obtain ⟨t, ht, rfl⟩ := issuedFor_spec.1 hissued
          obtain ⟨t', ht', rfl⟩ := issuedFor_spec.1 hissued'
          have hbefore : (before.filterMap Event.challenge).Nodup := honce
          obtain rfl := issued_unique hbefore ht ht'
          have hspent := spent_of_changed (u := u) hmem
          rw [hunspent.1] at hspent
          cases hspent
        omega
      · simp only [changesBy, if_neg hissued, add_zero]
        exact ih hunspent.2 honce

/-! ## What the calls know of their tokens -/

/-- The user that a token is for. -/
def subject : Text → Option Uuid
  | .signed token => token.claims.sub
  | .other _ => none

/-- What the calls of `reset` under way, the events and the challenges have to do with each other. -/
structure Guarded (busy : List (ℕ × Phase)) (events : List Event) (t : Table Uuid Challenge) : Prop where
  unspent : ∀ i u token, (i, .resetting u token) ∈ busy →
    spent u token events = false ∧ subject token = some u
  alone : ∀ i j u token token', (i, .resetting u token) ∈ busy → (j, .resetting u token') ∈ busy → i = j
  consumed : ∀ k token, .issued k token ∈ events → ∃ row, t.lookup k = some row ∧ row.consumedAt.isSome
  once : (events.filterMap Event.challenge).Nodup
  changes : Unspent events

section Guarded

variable {busy busy' : List (ℕ × Phase)} {events : List Event} {t t' : Table Uuid Challenge} {i : ℕ}

/-- Calls that reset nothing come and go, and challenges that are consumed stay so. -/
theorem Guarded.mono (h : Guarded busy events t)
    (hbusy : ∀ j u token, (j, .resetting u token) ∈ busy' → (j, .resetting u token) ∈ busy)
    (ht : ∀ k row, t.lookup k = some row → row.consumedAt.isSome →
      ∃ row', t'.lookup k = some row' ∧ row'.consumedAt.isSome) : Guarded busy' events t' := by
  refine ⟨fun j u token hj => h.unspent j u token (hbusy j u token hj),
    fun j j' u token token' hj hj' => h.alone j j' u token token' (hbusy _ _ _ hj) (hbusy _ _ _ hj'),
    fun k token hk => ?_, h.once, h.changes⟩
  obtain ⟨row, hrow, hsome⟩ := h.consumed k token hk
  exact ht k row hrow hsome

/-- `reset` has checked a token that is not spent, while no other changes the password. -/
theorem Guarded.check (h : Guarded busy events t) {u : Uuid} {token : Text}
    (hunspent : spent u token events = false) (hsubject : subject token = some u)
    (halone : ∀ e ∈ busy, e.2.resets u = false) :
    Guarded (moveOn i (some (.resetting u token)) busy) events t := by
  have hold : ∀ {j v s}, (j, .resetting v s) ∈ moveOn i (some (.resetting u token)) busy →
      (j = i ∧ v = u ∧ s = token) ∨ (j, .resetting v s) ∈ busy := by
    intro j v s hj
    rcases mem_moveOn.1 hj with ⟨hji, heq⟩ | ⟨-, hj⟩
    · cases heq
      exact .inl ⟨hji, rfl, rfl⟩
    · exact .inr hj
  have hnot : ∀ {j s}, (j, .resetting u s) ∉ busy := by
    intro j s hj
    have hresets := halone _ hj
    simp [Phase.resets] at hresets
  refine ⟨fun j v s hj => ?_, fun j j' v s s' hj hj' => ?_, h.consumed, h.once, h.changes⟩
  · rcases hold hj with ⟨-, rfl, rfl⟩ | hj
    · exact ⟨hunspent, hsubject⟩
    · exact h.unspent j v s hj
  · rcases hold hj with ⟨rfl, rfl, rfl⟩ | hbefore
    · rcases hold hj' with ⟨rfl, -, -⟩ | hbefore'
      · rfl
      · exact (hnot hbefore').elim
    · rcases hold hj' with ⟨rfl, rfl, rfl⟩ | hbefore'
      · exact (hnot hbefore).elim
      · exact h.alone j j' v s s' hbefore hbefore'

/-- `reset` changes the password, under the token that it checked. -/
theorem Guarded.change (h : Guarded busy events t) {u : Uuid} {token : Text}
    (hbusy : (i, .resetting u token) ∈ busy) :
    Guarded (moveOn i none busy) (.changed u token :: events) t := by
  obtain ⟨hunspent, hsubject⟩ := h.unspent i u token hbusy
  have hold : ∀ {j v s}, (j, .resetting v s) ∈ moveOn i none busy →
      j ≠ i ∧ (j, .resetting v s) ∈ busy := by
    intro j v s hj
    rcases mem_moveOn.1 hj with ⟨-, heq⟩ | hj
    · cases heq
    · exact hj
  refine ⟨fun j v s hj => ?_, fun j j' v s s' hj hj' => h.alone j j' v s s' (hold hj).2 (hold hj').2,
    fun k s hk => h.consumed k s ?_, h.once, hunspent, h.changes⟩
  · obtain ⟨hne, hj⟩ := hold hj
    obtain ⟨hunspent', hsubject'⟩ := h.unspent j v s hj
    have huser : u ≠ v := by
      rintro rfl
      exact hne (h.alone j i u s token hj hbusy)
    have htoken : token ≠ s := by
      rintro rfl
      rw [hsubject] at hsubject'
      exact huser (Option.some.inj hsubject')
    refine ⟨?_, hsubject'⟩
    simp [spent, huser, htoken, hunspent']
  · simpa using hk

/-- `verify` consumes a challenge that no other has consumed, and signs a token. -/
theorem Guarded.issue (h : Guarded busy events t) {k : Uuid} {row row' : Challenge} {token : Token}
    (hrow : t.lookup k = some row) (hopen : row.consumedAt = none) (hconsumed : row'.consumedAt.isSome) :
    Guarded busy (.issued k token :: events) (t.insert k row') := by
  have hnew : ∀ s, .issued k s ∉ events := by
    intro s hs
    obtain ⟨row₁, hrow₁, hsome⟩ := h.consumed k s hs
    obtain rfl := Option.some.inj (hrow.symm.trans hrow₁)
    rw [hopen] at hsome
    cases hsome
  refine ⟨h.unspent, h.alone, fun k' s hk' => ?_, List.nodup_cons.2 ⟨fun hmem => ?_, h.once⟩, h.changes⟩
  · rw [Table.lookup_insert_ite]
    split
    · exact ⟨row', rfl, hconsumed⟩
    · rename_i hne
      rcases List.mem_cons.1 hk' with heq | hk'
      · cases heq
        exact absurd rfl hne
      · exact h.consumed k' s hk'
  · obtain ⟨e, he, hek⟩ := List.mem_filterMap.1 hmem
    cases e with
    | issued k' s =>
      cases hek
      exact hnew s he
    | changed u s => cases hek

end Guarded

/-! ## What the calls know of the challenges -/

/-- Open challenges are one for each user, for the address that the user has. -/
structure Tidy (env : Env) (s : Desk) : Prop where
  address : ∀ k c, s.challenges.lookup k = some c → c.isOpen = true →
    ∃ user, s.realm.db.users.lookup c.userId = some user ∧ c.emailHash = env.hashEmail user.email
  single : ∀ k k' c c', s.challenges.lookup k = some c → s.challenges.lookup k' = some c' →
    c.isOpen = true → c'.isOpen = true → c.userId = c'.userId → k = k'

/-- What the calls of `request` under way have to do with the challenges. -/
structure Orderly (env : Env) (busy : List (ℕ × Phase)) (s : Desk) : Prop extends Tidy env s where
  asked : ∀ i u emailHash, (i, .asked u emailHash) ∈ busy →
    ∃ user, s.realm.db.users.lookup u = some user ∧ emailHash = env.hashEmail user.email
  creating : ∀ i u emailHash, (i, .creating u emailHash) ∈ busy →
    (∃ user, s.realm.db.users.lookup u = some user ∧ emailHash = env.hashEmail user.email) ∧
      ∀ k c, s.challenges.lookup k = some c → c.userId = u → c.isOpen = false
  alone : ∀ i j u h h', (i, .creating u h) ∈ busy → (j, .creating u h') ∈ busy → i = j

section Orderly

variable {env : Env} {busy busy' : List (ℕ × Phase)} {s s' : Desk} {i : ℕ}

/-- No challenge is opened, and no user gets another address. -/
structure Closes (s s' : Desk) : Prop where
  challenges : ∀ k c', s'.challenges.lookup k = some c' → c'.isOpen = true →
    ∃ c, s.challenges.lookup k = some c ∧ c.isOpen = true ∧ c.userId = c'.userId ∧
      c.emailHash = c'.emailHash
  users : ∀ u user, s.realm.db.users.lookup u = some user →
    ∃ user', s'.realm.db.users.lookup u = some user' ∧ user'.email = user.email

theorem Closes.refl (s : Desk) : Closes s s :=
  ⟨fun _ c hc hopen => ⟨c, hc, hopen, rfl, rfl⟩, fun _ user huser => ⟨user, huser, rfl⟩⟩

/-- Calls that create nothing come and go, and challenges are closed. -/
theorem Orderly.mono (h : Orderly env busy s) (hcloses : Closes s s')
    (hbusy : ∀ j u emailHash, ((j, .asked u emailHash) ∈ busy' → (j, .asked u emailHash) ∈ busy) ∧
      ((j, .creating u emailHash) ∈ busy' → (j, .creating u emailHash) ∈ busy)) :
    Orderly env busy' s' := by
  have huser : ∀ {u emailHash}, (∃ user, s.realm.db.users.lookup u = some user ∧
      emailHash = env.hashEmail user.email) → ∃ user, s'.realm.db.users.lookup u = some user ∧
        emailHash = env.hashEmail user.email := by
    rintro u emailHash ⟨user, hlookup, rfl⟩
    obtain ⟨user', hlookup', hemail⟩ := hcloses.users u user hlookup
    exact ⟨user', hlookup', by rw [hemail]⟩
  refine ⟨⟨fun k c' hc' hopen => ?_, fun k k' c c' hc hc' hopen hopen' hid => ?_⟩,
    fun j u emailHash hj => huser (h.asked j u emailHash ((hbusy j u emailHash).1 hj)),
    fun j u emailHash hj => ?_, fun j j' u h₁ h₂ hj hj' =>
      h.alone j j' u h₁ h₂ ((hbusy j u h₁).2 hj) ((hbusy j' u h₂).2 hj')⟩
  · obtain ⟨c, hc, hcopen, hid, hhash⟩ := hcloses.challenges k c' hc' hopen
    rw [← hid, ← hhash]
    exact huser (h.address k c hc hcopen)
  · obtain ⟨c₁, hc₁, hopen₁, hid₁, -⟩ := hcloses.challenges k c hc hopen
    obtain ⟨c₂, hc₂, hopen₂, hid₂, -⟩ := hcloses.challenges k' c' hc' hopen'
    exact h.single k k' c₁ c₂ hc₁ hc₂ hopen₁ hopen₂ (by rw [hid₁, hid₂, hid])
  · obtain ⟨hthere, hclosed⟩ := h.creating j u emailHash ((hbusy j u emailHash).2 hj)
    refine ⟨huser hthere, fun k c' hc' hid => ?_⟩
    by_contra hnot
    obtain ⟨c, hc, hopen, hid', -⟩ := hcloses.challenges k c' hc' (by simpa using hnot)
    rw [hclosed k c hc (hid'.trans hid)] at hopen
    cases hopen

/-- `request` has found the user of the address typed. -/
theorem Orderly.ask (h : Orderly env busy s) {u : Uuid} {user : Identity.User}
    (hlookup : s.realm.db.users.lookup u = some user) :
    Orderly env (moveOn i (some (.asked u (env.hashEmail user.email))) busy) s := by
  have hcreating : ∀ {j v e}, (j, .creating v e) ∈
      moveOn i (some (.asked u (env.hashEmail user.email))) busy → (j, .creating v e) ∈ busy := by
    intro j v e hj
    rcases mem_moveOn.1 hj with ⟨-, heq⟩ | ⟨-, hj⟩
    · cases heq
    · exact hj
  refine ⟨h.toTidy, fun j v e hj => ?_, fun j v e hj => h.creating j v e (hcreating hj),
    fun j j' v e e' hj hj' => h.alone j j' v e e' (hcreating hj) (hcreating hj')⟩
  rcases mem_moveOn.1 hj with ⟨-, heq⟩ | ⟨-, hj⟩
  · cases heq
    exact ⟨user, hlookup, rfl⟩
  · exact h.asked j v e hj

/-- The open challenges of a user are superseded. -/
theorem closes_superseded (s : Desk) (userId : Uuid) (emailHash : String) :
    Closes s (s.superseded userId emailHash) := by
  refine ⟨fun k c' hc' hopen => ?_, fun u user huser => ⟨user, huser, rfl⟩⟩
  simp only [Desk.superseded, Table.lookup_updateMany, Option.map_eq_some_iff] at hc'
  obtain ⟨c, hc, rfl⟩ := hc'
  split at hopen
  · simp [Challenge.isOpen] at hopen
  · rename_i hmine
    rw [if_neg hmine]
    exact ⟨c, hc, hopen, rfl, rfl⟩

/-- `request` supersedes the open challenges of the user, while no other has still to create one. -/
theorem Orderly.supersede (h : Orderly env busy s) {u : Uuid} {emailHash : String}
    (hbusy : (i, .asked u emailHash) ∈ busy) (halone : ∀ e ∈ busy, e.2.creates u = false) :
    Orderly env (moveOn i (some (.creating u emailHash)) busy) (s.superseded u emailHash) := by
  have hmono : Orderly env busy (s.superseded u emailHash) :=
    h.mono (closes_superseded s u emailHash) fun j v e => ⟨fun hj => hj, fun hj => hj⟩
  have hnot : ∀ {j e}, (j, .creating u e) ∉ busy := by
    intro j e hj
    have hcreates := halone _ hj
    simp [Phase.creates] at hcreates
  have hold : ∀ {j v e}, (j, .creating v e) ∈ moveOn i (some (.creating u emailHash)) busy →
      (j = i ∧ v = u ∧ e = emailHash) ∨ (j, .creating v e) ∈ busy := by
    intro j v e hj
    rcases mem_moveOn.1 hj with ⟨hji, heq⟩ | ⟨-, hj⟩
    · cases heq
      exact .inl ⟨hji, rfl, rfl⟩
    · exact .inr hj
  refine ⟨hmono.toTidy, fun j v e hj => ?_, fun j v e hj => ?_, fun j j' v e e' hj hj' => ?_⟩
  · rcases mem_moveOn.1 hj with ⟨-, heq⟩ | ⟨-, hj⟩
    · cases heq
    · exact hmono.asked j v e hj
  · rcases hold hj with ⟨-, rfl, rfl⟩ | hj
    · obtain ⟨user, hlookup, hhash⟩ := h.asked i v e hbusy
      refine ⟨⟨user, hlookup, hhash⟩, fun k c' hc' hid => ?_⟩
      by_contra hnot'
      have hopen : c'.isOpen = true := by simpa using hnot'
      simp only [Desk.superseded, Table.lookup_updateMany, Option.map_eq_some_iff] at hc'
      obtain ⟨c, hc, rfl⟩ := hc'
      split at hopen
      · simp [Challenge.isOpen] at hopen
      · rename_i hmine
        rw [if_neg hmine] at hid
        obtain ⟨user', hlookup', hhash'⟩ := h.address k c hc hopen
        rw [hid, hlookup] at hlookup'
        cases hlookup'
        refine hmine ?_
        simp [hid, hhash', hhash, hopen]
    · exact hmono.creating j v e hj
  · rcases hold hj with ⟨rfl, rfl, rfl⟩ | hbefore
    · rcases hold hj' with ⟨rfl, -, -⟩ | hbefore'
      · rfl
      · exact (hnot hbefore').elim
    · rcases hold hj' with ⟨rfl, rfl, rfl⟩ | hbefore'
      · exact (hnot hbefore).elim
      · exact h.alone j j' v e e' hbefore hbefore'

/-- `request` creates a challenge for the user. -/
theorem Orderly.create (h : Orderly env busy s) {u id : Uuid} {emailHash : String} {c : Challenge}
    (hbusy : (i, .creating u emailHash) ∈ busy) (huser : c.userId = u)
    (hhash : c.emailHash = emailHash) : Orderly env (moveOn i none busy) (s.withChallenge id c) := by
  obtain ⟨⟨user, hlookup, hemail⟩, hclosed⟩ := h.creating i u emailHash hbusy
  have hold : ∀ {j phase}, (j, phase) ∈ moveOn i none busy → j ≠ i ∧ (j, phase) ∈ busy := by
    intro j phase hj
    rcases mem_moveOn.1 hj with ⟨-, heq⟩ | hj
    · cases heq
    · exact hj
  have hrow : ∀ {k c'}, (s.withChallenge id c).challenges.lookup k = some c' →
      (k = id ∧ c' = c) ∨ s.challenges.lookup k = some c' := by
    intro k c' hc'
    simp only [Desk.withChallenge, Table.lookup_insert_ite] at hc'
    split at hc'
    · rename_i hk
      exact .inl ⟨hk, (Option.some.inj hc').symm⟩
    · exact .inr hc'
  refine ⟨⟨fun k c' hc' hopen => ?_, fun k k' c₁ c₂ hc₁ hc₂ hopen₁ hopen₂ hid => ?_⟩,
    fun j v e hj => h.asked j v e (hold hj).2, fun j v e hj => ?_,
    fun j j' v e e' hj hj' => h.alone j j' v e e' (hold hj).2 (hold hj').2⟩
  · rcases hrow hc' with ⟨rfl, rfl⟩ | hc'
    · rw [huser, hhash]
      exact ⟨user, hlookup, hemail⟩
    · exact h.address k c' hc' hopen
  · rcases hrow hc₁ with ⟨rfl, rfl⟩ | hold₁
    · rcases hrow hc₂ with ⟨rfl, -⟩ | hold₂
      · rfl
      · rw [hclosed k' c₂ hold₂ (hid.symm.trans huser)] at hopen₂
        cases hopen₂
    · rcases hrow hc₂ with ⟨rfl, rfl⟩ | hold₂
      · rw [hclosed k c₁ hold₁ (hid.trans huser)] at hopen₁
        cases hopen₁
      · exact h.single k k' c₁ c₂ hold₁ hold₂ hopen₁ hopen₂ hid
  · obtain ⟨hne, hj⟩ := hold hj
    obtain ⟨hthere, hclosed'⟩ := h.creating j v e hj
    refine ⟨hthere, fun k c' hc' hid => ?_⟩
    rcases hrow hc' with ⟨rfl, rfl⟩ | hc'
    · refine (hne (h.alone j i v e emailHash hj ?_)).elim
      rw [← hid, huser]
      exact hbusy
    · exact hclosed' k c' hc' hid

end Orderly

/-! ## Steps -/

section Steps

variable {env : Env} {busy : List (ℕ × Phase)} {events : List Event} {s s' : Desk} {i : ℕ} {c : Call}
  {own : List (Desk × Desk)}

/-- It is known where thread `i` is. -/
def Knows (env : Env) (busy : List (ℕ × Phase)) (i : ℕ) (c : Call) (own : List (Desk × Desk)) : Prop :=
  ∀ phase, (i, phase) ∈ busy ↔ phaseOf env c own = some phase

/-- The token tells whose password is changed. -/
theorem admitted_subject {token : Text} {newPassword : String} {u : Uuid}
    (h : s.admitted token newPassword = some u) : subject token = some u := by
  obtain ⟨hsub, -⟩ := Option.filter_eq_some_iff.1 h
  obtain ⟨claims, hclaims, hsub⟩ := Option.bind_eq_some_iff.1 hsub
  obtain ⟨t, rfl, rfl, -⟩ := verify_signed (verifyPurpose_eq_some.1 hclaims).1
  exact hsub

theorem found_address {email : String} {u : Uuid} {user : Identity.User}
    (h : s.found env email = some (u, user)) : s.realm.db.users.lookup u = some user ∧
      user.email = address env email := by
  obtain ⟨hlookup, hemail⟩ := Table.findRow_some h
  exact ⟨hlookup, of_decide_eq_true hemail⟩

/-- After its second step, a call of `reset` is about the sessions. -/
theorem phaseOf_revoked (env : Env) (s s' : Desk) {token : Text} {newPassword : String} {salt : ℕ}
    (hlater : 2 ≤ own.length) :
    phaseOf env (.reset token newPassword salt) ((s, s') :: own) = none ∧
      eventOf env (.reset token newPassword salt) own s = none := by
  match own with
  | [] => simp at hlater
  | [_] => simp at hlater
  | _ :: _ :: _ => exact ⟨rfl, rfl⟩

/-- A call that does not go on to reset leaves those that do. -/
theorem resetting_of_moveOn {phase : Option Phase}
    (hphase : ∀ u token, phase ≠ some (.resetting u token)) (j : ℕ) (u : Uuid) (token : Text)
    (hj : (j, .resetting u token) ∈ moveOn i phase busy) : (j, .resetting u token) ∈ busy := by
  rcases mem_moveOn.1 hj with ⟨-, heq⟩ | ⟨-, hj⟩
  · exact (hphase u token heq).elim
  · exact hj

/-- A challenge under a new id, or with the consumption of the old one, leaves what is consumed so. -/
theorem consumed_withChallenge {k : Uuid} {new : Challenge}
    (hnew : ∀ old, s.challenges.lookup k = some old → old.consumedAt.isSome → new.consumedAt.isSome)
    (k' : Uuid) (row : Challenge) (hrow : s.challenges.lookup k' = some row)
    (hsome : row.consumedAt.isSome) :
    ∃ row', (s.withChallenge k new).challenges.lookup k' = some row' ∧ row'.consumedAt.isSome := by
  simp only [Desk.withChallenge, Table.lookup_insert_ite]
  split
  · rename_i hk
    exact ⟨new, rfl, hnew row (hk ▸ hrow) hsome⟩
  · exact ⟨row, hrow, hsome⟩

/-- A step keeps what is known of the tokens. -/
theorem guarded_step (h : Guarded busy events s.challenges) (hknows : Knows env busy i c own)
    (htook : Took env c ((s, s') :: own)) (hapart : keepsApart env busy events c own s = true) :
    Guarded (moveOn i (phaseOf env c ((s, s') :: own)) busy)
      ((eventOf env c own s).toList ++ events) s'.challenges := by
  have hfound : ∀ {α : Type} {found : Option α} {f : α → Phase},
      (∀ a u token, f a ≠ .resetting u token) → ∀ u token, found.map f ≠ some (.resetting u token) := by
    intro α found f hf u token heq
    obtain ⟨a, -, ha⟩ := Option.map_eq_some_iff.1 heq
    exact hf a u token ha
  have hsame : ∀ {t : Table Uuid Challenge} (k : Uuid) (row : Challenge), t.lookup k = some row →
      row.consumedAt.isSome → ∃ row', t.lookup k = some row' ∧ row'.consumedAt.isSome :=
    fun k row hrow hsome => ⟨row, hrow, hsome⟩
  cases htook with
  | asked => exact h.mono (resetting_of_moveOn (hfound fun _ _ _ heq => by cases heq)) hsame
  | superseded hfound' =>
    refine h.mono (resetting_of_moveOn (hfound fun _ _ _ heq => by cases heq)) fun k row hrow hsome => ?_
    simp only [Desk.superseded, Table.lookup_updateMany, hrow, Option.map_some]
    refine ⟨_, rfl, ?_⟩
    split
    · exact hsome
    · exact hsome
  | created hfound' hnew =>
    refine h.mono (resetting_of_moveOn fun _ _ heq => by cases heq)
      (consumed_withChallenge fun old hold => ?_)
    rw [hnew] at hold
    cases hold
  | refused => exact h.mono (resetting_of_moveOn fun _ _ heq => by cases heq) hsame
  | looked => exact h.mono (resetting_of_moveOn fun _ _ heq => by cases heq) hsame
  | @consumed email code jti s₁ s k c row hmatched hrow =>
    have hopen : row.consumedAt = none := of_decide_eq_true hapart (k, c) hmatched row hrow
    have hevent : eventOf env (.verify email code jti) [(s₁, s₁)] s =
        some (.issued k (signRecovery env.ttl s.now jti c.userId)) := by
      simp [eventOf, hmatched, hrow]
    rw [hevent]
    exact (h.issue hrow hopen rfl).mono (resetting_of_moveOn fun _ _ heq => by cases heq) hsame
  | @missed email code jti s₁ s k row hmatched hrow =>
    have hevent : eventOf env (.verify email code jti) [(s₁, s₁)] s = none := by
      simp [eventOf, hmatched]
    rw [hevent]
    refine h.mono (resetting_of_moveOn fun _ _ heq => by cases heq)
      (consumed_withChallenge fun old hold hsome => ?_)
    obtain rfl := Option.some.inj (hrow.symm.trans hold)
    exact hsome
  | @gone email code jti s₁ s hgone =>
    have hevent : eventOf env (.verify email code jti) [(s₁, s₁)] s = none := by
      cases hmatched : s₁.matched env email code with
      | none => simp [eventOf, hmatched]
      | some e => simp [eventOf, hmatched, hgone e.1 e.2 hmatched]
    rw [hevent]
    exact h.mono (resetting_of_moveOn fun _ _ heq => by cases heq) hsame
  | @checked token newPassword salt s =>
    cases hadmitted : s.admitted token newPassword with
    | none =>
      have hphase : phaseOf env (.reset token newPassword salt) [(s, s)] = none := by
        simp [phaseOf, hadmitted]
      rw [hphase]
      exact h.mono (resetting_of_moveOn fun _ _ heq => by cases heq) hsame
    | some u =>
      have hphase : phaseOf env (.reset token newPassword salt) [(s, s)] =
          some (.resetting u token) := by
        simp [phaseOf, hadmitted]
      obtain ⟨hunspent, halone⟩ := of_decide_eq_true hapart u hadmitted
      rw [hphase]
      exact h.check hunspent (admitted_subject hadmitted) halone
  | @changed token newPassword salt s₁ s u user hadmitted hrow =>
    have hbusy : (i, .resetting u token) ∈ busy := (hknows _).2 (by simp [phaseOf, hadmitted])
    have hevent : eventOf env (.reset token newPassword salt) [(s₁, s₁)] s =
        some (.changed u token) := by
      simp [eventOf, hadmitted, hrow]
    rw [hevent]
    exact h.change hbusy
  | @vanished token newPassword salt s₁ s u hadmitted hrow =>
    have hevent : eventOf env (.reset token newPassword salt) [(s₁, s₁)] s = none := by
      simp [eventOf, hadmitted, hrow]
    rw [hevent]
    exact h.mono (resetting_of_moveOn fun _ _ heq => by cases heq) hsame
  | revoked hlater husers hchallenges =>
    obtain ⟨hphase, hevent⟩ := phaseOf_revoked env s s' hlater
    rw [hphase, hevent, hchallenges]
    exact h.mono (resetting_of_moveOn fun _ _ heq => by cases heq) hsame
  | waited => exact h.mono (resetting_of_moveOn fun _ _ heq => by cases heq) hsame

/-- A call that does not go on to ask or create leaves those that do. -/
theorem asking_of_moveOn {phase : Option Phase} (hphase : ∀ u emailHash,
      phase ≠ some (.asked u emailHash) ∧ phase ≠ some (.creating u emailHash))
    (j : ℕ) (u : Uuid) (emailHash : String) :
    ((j, .asked u emailHash) ∈ moveOn i phase busy → (j, .asked u emailHash) ∈ busy) ∧
      ((j, .creating u emailHash) ∈ moveOn i phase busy → (j, .creating u emailHash) ∈ busy) := by
  refine ⟨fun hj => ?_, fun hj => ?_⟩
  · rcases mem_moveOn.1 hj with ⟨-, heq⟩ | ⟨-, hj⟩
    · exact ((hphase u emailHash).1 heq).elim
    · exact hj
  · rcases mem_moveOn.1 hj with ⟨-, heq⟩ | ⟨-, hj⟩
    · exact ((hphase u emailHash).2 heq).elim
    · exact hj

/-- A challenge is written, and not opened. -/
theorem closes_withChallenge {k : Uuid} {row new : Challenge} (hrow : s.challenges.lookup k = some row)
    (hopen : new.isOpen = true → row.isOpen = true) (hid : new.userId = row.userId)
    (hhash : new.emailHash = row.emailHash) : Closes s (s.withChallenge k new) := by
  refine ⟨fun k' c' hc' hopen' => ?_, fun u user huser => ⟨user, huser, rfl⟩⟩
  simp only [Desk.withChallenge, Table.lookup_insert_ite] at hc'
  split at hc'
  · rename_i hk
    cases hc'
    exact ⟨row, hk ▸ hrow, hopen hopen', hid.symm, hhash.symm⟩
  · exact ⟨c', hc', hopen', rfl, rfl⟩

/-- A step keeps what is known of the challenges. -/
theorem orderly_step (h : Orderly env busy s) (hknows : Knows env busy i c own)
    (htook : Took env c ((s, s') :: own)) (hapart : keepsApart env busy events c own s = true) :
    Orderly env (moveOn i (phaseOf env c ((s, s') :: own)) busy) s' := by
  have hnone : ∀ u emailHash, (none : Option Phase) ≠ some (.asked u emailHash) ∧
      (none : Option Phase) ≠ some (.creating u emailHash) :=
    fun _ _ => ⟨by simp, by simp⟩
  cases htook with
  | @asked email id code salt s =>
    cases hfound : s.found env email with
    | none =>
      have hphase : phaseOf env (.request email id code salt) [(s, s)] = none := by
        simp [phaseOf, hfound]
      rw [hphase]
      exact h.mono (Closes.refl s) (asking_of_moveOn hnone)
    | some e =>
      obtain ⟨u, user⟩ := e
      obtain ⟨hlookup, hemail⟩ := found_address hfound
      have hphase : phaseOf env (.request email id code salt) [(s, s)] =
          some (.asked u (env.hashEmail user.email)) := by
        simp [phaseOf, hfound, hemail]
      rw [hphase]
      exact h.ask hlookup
  | @superseded email id code salt s₁ s u user hfound =>
    have hbusy : (i, .asked u (env.hashEmail (address env email))) ∈ busy :=
      (hknows _).2 (by simp [phaseOf, hfound])
    have hphase : phaseOf env (.request email id code salt)
        [(s, s.superseded u (env.hashEmail (address env email))), (s₁, s₁)] =
          some (.creating u (env.hashEmail (address env email))) := by
      simp [phaseOf, hfound]
    rw [hphase]
    exact h.supersede hbusy (of_decide_eq_true hapart (u, user) hfound)
  | @created email id code salt s₁ s₂ s₂' s u user hfound hnew =>
    have hbusy : (i, .creating u (env.hashEmail (address env email))) ∈ busy :=
      (hknows _).2 (by simp [phaseOf, hfound])
    exact h.create hbusy rfl rfl
  | refused => exact h.mono (Closes.refl s) (asking_of_moveOn hnone)
  | looked => exact h.mono (Closes.refl s) (asking_of_moveOn hnone)
  | consumed hmatched hrow =>
    refine h.mono (closes_withChallenge hrow (fun hopen => ?_) rfl rfl) (asking_of_moveOn hnone)
    simp [Challenge.isOpen] at hopen
  | missed hmatched hrow =>
    exact h.mono (closes_withChallenge hrow (fun hopen => hopen) rfl rfl) (asking_of_moveOn hnone)
  | gone hgone => exact h.mono (Closes.refl s) (asking_of_moveOn hnone)
  | @checked token newPassword salt s =>
    refine h.mono (Closes.refl s) (asking_of_moveOn fun u emailHash => ?_)
    cases hadmitted : s.admitted token newPassword with
    | none => simp [phaseOf, hadmitted]
    | some v => simp [phaseOf, hadmitted]
  | @changed token newPassword salt s₁ s u user hadmitted hrow =>
    refine h.mono ⟨fun k c' hc' hopen => ⟨c', hc', hopen, rfl, rfl⟩, fun v user' huser' => ?_⟩
      (asking_of_moveOn hnone)
    simp only [Desk.withUser, Table.lookup_insert_ite]
    split
    · rename_i hv
      rw [hv, hrow] at huser'
      cases huser'
      exact ⟨_, rfl, rfl⟩
    · exact ⟨user', huser', rfl⟩
  | vanished hadmitted hrow => exact h.mono (Closes.refl s) (asking_of_moveOn hnone)
  | revoked hlater husers hchallenges =>
    rw [(phaseOf_revoked env s s' hlater).1]
    refine h.mono ⟨fun k c' hc' hopen => ?_, fun v user huser => ?_⟩ (asking_of_moveOn hnone)
    · rw [hchallenges] at hc'
      exact ⟨c', hc', hopen, rfl, rfl⟩
    · rw [husers]
      exact ⟨user, huser, rfl⟩
  | waited => exact h.mono ⟨fun k c' hc' hopen => ⟨c', hc', hopen, rfl, rfl⟩,
      fun v user huser => ⟨user, huser, rfl⟩⟩ (asking_of_moveOn hnone)

end Steps

/-! ## Runs -/

/-- The runs of the controller's calls. -/
abbrev RecoveryRun (env : Env) := Run (fun _ => handle env) (fun _ => True)

/-- **A proof of recovery is spent once**, in runs whose calls keep apart: a password is changed only
under a token that was neither used nor issued before another change, the code of a challenge leads to at
most one change, and a user has at most one open challenge. -/
theorem proofs_spent_once (env : Env) {s₀ : Desk} {tr : List (Step Desk Call)}
    {P : Pool Desk Error Answer Call} (hstart : Tidy env s₀) (hrun : RecoveryRun env s₀ tr P)
    (hapart : EachStep (Apart env) [] tr) :
    Unspent (log env tr) ∧ (∀ k, changesBy k (log env tr) ≤ 1) ∧
      ∀ k k' c c', P.state.challenges.lookup k = some c → P.state.challenges.lookup k' = some c' →
        c.isOpen = true → c'.isOpen = true → c.userId = c'.userId → k = k' := by
  have hkept := hrun.induct (I := fun tr s =>
    Guarded (underWay (phaseOf env) tr) (log env tr) s.challenges ∧
      Orderly env (underWay (phaseOf env) tr) s) ?_ fun later x earlier hsplit ⟨hguarded, horderly⟩ => ?_
  · exact ⟨hkept.1.changes, changesBy_le_one hkept.1.changes hkept.1.once, hkept.2.single⟩
  · exact ⟨⟨by simp [underWay], by simp [underWay], by simp [log], List.nodup_nil, trivial⟩,
      ⟨hstart, by simp [underWay], by simp [underWay], by simp [underWay]⟩⟩
  · have hcalls : ∀ y ∈ earlier, y.tid = x.tid → y.call = x.call :=
      fun y hy htid => hrun.call_eq (by rw [hsplit]; simp [hy]) (by rw [hsplit]; simp) htid
    have hknows : Knows env (underWay (phaseOf env) earlier) x.tid x.call (own x.tid earlier) :=
      mem_underWay (fun c => by cases c <;> rfl) hcalls
    have htook := (hrun.does fun _ c _ => call_does c).1 later x earlier hsplit
    have hclear : Apart env later x earlier := EachStep.split (hsplit ▸ hapart)
    exact ⟨guarded_step hguarded hknows htook hclear, orderly_step horderly hknows htook hclear⟩

/-! ## Samples -/

/-- The values used when the environment sets none, and simple stand-ins for the digests. -/
def sampleEnv : Env where
  ttlSec := 600
  toLowerCase s := String.ofList (s.toList.map Char.toLower)
  hashEmail email := "#" ++ email
  argonHash := Identity.sampleEnv.argonHash
  maxAttempts := 5
  argonVerify := Identity.sampleEnv.argonVerify
  ttl := .default

/-- Nobody has asked for a code. -/
def sampleDesk : Desk := ⟨Identity.sampleRealm, ∅, 0⟩

/-- The run of a schedule of calls. -/
def sampleRun (sched : List (Choice Call)) : List (Step Desk Call) × Pool Desk Error Answer Call :=
  exec (fun _ => handle sampleEnv) sampleDesk sched

/-- A call, and its first steps. -/
def alone (tid : ℕ) (c : Call) : List (Choice Call) :=
  .call c :: List.replicate 4 (.step tid)

/-- Ann asks for a code. -/
def annAsks (tid id : ℕ) (code : String) : List (Choice Call) :=
  alone tid (.request " Ann@example.com" id code 0)

/-- The token that the code of Ann's challenge is exchanged for, with the id. -/
def annToken (jti : Uuid) : Text := .signed (signRecovery sampleEnv.ttl 0 jti 1)

/-- A code, a change of the password, and the same token when it has expired. -/
def inTime : List (Choice Call) :=
  annAsks 0 30 "123456" ++ alone 1 (.verify "ann@example.com" "123456" 40) ++
    alone 2 (.reset (annToken 40) "new password" 1) ++ alone 3 (.wait 900000) ++
    alone 4 (.reset (annToken 40) "another one" 2)

theorem inTime_spent_once : Unspent (log sampleEnv (sampleRun inTime).1) ∧
    (∀ k, changesBy k (log sampleEnv (sampleRun inTime).1) ≤ 1) ∧
    ∀ k k' c c', (sampleRun inTime).2.state.challenges.lookup k = some c →
      (sampleRun inTime).2.state.challenges.lookup k' = some c' →
        c.isOpen = true → c'.isOpen = true → c.userId = c'.userId → k = k' :=
  proofs_spent_once sampleEnv ⟨fun _ _ hc => (by cases hc), fun _ _ _ _ hc => (by cases hc)⟩
    (exec_run inTime fun _ _ => trivial) (by decide +kernel)

/-- The same token twice. -/
def tokenTwice : List (Choice Call) :=
  annAsks 0 30 "123456" ++ alone 1 (.verify "ann@example.com" "123456" 40) ++
    alone 2 (.reset (annToken 40) "new password" 1) ++ alone 3 (.reset (annToken 40) "another one" 2)

/-- Two codes, and the token of the first after that of the second. -/
def oldToken : List (Choice Call) :=
  annAsks 0 30 "123456" ++ alone 1 (.verify "ann@example.com" "123456" 40) ++
    annAsks 2 31 "654321" ++ alone 3 (.verify "ann@example.com" "654321" 41) ++
    alone 4 (.reset (annToken 41) "new password" 1) ++ alone 5 (.reset (annToken 40) "another one" 2)

/-- Two requests that overlap. -/
def askedTwice : List (Choice Call) :=
  [.call (.request "ann@example.com" 30 "123456" 0), .call (.request "ann@example.com" 31 "654321" 0),
    .step 0, .step 1, .step 0, .step 1, .step 0, .step 1]

/-- A token changes the password twice, a token changes it after a later one has, and a user has two open
challenges. -/
theorem proofs_spent_again : changesBy 30 (log sampleEnv (sampleRun tokenTwice).1) = 2 ∧
    log sampleEnv (sampleRun oldToken).1 = [.changed 1 (annToken 40), .changed 1 (annToken 41),
      .issued 31 (signRecovery sampleEnv.ttl 0 41 1), .issued 30 (signRecovery sampleEnv.ttl 0 40 1)] ∧
    ∀ k ∈ [30, 31], ((sampleRun askedTwice).2.state.challenges.lookup k).any
      (fun c => c.isOpen && c.userId = 1) = true := by
  decide +kernel

end BankDemo.PasswordReset
