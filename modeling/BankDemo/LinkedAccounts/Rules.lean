import BankDemo.LinkedAccounts.Service

/-!
# What the calls about linked accounts do

Each step of a call leaves the requests, the accounts and the link tokens as they are or changes one row
of one of them, and what it writes depends on what the call read first (`handle_does`).
-/

namespace BankDemo.LinkedAccounts

open Prog

variable {env : Env}

/-- The request that a customer's call found at first: the customer's, and waiting for a code. -/
def FoundOpen (userId id : Uuid) (own : List (State × State)) (row : LinkedAccountAuth) : Prop :=
  ∃ s₁, own = [(s₁, s₁)] ∧ s₁.requests.lookup id = some row ∧ row.userId = userId ∧
    row.status = .awaitingOtp

/-- The checks of `verifyOtp` before it compares the code with the hash. -/
def Comparable (now : Instant) (hash : String) (row : LinkedAccountAuth) : Prop :=
  row.otpHash = some hash ∧ (∃ expiresAt, row.otpExpiresAt = some expiresAt ∧ now ≤ expiresAt) ∧
    row.otpAttempts < otpMaxAttempts

/-- How a step of a call changes a request. -/
inductive Change (env : Env) :
    Call → List (State × State) → Uuid → LinkedAccountAuth → LinkedAccountAuth → Prop
  | coded {now : Instant} {userId id : Uuid} {email : String} {d : OtpDraws}
      {own : List (State × State)} {read row : LinkedAccountAuth}
      (hread : FoundOpen userId id own read) :
      Change env (.sendOtp now userId id email d) own id row
        (coded env now (env.toLowerCase (JsString.trim email)) d row)
  | counted {now : Instant} {userId id : Uuid} {code hash : String} {own : List (State × State)}
      {read row : LinkedAccountAuth} (hread : FoundOpen userId id own read)
      (hpasses : Comparable now hash read) (hwrong : env.argonVerify hash code = false) :
      Change env (.verifyOtp now userId id code) own id row
        { row with otpAttempts := row.otpAttempts + 1 }
  | verified {now : Instant} {userId id : Uuid} {code hash : String} {own : List (State × State)}
      {read row : LinkedAccountAuth} (hread : FoundOpen userId id own read)
      (hpasses : Comparable now hash read) (hright : env.argonVerify hash code = true) :
      Change env (.verifyOtp now userId id code) own id row (verified row)
  | approved {now : Instant} {actorUserId id : Uuid} {d : ApproveDraws} {s₁ s₂ s₃ : State}
      {read row : LinkedAccountAuth} (hread : s₁.requests.lookup id = some read)
      (hnew : s₂.accounts.lookup d.accountId = none)
      (haccount : s₃.accounts = s₂.accounts.insert d.accountId (capturedAccount env now id read d)) :
      Change env (.approve now actorUserId id d) [(s₂, s₃), (s₁, s₁)] id row
        (approvedRow now actorUserId d.accountId row)
  | rejected {now : Instant} {actorUserId id : Uuid} {reason : String} {own : List (State × State)}
      {row : LinkedAccountAuth} :
      Change env (.reject now actorUserId id reason) own id row
        (rejectedRow now actorUserId reason row)

/-- What a step of a call makes of the requests. -/
inductive RequestStep (env : Env) (c : Call) (own : List (State × State)) (s s' : State) : Prop
  | same (h : s'.requests = s.requests)
  | created {now : Instant} {userId : Uuid} {input : InitiateInput} {d : InitiateDraws}
      (hc : c = .initiate now userId input d) (hnew : s.requests.lookup d.id = none)
      (h : s'.requests = s.requests.insert d.id (newRequest env now userId input d))
  | changed {id : Uuid} {row row' : LinkedAccountAuth} (hchange : Change env c own id row row')
      (hrow : s.requests.lookup id = some row) (h : s'.requests = s.requests.insert id row')
  | deleted {id : Uuid} (h : s'.requests = s.requests.erase id)

/-- The calls about an account that is linked. -/
def Call.onAccount : Call → Prop
  | .sync .. | .completeReauth .. | .unlink .. => True
  | _ => False

/-- What a step of a call makes of the accounts. -/
inductive AccountStep (env : Env) : Call → List (State × State) → State → State → Prop
  | same {c : Call} {own : List (State × State)} {s s' : State} (h : s'.accounts = s.accounts) :
      AccountStep env c own s s'
  | captured {now : Instant} {actorUserId id : Uuid} {d : ApproveDraws} {s₁ s s' : State}
      {read : LinkedAccountAuth} (hread : s₁.requests.lookup id = some read)
      (hstatus : read.status = .awaitingApproval) (hnew : s.accounts.lookup d.accountId = none)
      (h : s'.accounts = s.accounts.insert d.accountId (capturedAccount env now id read d)) :
      AccountStep env (.approve now actorUserId id d) [(s₁, s₁)] s s'
  | exchanged {now : Instant} {userId id : Uuid} {publicToken accountType : String}
      {d : ExchangeDraws} {inst : StubInstitution} {mask : ℕ} {own : List (State × State)}
      {s s' : State} (hredeemed : ∃ y ∈ own, y.2.linkTokens ≠ y.1.linkTokens)
      (h : s'.accounts =
        s.accounts.insert id (exchangedAccount env now userId inst d accountType mask)) :
      AccountStep env (.exchange now userId publicToken d) own s s'
  | other {c : Call} {own : List (State × State)} {s s' : State} (h : c.onAccount) :
      AccountStep env c own s s'

/-- What a step of a call makes of the link tokens. -/
inductive TokenStep : Call → State → State → Prop
  | same {c : Call} {s s' : State} (h : s'.linkTokens = s.linkTokens) : TokenStep c s s'
  | issued {userId : Uuid} {linkToken : String} {s s' : State}
      (h : s'.linkTokens = s.linkTokens.insert linkToken ⟨some userId⟩) :
      TokenStep (.createLinkToken userId linkToken) s s'
  | issuedToNobody {userId id : Uuid} {linkToken : String} {s s' : State}
      (h : s'.linkTokens = s.linkTokens.insert linkToken ⟨none⟩) :
      TokenStep (.reauth userId id linkToken) s s'
  | exchanged {now : Instant} {userId : Uuid} {publicToken : String} {d : ExchangeDraws}
      {s s' : State}
      (htoken : s.linkTokens.lookup (parsePublicToken publicToken).1 = some ⟨some userId⟩)
      (h : s'.linkTokens = s.linkTokens.erase (parsePublicToken publicToken).1) :
      TokenStep (.exchange now userId publicToken d) s s'
  | renewed {now : Instant} {userId id : Uuid} {publicToken : String} {d : ExchangeDraws}
      {s s' : State}
      (htoken : s.linkTokens.lookup (parsePublicToken publicToken).1 = some ⟨some userId⟩)
      (h : s'.linkTokens = s.linkTokens.erase (parsePublicToken publicToken).1) :
      TokenStep (.completeReauth now userId id publicToken d) s s'

/-- The newest of the steps that a call took. -/
def Did (env : Env) (c : Call) : List (State × State) → Prop
  | [] => True
  | (s, s') :: own => RequestStep env c own s s' ∧ AccountStep env c own s s' ∧ TokenStep c s s'

/-! ## Steps that leave the tables alone -/

/-- The requests, the accounts and the tokens are what they were. -/
def SameTables (s s' : State) : Prop :=
  s'.requests = s.requests ∧ s'.accounts = s.accounts ∧ s'.linkTokens = s.linkTokens

theorem SameTables.refl (s : State) : SameTables s s := ⟨rfl, rfl, rfl⟩

theorem SameTables.did {c : Call} {own : List (State × State)} {s s' : State} (h : SameTables s s') :
    Did env c ((s, s') :: own) :=
  ⟨.same h.1, .same h.2.1, .same h.2.2⟩

/-- A step that changes nothing but the requests. -/
theorem did_requests {c : Call} {own : List (State × State)} {s : State}
    {requests : Table Uuid LinkedAccountAuth}
    (h : RequestStep env c own s { s with requests := requests }) :
    Did env c ((s, { s with requests := requests }) :: own) :=
  ⟨h, .same rfl, .same rfl⟩

section Parts

variable {c : Call} {own : List (State × State)} {α : Type}

/-- A program that leaves the tables alone. -/
theorem does_of_same {p : Handler α} (hp : p.Each SameTables) (own : List (State × State)) :
    p.Does (Did env c) (fun _ _ => True) own := by
  induction p generalizing own with
  | ret a => trivial
  | fail e => trivial
  | act ready eff next ih => exact fun s _ => ⟨(hp s).1.did, ih s (hp s).2 _⟩

/-- A query, then more. -/
theorem does_query {β : Type} {f : State → α} {k : α → Handler β}
    (hk : ∀ s, (k (f s)).Does (Did env c) (fun _ _ => True) ((s, s) :: own)) :
    (query f >>= k).Does (Did env c) (fun _ _ => True) own :=
  does_bind (does_read fun s => ⟨(SameTables.refl s).did, hk s⟩)

/-- A statement, then more. -/
theorem does_statement {β : Type} {body : State → Except Error (α × State)} {k : α → Handler β}
    (hbody : ∀ s a s', body s = .ok (a, s') → Did env c ((s, s') :: own) ∧
      (k a).Does (Did env c) (fun _ _ => True) ((s, s') :: own)) :
    (statement body >>= k).Does (Did env c) (fun _ _ => True) own :=
  does_bind (does_attempt (fun s a s' _ h => hbody s a s' h)
    fun s _ _ _ => ⟨(SameTables.refl s).did, trivial⟩)

/-- A statement at the end. -/
theorem does_last {body : State → Except Error (α × State)}
    (hbody : ∀ s a s', body s = .ok (a, s') → Did env c ((s, s') :: own)) :
    (statement body).Does (Did env c) (fun _ _ => True) own :=
  does_attempt (fun s a s' _ h => ⟨hbody s a s' h, trivial⟩)
    fun s _ _ _ => ⟨(SameTables.refl s).did, trivial⟩

theorem each_handOver (mail : Mail) : (handOver mail).Each SameTables :=
  each_modify fun _ => ⟨rfl, rfl, rfl⟩

theorem each_emitChanged (payload : LinkedAccountChangedPayload) :
    (emitChanged payload).Each SameTables :=
  each_modify fun _ => ⟨rfl, rfl, rfl⟩

theorem each_query (f : State → α) : (query f).Each SameTables := each_read f SameTables.refl

theorem each_mailUser (userId : Uuid) (mail : String → Mail) :
    (mailUser userId mail).Each SameTables := by
  refine each_bind (each_query _) fun user => ?_
  cases user with
  | none => trivial
  | some user =>
    dsimp only
    split
    · trivial
    · exact each_handOver _

theorem each_sendOtpToAdmin (answer : Except String String) (requestId : Uuid)
    (institutionName customerEmail code : String) (expiresInMin : ℤ) :
    (sendOtpToAdmin env answer requestId institutionName customerEmail code expiresInMin).Each
      SameTables := by
  unfold sendOtpToAdmin
  split
  · trivial
  · exact each_bind (each_handOver _) fun _ => trivial

theorem each_notifySuperadmin (requestId : Uuid)
    (institutionId institutionName customerName customerEmail username password : String) :
    (notifySuperadmin env requestId institutionId institutionName customerName customerEmail username
      password).Each SameTables := by
  unfold notifySuperadmin
  split
  · trivial
  · exact each_handOver _

/-- `requireRow`, then more: the request is the user's. -/
theorem does_requireRow {β : Type} {userId id : Uuid} {k : LinkedAccountAuth → Handler β}
    (hk : ∀ s row, s.requests.lookup id = some row → row.userId = userId →
      (k row).Does (Did env c) (fun _ _ => True) [(s, s)]) :
    (requireRow userId id >>= k).Does (Did env c) (fun _ _ => True) [] := by
  refine does_bind (does_bind (does_read fun s => ⟨(SameTables.refl s).did, ?_⟩))
  dsimp only
  cases hrow : s.requests.lookup id with
  | none => trivial
  | some row =>
    dsimp only
    split
    · trivial
    · rename_i howner
      exact hk s row hrow (not_not.1 howner)

/-- `findRequest`, then more. -/
theorem does_findRequest {β : Type} {id : Uuid} {k : LinkedAccountAuth → Handler β}
    (hk : ∀ s row, s.requests.lookup id = some row →
      (k row).Does (Did env c) (fun _ _ => True) [(s, s)]) :
    (findRequest id >>= k).Does (Did env c) (fun _ _ => True) [] := by
  refine does_bind (does_bind (does_read fun s => ⟨(SameTables.refl s).did, ?_⟩))
  dsimp only
  cases hrow : s.requests.lookup id with
  | none => trivial
  | some row => exact hk s row hrow

/-- `ownAccount`, then more. -/
theorem does_ownAccount {β : Type} {userId id : Uuid} {k : LinkedAccount → Handler β}
    (hk : ∀ s row, (k row).Does (Did env c) (fun _ _ => True) [(s, s)]) :
    (ownAccount userId id >>= k).Does (Did env c) (fun _ _ => True) [] := by
  refine does_bind (does_bind (does_read fun s => ⟨(SameTables.refl s).did, ?_⟩))
  dsimp only
  cases s.accounts.lookup id with
  | none => trivial
  | some row =>
    dsimp only
    split
    · trivial
    · exact hk s row

/-- A statement on the accounts. -/
theorem did_accounts {s s' : State} (hother : c.onAccount)
    (h : ∃ accounts, s' = { s with accounts := accounts }) : Did env c ((s, s') :: own) := by
  obtain ⟨accounts, rfl⟩ := h
  exact ⟨.same rfl, .other hother, .same rfl⟩

theorem updateAccount_accounts {id : Uuid} {f : LinkedAccount → LinkedAccount} {s s' : State}
    {a : LinkedAccount} (h : updateAccount id f s = .ok (a, s')) :
    ∃ accounts, s' = { s with accounts := accounts } := by
  obtain ⟨row, -, heq⟩ := updateAccount_eq_ok h
  exact ⟨_, (Prod.mk.inj heq).2⟩

end Parts

theorem redeem_eq_ok {linkToken : String} {userId : Uuid} {s : State} {r : Unit × State}
    (h : redeem linkToken userId s = .ok r) : s.linkTokens.lookup linkToken = some ⟨some userId⟩ ∧
      r.2 = { s with linkTokens := s.linkTokens.erase linkToken } := by
  unfold redeem at h
  cases htoken : s.linkTokens.lookup linkToken with
  | none => simp [htoken] at h
  | some envelope =>
    obtain ⟨owner⟩ := envelope
    by_cases howner : owner = some userId
    · simp only [htoken, howner, Option.any_some, decide_true, if_true, Except.ok.injEq] at h
      exact ⟨by rw [howner], by rw [← h]⟩
    · simp [htoken, howner] at h

/-! ## The calls -/

/-- The accounts of an exchange, once its token is used up. -/
theorem does_createExchanged {now : Instant} {userId : Uuid} {publicToken : String}
    {inst : StubInstitution} {d : ExchangeDraws} (l : List (String × (Uuid × ℕ)))
    (own : List (State × State)) (hredeemed : ∃ y ∈ own, y.2.linkTokens ≠ y.1.linkTokens) :
    (createExchanged env now userId inst d l).Does (Did env (.exchange now userId publicToken d))
      (fun _ _ => True) own := by
  induction l generalizing own with
  | nil => trivial
  | cons a rest ih =>
    obtain ⟨accountType, id, mask⟩ := a
    refine does_statement fun s row s' h => ?_
    obtain ⟨-, heq⟩ := createAccount_eq_ok h
    obtain ⟨-, rfl⟩ := Prod.mk.inj heq
    refine ⟨⟨.same rfl, .exchanged hredeemed rfl, .same rfl⟩, ?_⟩
    obtain ⟨y, hy, hne⟩ := hredeemed
    exact does_bind ((ih _ ⟨y, List.mem_cons_of_mem _ hy, hne⟩).imp (fun _ h => h)
      fun own r _ => by cases r <;> trivial)

/-- A token is used up, then more. -/
theorem does_exchangePublicToken {α : Type} {c : Call} {own : List (State × State)}
    {publicToken : String} {userId : Uuid} {k : StubInstitution → Handler α}
    (hk : ∀ s, s.linkTokens.lookup (parsePublicToken publicToken).1 = some ⟨some userId⟩ →
      let s' := { s with linkTokens := s.linkTokens.erase (parsePublicToken publicToken).1 }
      TokenStep c s s' ∧ ∀ inst, (k inst).Does (Did env c) (fun _ _ => True) ((s, s') :: own)) :
    (exchangePublicToken publicToken userId >>= k).Does (Did env c) (fun _ _ => True) own := by
  refine does_bind (does_bind (does_attempt (fun s _ s' _ h => ?_)
    fun s _ _ _ => ⟨(SameTables.refl s).did, trivial⟩))
  obtain ⟨htoken, rfl⟩ := redeem_eq_ok h
  obtain ⟨hstep, hrest⟩ := hk s htoken
  exact ⟨⟨.same rfl, .same rfl, hstep⟩, hrest _⟩

/-- The result of a call is dropped. -/
theorem does_drop {α : Type} {c : Call} {p : Handler α} {own : List (State × State)}
    (hp : p.Does (Did env c) (fun _ _ => True) own) :
    (p >>= fun _ => (pure () : Handler Unit)).Does (Did env c) (fun _ _ => True) own :=
  does_bind (hp.imp (fun _ h => h) fun _ r _ => by cases r <;> trivial)

section Calls

variable {now : Instant} {userId id : Uuid}

theorem does_initiate (input : InitiateInput) (d : InitiateDraws) :
    (initiate env now userId input d).Does (Did env (.initiate now userId input d))
      (fun _ _ => True) [] := by
  unfold initiate
  split
  · trivial
  · split
    · trivial
    · split
      · trivial
      · refine does_statement fun s _ s' h => ?_
        obtain ⟨hnew, hs'⟩ := createRequest_eq_ok h
        dsimp only at hs'
        subst hs'
        refine ⟨did_requests (.created rfl hnew rfl), does_query fun s => ?_⟩
        apply does_of_same
        exact each_bind (each_notifySuperadmin ..) fun _ =>
          each_bind (each_emitChanged _) fun _ => trivial

theorem does_sendOtp (email : String) (d : OtpDraws) :
    (sendOtp env now userId id email d).Does (Did env (.sendOtp now userId id email d))
      (fun _ _ => True) [] := by
  unfold sendOtp
  dsimp only
  split
  · trivial
  · refine does_requireRow fun s₁ read hread howner => ?_
    split
    · trivial
    · rename_i hstatus
      refine does_statement fun s _ s' h => ?_
      obtain ⟨row, hrow, hs'⟩ := updateRequest_eq_ok h
      dsimp only at hs'
      subst hs'
      refine ⟨did_requests (.changed (.coded ⟨s₁, rfl, hread, howner, not_not.1 hstatus⟩) hrow rfl),
        ?_⟩
      apply does_of_same
      refine each_bind (each_bind (each_handOver _) fun _ => trivial) fun customerRes =>
        each_bind (each_sendOtpToAdmin ..) fun adminRes => ?_
      cases customerRes <;> cases adminRes <;> trivial

theorem does_verifyOtp (code : String) :
    (verifyOtp env now userId id code).Does (Did env (.verifyOtp now userId id code))
      (fun _ _ => True) [] := by
  unfold verifyOtp
  split
  · trivial
  · refine does_requireRow fun s₁ read hread howner => ?_
    split
    · trivial
    · rename_i hstatus
      have hfound : FoundOpen userId id [(s₁, s₁)] read :=
        ⟨s₁, rfl, hread, howner, not_not.1 hstatus⟩
      split
      · rename_i hash expiresAt hhash hexpires
        split
        · trivial
        · split
          · trivial
          · rename_i hearly
            split
            · trivial
            · rename_i hfew
              have hpasses : Comparable now hash read :=
                ⟨hhash, ⟨expiresAt, hexpires, not_lt.1 hearly⟩, not_le.1 hfew⟩
              split
              · rename_i hwrong
                refine does_statement fun s _ s' h => ?_
                obtain ⟨row, hrow, hs'⟩ := updateRequest_eq_ok h
                dsimp only at hs'
                subst hs'
                have hchange : Change env (.verifyOtp now userId id code) _ id row _ :=
                  .counted hfound hpasses (by simpa using hwrong)
                exact ⟨did_requests (.changed hchange hrow rfl), trivial⟩
              · rename_i hright
                refine does_last fun s _ s' h => ?_
                obtain ⟨row, hrow, hs'⟩ := updateRequest_eq_ok h
                dsimp only at hs'
                subst hs'
                have hchange : Change env (.verifyOtp now userId id code) _ id row _ :=
                  .verified hfound hpasses (by simpa using hright)
                exact did_requests (.changed hchange hrow rfl)
      · trivial

theorem does_approve (actorUserId : Uuid) (d : ApproveDraws) :
    (approve env now actorUserId id d).Does (Did env (.approve now actorUserId id d))
      (fun _ _ => True) [] := by
  unfold approve
  refine does_findRequest fun s₁ read hread => ?_
  split
  · trivial
  · rename_i hstatus
    cases AesGcm.decrypt env.gcm env.key (Base64.toText read.usernameEnc) with
    | error e => trivial
    | ok username =>
      refine does_statement fun s₂ _ s₃ h => ?_
      obtain ⟨hnew, heq⟩ := createAccount_eq_ok h
      obtain ⟨rfl, rfl⟩ := Prod.mk.inj heq
      refine ⟨⟨.same rfl, .captured hread (not_not.1 hstatus) hnew rfl, .same rfl⟩, ?_⟩
      refine does_statement fun s _ s' h => ?_
      obtain ⟨row, hrow, hs'⟩ := updateRequest_eq_ok h
      dsimp only at hs'
      subst hs'
      refine ⟨did_requests (.changed (.approved hread hnew rfl) hrow rfl), ?_⟩
      apply does_of_same
      exact each_bind (each_mailUser _ _) fun _ => each_bind (each_emitChanged _) fun _ => trivial

theorem does_reject (actorUserId : Uuid) (reason : String) :
    (reject now actorUserId id reason).Does (Did env (.reject now actorUserId id reason))
      (fun _ _ => True) [] := by
  unfold reject
  split
  · trivial
  · refine does_findRequest fun s₁ read hread => ?_
    split
    · trivial
    · refine does_statement fun s _ s' h => ?_
      obtain ⟨row, hrow, hs'⟩ := updateRequest_eq_ok h
      dsimp only at hs'
      subst hs'
      refine ⟨did_requests (.changed .rejected hrow rfl), ?_⟩
      apply does_of_same
      exact each_bind (each_mailUser _ _) fun _ => each_emitChanged _

end Calls

theorem handle_does (env : Env) (c : Call) :
    (handle env c).Does (Did env c) (fun _ _ => True) [] := by
  cases c with
  | initiate now userId input d => exact does_drop (does_initiate input d)
  | sendOtp now userId id email d => exact does_drop (does_sendOtp email d)
  | verifyOtp now userId id code => exact does_verifyOtp code
  | deleteMyRequest userId id =>
    refine does_requireRow fun s₁ read _ _ => ?_
    split
    · trivial
    · refine does_last fun s _ s' h => ?_
      obtain rfl := deleteRequest_eq_ok h
      exact did_requests (.deleted rfl)
  | approve now actorUserId id d => exact does_drop (does_approve actorUserId d)
  | reject now actorUserId id reason => exact does_reject actorUserId reason
  | deleteByAdmin now id =>
    refine does_findRequest fun s₁ read _ => does_statement fun s _ s' h => ?_
    obtain rfl := deleteRequest_eq_ok h
    exact ⟨did_requests (.deleted rfl), does_of_same (each_emitChanged _) _⟩
  | createLinkToken userId linkToken =>
    exact does_bind (does_bind (does_modify fun s _ =>
      ⟨⟨.same rfl, .same rfl, .issued rfl⟩, trivial⟩))
  | exchange now userId publicToken d =>
    refine does_drop (does_exchangePublicToken fun s htoken =>
      ⟨.exchanged htoken rfl, fun _ => does_createExchanged _ _ ?_⟩)
    refine ⟨_, List.mem_cons_self, fun heq => ?_⟩
    rw [← heq, AList.lookup_erase] at htoken
    cases htoken
  | sync now userId id =>
    refine does_drop (does_ownAccount fun s row => ?_)
    split
    · trivial
    · split <;> exact does_last fun s _ s' h => did_accounts trivial (updateAccount_accounts h)
  | reauth userId id linkToken =>
    refine does_drop (does_ownAccount fun s row => ?_)
    exact does_bind (does_modify fun s _ => ⟨⟨.same rfl, .same rfl, .issuedToNobody rfl⟩, trivial⟩)
  | completeReauth now userId id publicToken d =>
    refine does_drop (does_ownAccount fun _ _ => does_exchangePublicToken fun s htoken =>
      ⟨.renewed htoken rfl, fun _ => ?_⟩)
    exact does_last fun s _ s' h => did_accounts trivial (updateAccount_accounts h)
  | unlink userId id =>
    refine does_ownAccount fun s row => does_last fun s _ s' h => ?_
    obtain rfl := deleteAccount_eq_ok h
    exact did_accounts trivial ⟨_, rfl⟩

/-! ## Rows after a step -/

/-- A change leaves the request to its owner. -/
theorem Change.owner {c : Call} {own : List (State × State)} {id : Uuid}
    {row row' : LinkedAccountAuth} (h : Change env c own id row row') : row'.userId = row.userId := by
  cases h <;> rfl

/-- The row of a request after a step. -/
theorem RequestStep.lookup {c : Call} {own : List (State × State)} {s s' : State}
    (h : RequestStep env c own s s') {id : Uuid} {row' : LinkedAccountAuth}
    (hrow' : s'.requests.lookup id = some row') :
    s.requests.lookup id = some row' ∨
      (s.requests.lookup id = none ∧ ∃ now userId input d, c = .initiate now userId input d ∧
        row' = newRequest env now userId input d) ∨
      ∃ row, s.requests.lookup id = some row ∧ Change env c own id row row' := by
  cases h with
  | same h =>
    rw [h] at hrow'
    exact .inl hrow'
  | @created now userId input d hc hnew h =>
    rw [h, Table.lookup_insert_ite] at hrow'
    split at hrow'
    · rename_i hid
      subst hid
      exact .inr (.inl ⟨hnew, now, userId, input, d, hc, (Option.some.inj hrow').symm⟩)
    · exact .inl hrow'
  | @changed id' row _ hchange hrow h =>
    rw [h, Table.lookup_insert_ite] at hrow'
    split at hrow'
    · rename_i hid
      subst hid
      obtain rfl := Option.some.inj hrow'
      exact .inr (.inr ⟨row, hrow, hchange⟩)
    · exact .inl hrow'
  | @deleted id' h =>
    by_cases hid : id = id'
    · rw [h, hid, AList.lookup_erase] at hrow'
      cases hrow'
    · rw [h, AList.lookup_erase_ne hid] at hrow'
      exact .inl hrow'

end BankDemo.LinkedAccounts
