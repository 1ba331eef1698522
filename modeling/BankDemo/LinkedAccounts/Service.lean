import BankDemo.LinkedAccounts.Auth

/-!
# Linking by a token

`LinkedAccountsService` over `PlaidStubProvider`: a link token is issued to a user and exchanged, with an
institution, for the accounts there. The tokens are kept in memory, and looking one up, comparing its
user and deleting it happen without a pause, so `redeem` is one action.

`reauth` issues its token to `reauth-context`, which is the id of nobody.
-/

namespace BankDemo.LinkedAccounts

open AesGcm

/-! ## The catalog -/

structure StubInstitution where
  id : String
  name : String
  color : String
  monogram : String
  accountTypes : List String
  deriving DecidableEq

/-- `STUB_INSTITUTIONS`. -/
def stubInstitutions : List StubInstitution := [
  ⟨"ins_chase_stub", "Chase", "#117ACA", "CH", ["checking", "savings", "credit"]⟩,
  ⟨"ins_bofa_stub", "Bank of America", "#E31837", "BA", ["checking", "savings", "credit"]⟩,
  ⟨"ins_wf_stub", "Wells Fargo", "#D71E28", "WF", ["checking", "savings"]⟩,
  ⟨"ins_citi_stub", "Citi", "#003B70", "CI", ["checking", "savings", "credit"]⟩,
  ⟨"ins_capone_stub", "Capital One", "#D03027", "C1", ["checking", "savings", "credit"]⟩,
  ⟨"ins_usbank_stub", "US Bank", "#0C2074", "US", ["checking", "savings"]⟩,
  ⟨"ins_pnc_stub", "PNC", "#F58025", "PN", ["checking", "savings"]⟩,
  ⟨"ins_td_stub", "TD Bank", "#54B848", "TD", ["checking", "savings"]⟩,
  ⟨"ins_truist_stub", "Truist", "#492E81", "TR", ["checking", "savings"]⟩,
  ⟨"ins_ally_stub", "Ally", "#6E2585", "AL", ["checking", "savings"]⟩,
  ⟨"ins_discover_stub", "Discover", "#FF6000", "DI", ["savings", "credit"]⟩,
  ⟨"ins_schwab_stub", "Charles Schwab", "#00A0DF", "SC", ["checking", "brokerage"]⟩,
  ⟨"ins_fidelity_stub", "Fidelity", "#368727", "FI", ["checking", "brokerage"]⟩,
  ⟨"ins_sofi_stub", "SoFi", "#00A1DF", "SF", ["checking", "savings"]⟩,
  ⟨"ins_amex_stub", "American Express", "#016FD0", "AX", ["savings", "credit"]⟩,
  ⟨"ins_hsbc_stub", "HSBC", "#DB0011", "HS", ["checking", "savings"]⟩,
  ⟨"ins_marcus_stub", "Goldman / Marcus", "#7399C6", "MA", ["savings"]⟩,
  ⟨"ins_navyfcu_stub", "Navy Federal", "#003366", "NF", ["checking", "savings"]⟩,
  ⟨"ins_usaa_stub", "USAA", "#003366", "UA", ["checking", "savings"]⟩,
  ⟨"ins_firstrep_stub", "First Republic", "#103E68", "FR", ["checking", "savings"]⟩]

/-- `REAUTH_PRONE_INSTITUTIONS`. -/
def reauthProneInstitutions : List String := ["ins_chase_stub", "ins_wf_stub"]

/-- `findInstitution`. -/
def findInstitution (id : String) : Option StubInstitution :=
  stubInstitutions.find? fun i => i.id = id

/-- `s.includes(t)`. -/
def includes (s t : String) : Bool := s.toList.tails.any fun l => t.toList.isPrefixOf l

variable (env : Env) (now : Instant)

/-- `searchInstitutions`. -/
def searchInstitutions (q : Option String) : List StubInstitution :=
  match q with
  | none => stubInstitutions
  | some q =>
    let needle := env.toLowerCase (JsString.trim q)
    if needle = "" then stubInstitutions
    else stubInstitutions.filter fun i =>
      includes (env.toLowerCase i.name) needle || includes (env.toLowerCase i.id) needle

/-! ## The provider -/

/-- `createLinkToken`, with the token drawn. -/
def issueToken (linkToken : String) (userId : Option Uuid) : Handler String := do
  Prog.modify (fun _ => true) fun s =>
    { s with linkTokens := s.linkTokens.insert linkToken ⟨userId⟩ }
  return linkToken

/-- The token and the institution in a public token. -/
def parsePublicToken (publicToken : String) : String × Option String :=
  match JsString.split publicToken '|' with
  | linkToken :: institutionId :: _ => (linkToken, some institutionId)
  | [linkToken] => (linkToken, none)
  | [] => ("", none)

/-- The check of a token, which uses it up. -/
def redeem (linkToken : String) (userId : Uuid) (s : State) : Except Error (Unit × State) :=
  if (s.linkTokens.lookup linkToken).any fun envelope => envelope.userId = some userId then
    .ok ((), { s with linkTokens := s.linkTokens.erase linkToken })
  else .error (.notFound "Invalid public token")

/-- What an exchange draws: the item, the access token and its nonce, and for each account an id and a
mask. -/
structure ExchangeDraws where
  itemId : String
  accessToken : String
  iv : Nonce
  accounts : List (Uuid × ℕ)
  deriving DecidableEq

/-- The institution that an exchange is with: the first one where the id is unknown. -/
def institutionOf (institutionId : Option String) : StubInstitution :=
  (institutionId.bind findInstitution).getD (stubInstitutions.head (List.cons_ne_nil _ _))

/-- The types of the accounts of an exchange: the first two, or the only one. -/
def exchangedTypes (inst : StubInstitution) : List String :=
  inst.accountTypes.take (if 2 ≤ inst.accountTypes.length then 2 else 1)

/-- `exchangePublicToken`. -/
def exchangePublicToken (publicToken : String) (userId : Uuid) : Handler StubInstitution := do
  let parsed := parsePublicToken publicToken
  statement (redeem parsed.1 userId)
  return institutionOf parsed.2

/-- `shouldRequireReauth`. -/
def shouldRequireReauth (institutionId : String) (userId : Uuid) : Bool :=
  reauthProneInstitutions.contains institutionId && env.reauthDraw institutionId userId now

/-! ## The service -/

/-- The user's account. -/
def ownAccount (userId id : Uuid) : Handler LinkedAccount := do
  match ← query fun s => s.accounts.lookup id with
  | none => throw (.notFound "Linked account not found")
  | some row =>
    if row.userId ≠ userId then throw (.notFound "Linked account not found") else return row

/-- `accessTokenEnc` of a new access token. -/
def accessEnc (d : ExchangeDraws) : List UInt8 :=
  Base64.ofText (encrypt env.gcm env.key d.iv d.accessToken)

/-- An account of an exchange. -/
def exchangedAccount (userId : Uuid) (inst : StubInstitution) (d : ExchangeDraws)
    (accountType : String) (mask : ℕ) : LinkedAccount where
  userId
  providerItemId := d.itemId
  institutionId := inst.id
  institutionName := inst.name
  mask := toString mask
  accountType
  accessTokenEnc := accessEnc env d
  accessTokenKeyId := "local-aes-v1"
  status := .connected
  lastSyncedAt := some now
  createdAt := now

/-- The accounts of an exchange, one statement each. -/
def createExchanged (userId : Uuid) (inst : StubInstitution) (d : ExchangeDraws) :
    List (String × (Uuid × ℕ)) → Handler (List LinkedAccount)
  | [] => pure []
  | (accountType, id, mask) :: rest => do
    let row ← statement (createAccount id (exchangedAccount env now userId inst d accountType mask))
    let rows ← createExchanged userId inst d rest
    return row :: rows

/-- `exchange`. -/
def exchange (userId : Uuid) (publicToken : String) (d : ExchangeDraws) :
    Handler (List LinkedAccount) := do
  let inst ← exchangePublicToken publicToken userId
  createExchanged env now userId inst d ((exchangedTypes inst).zip d.accounts)

/-- `sync`. What `getBalances` answers is not used, and its failure is logged. -/
def sync (userId id : Uuid) : Handler LinkedAccount := do
  let row ← ownAccount userId id
  if row.status = .disconnected then throw (.notFound "Linked account disconnected")
  else if shouldRequireReauth env now row.institutionId userId then
    statement (updateAccount id fun row =>
      { row with status := .requiresReauth, lastSyncedAt := some now })
  else
    statement (updateAccount id fun row =>
      { row with lastSyncedAt := some now, status := .connected })

/-- `reauth`: a link token for nobody. -/
def reauth (userId id : Uuid) (linkToken : String) : Handler String := do
  let _row ← ownAccount userId id
  issueToken linkToken none

/-- `completeReauth`. -/
def completeReauth (userId id : Uuid) (publicToken : String) (d : ExchangeDraws) :
    Handler LinkedAccount := do
  let _row ← ownAccount userId id
  let _inst ← exchangePublicToken publicToken userId
  statement (updateAccount id fun row =>
    { row with
      providerItemId := d.itemId
      accessTokenEnc := accessEnc env d
      status := .connected
      lastSyncedAt := some now })

/-- `unlink`. -/
def unlink (userId id : Uuid) : Handler Unit := do
  let _row ← ownAccount userId id
  statement (deleteAccount id)

/-- `list`, the newest first. -/
def list (userId : Uuid) : Handler (List (Uuid × LinkedAccount)) :=
  query fun s =>
    ((s.accounts.entries.filter fun e => e.2.userId = userId).mergeSort fun a b =>
      b.2.createdAt ≤ a.2.createdAt).map fun e => (e.1, e.2)

/-! ## Calls

The calls that only read change nothing and are left out. -/

inductive Call
  | initiate (now : Instant) (userId : Uuid) (input : InitiateInput) (d : InitiateDraws)
  | sendOtp (now : Instant) (userId id : Uuid) (email : String) (d : OtpDraws)
  | verifyOtp (now : Instant) (userId id : Uuid) (code : String)
  | deleteMyRequest (userId id : Uuid)
  | approve (now : Instant) (actorUserId id : Uuid) (d : ApproveDraws)
  | reject (now : Instant) (actorUserId id : Uuid) (reason : String)
  | deleteByAdmin (now : Instant) (id : Uuid)
  | createLinkToken (userId : Uuid) (linkToken : String)
  | exchange (now : Instant) (userId : Uuid) (publicToken : String) (d : ExchangeDraws)
  | sync (now : Instant) (userId id : Uuid)
  | reauth (userId id : Uuid) (linkToken : String)
  | completeReauth (now : Instant) (userId id : Uuid) (publicToken : String) (d : ExchangeDraws)
  | unlink (userId id : Uuid)
  deriving DecidableEq

/-- The handler of a call. -/
def handle : Call → Handler Unit
  | .initiate now userId input d => do let _ ← initiate env now userId input d
  | .sendOtp now userId id email d => do let _ ← sendOtp env now userId id email d
  | .verifyOtp now userId id code => verifyOtp env now userId id code
  | .deleteMyRequest userId id => deleteMyRequest userId id
  | .approve now actorUserId id d => do let _ ← approve env now actorUserId id d
  | .reject now actorUserId id reason => reject now actorUserId id reason
  | .deleteByAdmin now id => deleteByAdmin now id
  | .createLinkToken userId linkToken => do let _ ← issueToken linkToken (some userId)
  | .exchange now userId publicToken d => do let _ ← exchange env now userId publicToken d
  | .sync now userId id => do let _ ← sync env now userId id
  | .reauth userId id linkToken => do let _ ← reauth userId id linkToken
  | .completeReauth now userId id publicToken d => do
    let _ ← completeReauth env now userId id publicToken d
  | .unlink userId id => unlink userId id

end BankDemo.LinkedAccounts
