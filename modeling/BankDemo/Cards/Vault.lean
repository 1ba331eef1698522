import BankDemo.Cards.Lifecycle
import BankDemo.Crypto.AesGcm

/-!
# The secrets of a card

The number and the code of a card are stored encrypted, by `CardPanService`, in columns of their own
(`CardSecrets`, under the id of the card). `issue` draws and encrypts them, `reveal` decrypts them for the
owner of an active card. The other calls of `CardsService` are those of `Cards/Lifecycle.lean`, on the
part of the state that has the other columns, and `orderPhysical` only leaves an order.
-/

namespace BankDemo.CardVault

open Accounts CardLifecycle AesGcm

/-- The encrypted columns of a card. -/
structure CardSecrets where
  panCiphertext : List UInt8
  panKeyId : String
  cvvCiphertext : List UInt8
  cvvKeyId : String
  deriving DecidableEq

structure CardOrder where
  userId : Uuid
  shipAddress : String
  etaDays : ℕ
  deriving DecidableEq

/-- The cards with all their columns, the types of the accounts, and the orders. -/
structure Vault where
  cards : CardLifecycle.State
  secrets : Table Uuid CardSecrets
  accountTypes : Uuid → AccountType
  orders : List CardOrder

/-- The part without the secrets. -/
def cardsPart : Prog.Part Vault CardLifecycle.State where
  get := Vault.cards
  put := fun s v => { v with cards := s }
  get_put := fun _ _ => rfl
  put_get := fun _ => rfl
  put_put := fun _ _ _ => rfl

/-- What the services are configured with. -/
structure Env where
  cfg : Config
  gcm : Gcm
  key : Key

/-- A request handler over the vault. -/
abbrev Handler (α : Type) := Prog Vault Error α

/-- The body of a transaction. -/
abbrev Body (α : Type) := StateT Vault (Except Error) α

variable (env : Env)

/-! ## `CardPanService` -/

/-- `encrypt`: the ciphertext. The key id is `local-aes-v1`. -/
def encryptPan (iv : Nonce) (plaintext : String) : List UInt8 :=
  Base64.ofText (encrypt env.gcm env.key iv plaintext)

/-- `decrypt`. -/
def decryptPan (ciphertext : List UInt8) : Except Error String :=
  decrypt env.gcm env.key (Base64.toText ciphertext)

/-! ## `CardsService` -/

/-- What a new card draws: its id, the digits of its number, its code and two nonces. -/
structure VaultDraws extends CardDraws where
  cvv : ℕ
  panIv : Nonce
  cvvIv : Nonce
  deriving DecidableEq

/-- The digits of a number, as text. -/
def panText (pan : List ℕ) : String := String.join (pan.map toString)

/-- `generateCvv`, with the number drawn. -/
def generateCvv (d : VaultDraws) : String := JsDate.pad 3 d.cvv

/-- The row of a new card, but for its secrets. -/
def newCard (pan : List ℕ) (now : Instant) (accountId : Uuid) (type : CardType)
    (spendingLimitCents : Option ℤ) : CardLifecycle.Card where
  accountId
  type
  last4 := Cards.last4 pan
  expMonth := (Cards.generateExpiry now).1
  expYear := (Cards.generateExpiry now).2
  spendingLimitCents := spendingLimitCents.getD env.cfg.cardDefaultSpendingLimitCents
  status := .active
  activatedAt := none
  frozenAt := none
  replacedFromCardId := none

/-- The secrets of a new card. -/
def newSecrets (d : VaultDraws) (pan : List ℕ) : CardSecrets where
  panCiphertext := encryptPan env d.panIv (panText pan)
  panKeyId := "local-aes-v1"
  cvvCiphertext := encryptPan env d.cvvIv (generateCvv d)
  cvvKeyId := "local-aes-v1"

/-- A statement on the part without the secrets. -/
def onCards {α : Type} (body : CardLifecycle.Body α) : Body α := fun v =>
  (body v.cards).map fun r => (r.1, { v with cards := r.2 })

/-- `card.create`, with all columns. -/
def create (id : Uuid) (card : CardLifecycle.Card) (secrets : CardSecrets) : Body Unit := fun v =>
  (CardLifecycle.create id card v.cards).map fun r =>
    (r.1, { v with cards := r.2, secrets := v.secrets.insert id secrets })

/-- `issue`: the id of the card, and its row. -/
def issue (d : VaultDraws) (now : Instant) (accountId : Uuid) (type : CardType)
    (spendingLimitCents : Option ℤ) : Body (Uuid × CardLifecycle.Card) := do
  let pan ← liftM (Cards.generatePan env.cfg.cardDemoBin d.panBody)
  let card := newCard env pan now accountId type spendingLimitCents
  create d.cardId card (newSecrets env d pan)
  return (d.cardId, card)

/-- A statement, or several in a transaction. -/
def transaction {α : Type} (body : Body α) : Handler α := .attempt (fun _ => true) body

/-- `getForUser`, with the secrets. -/
def getForUser (userId id : Uuid) : Handler (CardLifecycle.Card × CardSecrets) := do
  match ← Prog.read fun v : Vault => (((v.cards.cards.lookup id).filter fun card =>
      v.cards.accounts.lookup card.accountId = some userId).bind fun card =>
        (v.secrets.lookup id).map fun secrets => (card, secrets)) with
  | none => throw (.notFound "Card not found")
  | some found => return found

/-- What `reveal` answers. -/
structure Revealed where
  pan : String
  cvv : String
  expMonth : ℤ
  expYear : ℤ
  deriving DecidableEq

/-- `reveal`. -/
def reveal (userId id : Uuid) : Handler Revealed := do
  let found ← getForUser userId id
  if found.1.status ≠ .active then throw (.badRequest "Cannot reveal a non-active card")
  else
    let pan ← Prog.lift (decryptPan env found.2.panCiphertext)
    let cvv ← Prog.lift (decryptPan env found.2.cvvCiphertext)
    return ⟨pan, cvv, found.1.expMonth, found.1.expYear⟩

/-- The transaction of `replaceVirtual`. -/
def replace (d : VaultDraws) (now : Instant) (card : CardLifecycle.Card) (id : Uuid) :
    Body CardLifecycle.Card := do
  let _ ← onCards (update id fun card => { card with status := .replaced })
  let fresh ← issue env d now card.accountId .virtual none
  let _ ← onCards (update fresh.1 fun card => { card with replacedFromCardId := some id })
  return fresh.2

/-- `replaceVirtual`. -/
def replaceVirtual (now : Instant) (userId id : Uuid) (d : VaultDraws) :
    Handler CardLifecycle.Card := do
  let found ← getForUser userId id
  if found.1.type ≠ .virtual then
    throw (.badRequest "Only virtual cards can be replaced this way")
  else if ¬ found.1.inUse then throw (.badRequest "Card is not replaceable")
  else transaction (replace env d now found.1 id)

/-- `orderPhysical`. -/
def orderPhysical (userId accountId : Uuid) (shipAddress : String) : Handler Unit := do
  match ← Prog.read fun v : Vault => v.cards.accounts.lookup accountId with
  | none => throw (.forbidden "Not your account")
  | some owner =>
    if owner ≠ userId then throw (.forbidden "Not your account")
    else
      let type ← Prog.read fun v : Vault => v.accountTypes accountId
      if type ≠ .checking then throw (.badRequest "Physical cards only for checking")
      else Prog.modify (fun _ => true) fun v =>
        { v with orders := v.orders ++ [⟨userId, shipAddress, 7⟩] }

/-- `onAccountCreated`: failures are logged. -/
def onAccountCreated (now : Instant) (d : VaultDraws) (payload : Cards.AccountCreatedPayload) :
    Handler Unit :=
  if payload.type ≠ .checking then pure ()
  else tryCatch (do
    let _ ← transaction (issue env d now payload.accountId .virtual none)
    pure ()) fun _ => pure ()

/-! ## Calls -/

inductive Call
  | accountCreated (now : Instant) (d : VaultDraws) (payload : Cards.AccountCreatedPayload)
  | setStatus (now : Instant) (userId id : Uuid) (target : Target)
  | replaceVirtual (now : Instant) (userId id : Uuid) (d : VaultDraws)
  | activate (now : Instant) (userId id : Uuid)
  | reveal (userId id : Uuid)
  | orderPhysical (userId accountId : Uuid) (shipAddress : String)
  deriving DecidableEq

/-- The handler of a call, with the answer of `reveal`. -/
def handle : Call → Handler (Option Revealed)
  | .accountCreated now d payload => do
    onAccountCreated env now d payload
    return none
  | .setStatus now userId id target => do
    let _ ← (CardLifecycle.setStatus now userId id target).zoom cardsPart
    return none
  | .replaceVirtual now userId id d => do
    let _ ← replaceVirtual env now userId id d
    return none
  | .activate now userId id => do
    let _ ← (CardLifecycle.activate now userId id).zoom cardsPart
    return none
  | .reveal userId id => do
    let revealed ← reveal env userId id
    return some revealed
  | .orderPhysical userId accountId shipAddress => do
    orderPhysical userId accountId shipAddress
    return none

end BankDemo.CardVault
