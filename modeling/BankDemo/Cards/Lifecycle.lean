import BankDemo.Cards.Service
import BankDemo.Foundations.Interleave

/-!
# The life of a card

`CardsService.setStatus`, `replaceVirtual` and `activate`: each reads the card, checks it and then
writes by its id, whatever the card has become since. The transaction of `replaceVirtual` is one action.

The number and the code of a card, which are stored encrypted, are left out.
-/

namespace BankDemo.CardLifecycle

open Accounts

inductive CardStatus
  | active | frozen | replaced | shipped | delivered | closed
  deriving DecidableEq

/-- The name of a status. -/
def CardStatus.text : CardStatus → String
  | .active => "active"
  | .frozen => "frozen"
  | .replaced => "replaced"
  | .shipped => "shipped"
  | .delivered => "delivered"
  | .closed => "closed"

/-- A card, with its status and what belongs to it. -/
structure Card extends Accounts.Card where
  status : CardStatus
  activatedAt : Option Instant
  frozenAt : Option Instant
  replacedFromCardId : Option Uuid
  deriving DecidableEq

/-- The payload of `card.updated`. -/
structure CardUpdatedPayload where
  userId : Uuid
  cardId : Uuid
  status : CardStatus
  at_ : Instant
  deriving DecidableEq

/-- The cards, whose the accounts are, and the events emitted. -/
structure State where
  cards : Table Uuid Card
  accounts : Table Uuid Uuid
  events : List CardUpdatedPayload

/-- A request handler over the cards. -/
abbrev Handler (α : Type) := Prog State Error α

/-- The body of a transaction. -/
abbrev Body (α : Type) := StateT State (Except Error) α

/-! ## Statements -/

/-- `card.update`, by the id. -/
def update (id : Uuid) (f : Card → Card) : Body Card := fun s =>
  match s.cards.lookup id with
  | none => .error .recordNotFound
  | some card => .ok (f card, { s with cards := s.cards.insert id (f card) })

/-- `card.create`. -/
def create (id : Uuid) (card : Card) : Body Unit := fun s =>
  if (s.cards.lookup id).isSome then .error .uniqueViolation
  else if (s.accounts.lookup card.accountId).isNone then .error .foreignKey
  else .ok ((), { s with cards := s.cards.insert id card })

/-- A statement, or several in a transaction. -/
def transaction {α : Type} (body : Body α) : Handler α := .attempt (fun _ => true) body

/-- `events.emit`. -/
def emit (payload : CardUpdatedPayload) : Handler Unit :=
  .modify (fun _ => true) fun s => { s with events := s.events ++ [payload] }

/-! ## The service -/

/-- What a new card draws: its id and the digits of its number. -/
structure CardDraws where
  cardId : Uuid
  panBody : List ℕ
  deriving DecidableEq

/-- `issue`, in a transaction: the new card and its id. -/
def issue (cfg : Config) (d : CardDraws) (now : Instant) (accountId : Uuid) (type : CardType) :
    Body (Uuid × Card) := do
  let pan ← liftM (Cards.generatePan cfg.cardDemoBin d.panBody)
  let card : Card := {
    accountId
    type
    last4 := Cards.last4 pan
    expMonth := (Cards.generateExpiry now).1
    expYear := (Cards.generateExpiry now).2
    spendingLimitCents := cfg.cardDefaultSpendingLimitCents
    status := .active
    activatedAt := none
    frozenAt := none
    replacedFromCardId := none }
  create d.cardId card
  return (d.cardId, card)

/-- `getForUser`. -/
def getForUser (userId id : Uuid) : Handler Card := do
  match ← Prog.read fun s =>
      (s.cards.lookup id).filter fun card => s.accounts.lookup card.accountId = some userId with
  | none => throw (.notFound "Card not found")
  | some card => return card

/-- What a user can switch a card to. -/
inductive Target
  | active | frozen
  deriving DecidableEq

/-- The status of a target. -/
def Target.status : Target → CardStatus
  | .active => .active
  | .frozen => .frozen

/-- The card is active or frozen. -/
def Card.inUse (card : Card) : Bool := card.status = .active || card.status = .frozen

/-- The card is on its way. -/
def Card.sent (card : Card) : Bool := card.status = .shipped || card.status = .delivered

/-- `setStatus`. -/
def setStatus (now : Instant) (userId id : Uuid) (target : Target) : Handler Card := do
  let card ← getForUser userId id
  if ¬ card.inUse then throw (.badRequest s!"Cannot toggle a {card.status.text} card")
  else
    let updated ← transaction (update id fun card => { card with
      status := target.status
      frozenAt := if target = .frozen then some now else none })
    emit ⟨userId, id, updated.status, now⟩
    return updated

/-- The transaction of `replaceVirtual`: the new card, as it was created. -/
def replace (cfg : Config) (d : CardDraws) (now : Instant) (card : Card) (id : Uuid) :
    Body Card := do
  let _ ← update id fun card => { card with status := .replaced }
  let fresh ← issue cfg d now card.accountId .virtual
  let _ ← update fresh.1 fun card => { card with replacedFromCardId := some id }
  return fresh.2

/-- `replaceVirtual`. -/
def replaceVirtual (cfg : Config) (d : CardDraws) (now : Instant) (userId id : Uuid) :
    Handler Card := do
  let card ← getForUser userId id
  if card.type ≠ .virtual then
    throw (.badRequest "Only virtual cards can be replaced this way")
  else if ¬ card.inUse then throw (.badRequest "Card is not replaceable")
  else transaction (replace cfg d now card id)

/-- `activate`. -/
def activate (now : Instant) (userId cardId : Uuid) : Handler Card := do
  let card ← getForUser userId cardId
  if ¬ card.sent then throw (.badRequest "Card cannot be activated from current status")
  else
    let updated ← transaction (update cardId fun card => { card with
      status := .active
      activatedAt := some now })
    emit ⟨userId, cardId, updated.status, now⟩
    return updated

/-! ## Calls -/

inductive Call
  | setStatus (now : Instant) (userId id : Uuid) (target : Target)
  | replaceVirtual (now : Instant) (userId id : Uuid) (d : CardDraws)
  | activate (now : Instant) (userId id : Uuid)
  deriving DecidableEq

/-- The card that a call is about. -/
def Call.cardId : Call → Uuid
  | .setStatus _ _ id _ | .replaceVirtual _ _ id _ | .activate _ _ id => id

/-- The handler of a call. -/
def handle (cfg : Config) : Call → Handler Card
  | .setStatus now userId id target => setStatus now userId id target
  | .replaceVirtual now userId id d => replaceVirtual cfg d now userId id
  | .activate now userId id => activate now userId id

end BankDemo.CardLifecycle
