import BankDemo.Sessions.Service

/-!
# The realtime gateway

`RealtimeGateway`: a socket connects with a token in its handshake and is put into rooms; services
push events to rooms. The gateway takes the identity of a socket from the token alone and keeps it for
as long as the socket stays; a revoked session is told so (`Sessions/Service.lean`), and nothing else
happens to its sockets. Handlers of the gateway run to completion, so each is one action.

What an event carries is left out, apart from its name.
-/

namespace BankDemo.Identity

open Crypto

/-! ## Presence -/

/-- The role of the support staff. -/
def isStaff (role : Option UserRole) : Bool := role = some .admin ∨ role = some .superadmin

/-- `computePresence`. -/
def computePresence (presence : Table Uuid AdminPresence) : PresenceStatus :=
  if presence.entries.isEmpty then .offline
  else if presence.entries.any fun e => e.2.status = .online then .online
  else .away

/-- `broadcastPresence`. -/
def broadcastPresence (w : Realm) : Realm :=
  w.toAll (.presenceChanged (computePresence w.adminPresence))

/-- The presence entry of a user; without one, `fresh`. -/
def presenceOf (w : Realm) (userId : Uuid) (fresh : AdminPresence) : AdminPresence :=
  (w.adminPresence.lookup userId).getD fresh

/-! ## Connecting -/

/-- A text that is not empty. -/
def isPresent : Text → Bool
  | .other text => text ≠ ""
  | .signed _ => true

/-- What a socket presents: the bearer token of its headers, the tokens of its `auth` and the
`access_token` of its cookies. -/
structure Handshake where
  bearer : Option Text := none
  token : Option Text := none
  cookie : Option Text := none
  guestToken : Option Text := none
  deriving DecidableEq

/-- `extractToken`. -/
def extractToken (h : Handshake) : Option Text :=
  match h.bearer with
  | some text => some text
  | none =>
    match h.token.filter isPresent with
    | some text => some text
    | none => h.cookie

/-- `tryGuestConnection`: the socket in the room of its thread, if the guest token verifies. -/
def tryGuestConnection (now : Instant) (h : Handshake) : Option Socket :=
  match h.guestToken.filter isPresent with
  | none => none
  | some guestToken => (verifyGuestSupport now guestToken).map fun claims =>
      { userId := none, sessionId := none, role := none, guestThreadId := claims.tid,
        rooms := [.supportGuest claims.tid] }

/-- The socket of a token, in the rooms of its user, of its session and of the staff. -/
def socketOf (claims : Claims) : Socket where
  userId := claims.sub
  sessionId := claims.sid
  role := claims.role
  guestThreadId := none
  rooms := [.user claims.sub, .session claims.sid] ++
    if isStaff claims.role then [.supportAdmins] else []

/-- The socket that the gateway makes of a handshake, if it admits it. A guest token goes before all
others; a socket without a token that verifies may still be a guest. -/
def authenticate (now : Instant) (h : Handshake) : Option Socket :=
  if (h.guestToken.filter isPresent).isSome then tryGuestConnection now h
  else
    match (extractToken h).filter isPresent with
    | none => tryGuestConnection now h
    | some token =>
      match verifyAccess now token with
      | none => tryGuestConnection now h
      | some claims => some (socketOf claims)

/-- Without a guest token, a socket is what its access token says. -/
theorem authenticate_token {now : Instant} {h : Handshake}
    (hguest : h.guestToken.filter isPresent = none) :
    authenticate now h = ((extractToken h).filter isPresent).bind fun token =>
      (verifyAccess now token).map socketOf := by
  have hnone : tryGuestConnection now h = none := by simp [tryGuestConnection, hguest]
  unfold authenticate
  rw [if_neg (by simp [hguest]), hnone]
  cases (extractToken h).filter isPresent with
  | none => rfl
  | some token =>
    dsimp only [Option.bind_some]
    cases verifyAccess now token <;> rfl

/-- A socket that is admitted is that of an access token, or a guest's. -/
theorem authenticate_cases {now : Instant} {h : Handshake} {socket : Socket}
    (hauth : authenticate now h = some socket) :
    (h.guestToken.filter isPresent = none ∧ ∃ token claims,
      (extractToken h).filter isPresent = some token ∧ verifyAccess now token = some claims ∧
      socket = socketOf claims) ∨
    socket.sessionId = none ∧ ∃ tid, socket.rooms = [.supportGuest tid] := by
  cases hguest : h.guestToken.filter isPresent with
  | none =>
    rw [authenticate_token hguest] at hauth
    obtain ⟨token, htoken, hclaims⟩ := Option.bind_eq_some_iff.1 hauth
    obtain ⟨claims, hverify, rfl⟩ := Option.map_eq_some_iff.1 hclaims
    exact .inl ⟨rfl, token, claims, htoken, hverify, rfl⟩
  | some guestToken =>
    right
    unfold authenticate at hauth
    rw [if_pos (by simp [hguest])] at hauth
    simp only [tryGuestConnection, hguest] at hauth
    obtain ⟨claims, -, rfl⟩ := Option.map_eq_some_iff.1 hauth
    exact ⟨rfl, claims.tid, rfl⟩

/-- An admin's socket is counted, as `away` if it is the first one. -/
def addPresence (id userId : Uuid) (w : Realm) : Realm :=
  let entry := presenceOf w userId ⟨.away, []⟩
  let counted := { entry with sockets := entry.sockets.insert id }
  broadcastPresence { w with adminPresence := w.adminPresence.insert userId counted }

/-- `handleConnection`. A socket that is not admitted is disconnected. -/
def handleConnection (now : Instant) (id : Uuid) (h : Handshake) (w : Realm) : Realm :=
  match authenticate now h with
  | none => w
  | some socket =>
    let admitted := { w with sockets := w.sockets.insert id socket }
    match socket.userId, isStaff socket.role with
    | some userId, true => addPresence id userId admitted
    | _, _ => admitted

/-- `handleDisconnect`. -/
def handleDisconnect (id : Uuid) (w : Realm) : Realm :=
  let left := { w with sockets := w.sockets.erase id }
  match w.sockets.lookup id with
  | none => left
  | some socket =>
    match socket.userId, isStaff socket.role with
    | some userId, true =>
      match w.adminPresence.lookup userId with
      | none => left
      | some entry =>
        let sockets := entry.sockets.erase id
        if sockets.isEmpty then
          broadcastPresence { left with adminPresence := w.adminPresence.erase userId }
        else { left with adminPresence := w.adminPresence.insert userId { entry with sockets } }
    | _, _ => left

/-! ## Messages of sockets -/

/-- `onAdminPresence`: only `online` and `away` are taken from a socket. -/
def onAdminPresence (id : Uuid) (status : PresenceStatus) (w : Realm) : Realm :=
  match w.sockets.lookup id with
  | none => w
  | some socket =>
    match socket.userId, isStaff socket.role with
    | some userId, true =>
      if status = .offline then w
      else
        let entry := presenceOf w userId ⟨.away, [id]⟩
        if entry.status = status then w
        else broadcastPresence
          { w with adminPresence := w.adminPresence.insert userId { entry with status } }
    | _, _ => w

/-- `onPresenceQuery`: the answer goes to the socket alone. -/
def onPresenceQuery (id : Uuid) (w : Realm) : Realm :=
  let answer : Delivery := ⟨id, none, .presenceChanged (computePresence w.adminPresence)⟩
  if (w.sockets.lookup id).isSome then { w with delivered := w.delivered ++ [answer] } else w

/-! ## Events of services -/

/-- To a customer, or to the guest of a thread that is nobody's. -/
def customerRoom (customerUserId : Option Uuid) (threadId : Uuid) : Room :=
  match customerUserId with
  | some userId => .user (some userId)
  | none => .supportGuest (some threadId)

/-- `onTyping`: staff to the customer or the guest, the others to the staff. -/
def onTyping (id : Uuid) (threadId : Uuid) (customerUserId : Option Uuid) (w : Realm) : Realm :=
  match w.sockets.lookup id with
  | none => w
  | some socket =>
    let isGuest := socket.guestThreadId.isSome
    if ¬ isGuest ∧ (socket.role.isNone ∨ socket.userId.isNone) then w
    else if ¬ isGuest ∧ isStaff socket.role then
      w.toRoom (customerRoom customerUserId threadId) (.event "support.typing")
    else w.toRoom .supportAdmins (.event "support.typing")

/-- What a service tells the gateway. -/
inductive Event
  | transactionCreated (userId : Uuid)
  | transactionSettled (userId : Uuid)
  | transactionUpdated (userId : Uuid)
  | accountBalanceChanged (userId : Uuid)
  | linkedAccountChanged (userId : Uuid)
  | notificationCreated (userId : Uuid)
  | notificationRead (userId : Uuid)
  | adminMessage (userId : Uuid)
  | supportMessageCreated (customerUserId : Option Uuid) (threadId : Uuid)
  | supportThreadClosed (customerUserId : Option Uuid) (threadId : Uuid)
  | supportMessagesRead
  | adminQueueChanged
  deriving DecidableEq

/-- To the rooms of a user. -/
def toUser (userId : Uuid) (name : String) : Realm → Realm :=
  Realm.toRoom (.user (some userId)) (.event name)

/-- To the staff. -/
def toStaff (name : String) : Realm → Realm := Realm.toRoom .supportAdmins (.event name)

/-- The handlers of the events. -/
def onEvent : Event → Realm → Realm
  | .transactionCreated userId => toUser userId "transaction.created"
  | .transactionSettled userId => toUser userId "transaction.settled"
  | .transactionUpdated userId => toUser userId "transaction.updated"
  | .accountBalanceChanged userId => toUser userId "account.balanceChanged"
  | .linkedAccountChanged userId => toUser userId "linkedAccount.changed"
  | .notificationCreated userId => toUser userId "notification.created"
  | .notificationRead userId => toUser userId "notification.read"
  | .adminMessage userId => toUser userId "admin.message"
  | .supportMessageCreated customerUserId threadId => fun w => toStaff "support.message.created"
      (w.toRoom (customerRoom customerUserId threadId) (.event "support.message.created"))
  | .supportThreadClosed customerUserId threadId => fun w => toStaff "support.thread.closed"
      (w.toRoom (customerRoom customerUserId threadId) (.event "support.thread.closed"))
  | .supportMessagesRead => toStaff "support.messages.read"
  | .adminQueueChanged => toStaff "admin.queue.changed"

end BankDemo.Identity
