import BankDemo.Foundations.Prog
import BankDemo.Support.Attachments

/-!
# The support chat

`SupportService`: customers and guests open threads and post into them, the staff answers. A thread
carries the flag `unreadForAdmins`, which the queue of the staff counts; every handler that posts or
opens a thread writes it anew.

The names and the mail addresses of users are left out: a mail to the staff is one event.
-/

namespace BankDemo.Support

/-! ## The chat -/

inductive SupportThreadStatus
  | opened | closed
  deriving DecidableEq

inductive SupportSenderRole
  | customer | admin | guest
  deriving DecidableEq

structure SupportThread where
  userId : Option Uuid := none
  guestId : Option Uuid := none
  guestName : Option String := none
  guestEmail : Option String := none
  status : SupportThreadStatus
  lastMessageAt : Option Instant := none
  unreadForAdmins : Bool := true
  createdAt : Instant
  deriving DecidableEq

structure SupportMessage where
  threadId : Uuid
  senderId : Option Uuid
  senderRole : SupportSenderRole
  body : String
  createdAt : Instant
  readAt : Option Instant := none
  attachment : Option ProcessedAttachment := none
  deriving DecidableEq

/-- What the service emits. -/
inductive Event
  | messageCreated (threadId : Uuid) (customerUserId : Option Uuid) (messageId : Uuid)
      (message : SupportMessage)
  | messagesRead (threadId customerUserId : Uuid) (messageIds : List Uuid) (readAt : Instant)
  | threadClosed (threadId : Uuid) (customerUserId : Option Uuid) (closedByUserId : Option Uuid)
      (closedAt : Instant)
  | queueChanged (supportUnreadDelta : ℤ)
  /-- `notifyAdminsByEmail`, or `notifyAdminsGuestEmail` without a user. -/
  | adminsNotified (threadId : Uuid) (userId : Option Uuid) (body : String)
  deriving DecidableEq

/-- The threads, the messages, the objects in storage and what was emitted. -/
structure State where
  threads : Table Uuid SupportThread
  messages : Table Uuid SupportMessage
  objects : List StoredObject
  events : List Event

/-- A request handler over the chat. -/
abbrev Handler (α : Type) := Prog State Error α

/-- The body of a transaction. -/
abbrev Body (α : Type) := StateT State (Except Error) α

/-! ## Statements -/

/-- `supportThread.findUnique`. -/
def findThread (threadId : Uuid) : Handler (Option SupportThread) :=
  Prog.read fun s => s.threads.lookup threadId

/-- `supportThread.create`. -/
def createThread (id : Uuid) (thread : SupportThread) : Body Unit := fun s =>
  if (s.threads.lookup id).isSome then .error .uniqueViolation
  else .ok ((), { s with threads := s.threads.insert id thread })

/-- `supportThread.update`: the row after it. -/
def updateThread (id : Uuid) (f : SupportThread → SupportThread) : Body SupportThread := fun s =>
  match s.threads.lookup id with
  | none => .error .recordNotFound
  | some thread => .ok (f thread, { s with threads := s.threads.insert id (f thread) })

/-- `supportMessage.create`. -/
def createMessage (id : Uuid) (message : SupportMessage) : Body Unit := fun s =>
  if (s.messages.lookup id).isSome then .error .uniqueViolation
  else if (s.threads.lookup message.threadId).isNone then .error .foreignKey
  else .ok ((), { s with messages := s.messages.insert id message })

theorem createThread_eq_ok {s : State} {id : Uuid} {thread : SupportThread} {r : Unit × State}
    (h : createThread id thread s = .ok r) :
    s.threads.lookup id = none ∧ r.2 = { s with threads := s.threads.insert id thread } := by
  unfold createThread at h
  split at h
  · cases h
  · rename_i hnew
    cases h
    exact ⟨by simpa using hnew, rfl⟩

theorem updateThread_eq_ok {s : State} {id : Uuid} {f : SupportThread → SupportThread}
    {r : SupportThread × State} (h : updateThread id f s = .ok r) :
    ∃ thread, s.threads.lookup id = some thread ∧
      r.2 = { s with threads := s.threads.insert id (f thread) } := by
  unfold updateThread at h
  split at h
  · cases h
  · rename_i thread hthread
    cases h
    exact ⟨thread, hthread, rfl⟩

theorem createMessage_eq_ok {s : State} {id : Uuid} {m : SupportMessage} {r : Unit × State}
    (h : createMessage id m s = .ok r) :
    s.messages.lookup id = none ∧ r.2 = { s with messages := s.messages.insert id m } := by
  unfold createMessage at h
  split at h
  · cases h
  · rename_i hnew
    split at h
    · cases h
    · cases h
      exact ⟨by simpa using hnew, rfl⟩

/-- A statement, or several in a transaction. -/
def transaction {α : Type} (body : Body α) : Handler α := .attempt (fun _ => true) body

/-- `events.emit`. -/
def emit (event : Event) : Handler Unit :=
  .modify (fun _ => true) fun s => { s with events := s.events ++ [event] }

/-- `storage.put`. -/
def put (object : StoredObject) : Handler Unit :=
  .modify (fun _ => true) fun s => { s with objects := s.objects ++ [object] }

/-- `supportMessage.findMany`, of a thread, in the order of their instants. -/
def messagesOf (threadId : Uuid) (s : State) : List (Uuid × SupportMessage) :=
  ((s.messages.entries.map fun e => (e.1, e.2)).filter fun m =>
    m.2.threadId = threadId).insertionSort fun a b => a.2.createdAt ≤ b.2.createdAt

/-! ## Posting -/

/-- `emitMessageCreated`. -/
def emitMessageCreated (threadId : Uuid) (thread : SupportThread) (messageId : Uuid)
    (message : SupportMessage) : Handler Unit := do
  emit (.messageCreated threadId thread.userId messageId message)
  if message.senderRole = .customer ∨ message.senderRole = .guest then emit (.queueChanged 1)

/-- The transaction of a post: the message, and the thread with its flag. -/
def post (messageId : Uuid) (message : SupportMessage)
    (f : SupportThread → SupportThread) : Body Unit := do
  createMessage messageId message
  let _ ← updateThread message.threadId f

/-- `createAttachmentMessage`. -/
def createAttachmentMessage (now : Instant) (messageId threadId : Uuid) (thread : SupportThread)
    (senderRole : SupportSenderRole) (senderId : Uuid) (caption : String) (a : ProcessedAttachment)
    (unreadForAdmins : Bool) : Handler SupportMessage := do
  let message : SupportMessage := {
    threadId
    senderId := some senderId
    senderRole
    body := JsString.slice (JsString.trim caption) 4000
    createdAt := now
    attachment := some a }
  transaction (post messageId message fun t =>
    { t with lastMessageAt := some now, unreadForAdmins, status := .opened })
  emitMessageCreated threadId thread messageId message
  return message

/-- `attachments.process`, with the object stored. -/
def processAttachment (env : Env) (objectId threadId : Uuid) (file : IncomingFile) :
    Handler ProcessedAttachment := do
  let r ← Prog.lift (process env objectId threadId file)
  put r.1
  return r.2

/-! ## Customers -/

/-- `orderBy: { lastMessageAt: 'desc' }` puts threads without a message first. -/
def laterThread (a b : Uuid × SupportThread) : Prop :=
  match a.2.lastMessageAt, b.2.lastMessageAt with
  | none, _ => True
  | some _, none => False
  | some t, some u => u ≤ t

instance (a b : Uuid × SupportThread) : Decidable (laterThread a b) := by
  unfold laterThread
  split <;> infer_instance

/-- The open thread of the user with the latest message. -/
def openThread (userId : Uuid) (s : State) : Option (Uuid × SupportThread) :=
  (((s.threads.entries.map fun e => (e.1, e.2)).filter fun t =>
    t.2.userId = some userId && t.2.status = .opened).insertionSort laterThread).head?

/-- `openOrGetCustomerThread`. -/
def openOrGetCustomerThread (now : Instant) (id userId : Uuid) :
    Handler (Uuid × SupportThread) := do
  match ← Prog.read (openThread userId) with
  | some existing => return existing
  | none =>
    let thread : SupportThread := { userId := some userId, status := .opened, createdAt := now }
    transaction (createThread id thread)
    return (id, thread)

/-- `postCustomerMessage`. -/
def postCustomerMessage (now : Instant) (id userId threadId : Uuid) (body : String) :
    Handler SupportMessage := do
  let trimmed := JsString.trim body
  if trimmed = "" then throw (.forbidden "Empty message")
  else
    match (← findThread threadId).filter fun t => t.userId = some userId with
    | none => throw (.notFound "Thread not found")
    | some thread =>
      if thread.status = .closed then throw (.forbidden "THREAD_CLOSED")
      else
        let isFirstMessage ← Prog.read fun s => (messagesOf threadId s).isEmpty
        let message : SupportMessage := {
          threadId
          senderId := some userId
          senderRole := .customer
          body := trimmed
          createdAt := now }
        transaction (post id message fun t =>
          { t with lastMessageAt := some now, unreadForAdmins := true, status := .opened })
        emitMessageCreated threadId thread id message
        if isFirstMessage then emit (.adminsNotified threadId (some userId) trimmed)
        return message

/-- `postCustomerAttachment`. -/
def postCustomerAttachment (env : Env) (now : Instant) (id objectId userId threadId : Uuid)
    (caption : String) (file : IncomingFile) : Handler SupportMessage := do
  match (← findThread threadId).filter fun t => t.userId = some userId with
  | none => throw (.notFound "Thread not found")
  | some thread =>
    if thread.status = .closed then throw (.forbidden "THREAD_CLOSED")
    else
      let processed ← processAttachment env objectId threadId file
      createAttachmentMessage now id threadId thread .customer userId caption processed true

/-- `markAdminMessagesRead`: the messages marked. -/
def markAdminMessagesRead (now : Instant) (userId threadId : Uuid) : Handler (List Uuid) := do
  match (← findThread threadId).filter fun t => t.userId = some userId with
  | none => throw (.notFound "Thread not found")
  | some _ =>
    let ids ← Prog.read fun s => ((messagesOf threadId s).filter fun m =>
      m.2.senderRole = .admin && m.2.readAt.isNone).map Prod.fst
    if ids = [] then return []
    else
      transaction fun s => .ok ((), { s with
        messages := s.messages.updateMany (fun id _ => ids.contains id)
          fun m => { m with readAt := some now } })
      emit (.messagesRead threadId userId ids now)
      return ids

/-! ## The staff -/

/-- `listAdminMessages`: the thread is opened. -/
def listAdminMessages (threadId : Uuid) : Handler (List (Uuid × SupportMessage)) := do
  match ← findThread threadId with
  | none => throw (.notFound "Thread not found")
  | some thread =>
    if thread.unreadForAdmins then
      let _ ← transaction (updateThread threadId fun t => { t with unreadForAdmins := false })
      emit (.queueChanged (-1))
    Prog.read (messagesOf threadId)

/-- `postAdminMessage`. -/
def postAdminMessage (now : Instant) (id adminUserId threadId : Uuid) (body : String) :
    Handler SupportMessage := do
  let trimmed := JsString.trim body
  if trimmed = "" then throw (.forbidden "Empty message")
  else
    match ← findThread threadId with
    | none => throw (.notFound "Thread not found")
    | some thread =>
      let message : SupportMessage := {
        threadId
        senderId := some adminUserId
        senderRole := .admin
        body := trimmed
        createdAt := now }
      transaction (post id message fun t =>
        { t with lastMessageAt := some now, unreadForAdmins := false })
      emitMessageCreated threadId thread id message
      return message

/-- `postAdminAttachment`. -/
def postAdminAttachment (env : Env) (now : Instant) (id objectId adminUserId threadId : Uuid)
    (caption : String) (file : IncomingFile) : Handler SupportMessage := do
  match ← findThread threadId with
  | none => throw (.notFound "Thread not found")
  | some thread =>
    if thread.userId.isNone then
      throw (.forbidden "Attachments are not available in guest chats")
    else
      let processed ← processAttachment env objectId threadId file
      createAttachmentMessage now id threadId thread .admin adminUserId caption processed false

/-- `closeThread`. -/
def closeThread (now : Instant) (threadId : Uuid) (closedByUserId : Option Uuid) :
    Handler SupportThread := do
  let updated ← transaction (updateThread threadId fun t => { t with status := .closed })
  emit (.threadClosed threadId updated.userId closedByUserId now)
  return updated

/-- `reopenThread`. -/
def reopenThread (threadId : Uuid) : Handler SupportThread :=
  transaction (updateThread threadId fun t => { t with status := .opened })

/-! ## Guests -/

/-- `openGuestThread`. -/
def openGuestThread (now : Instant) (id guestId : Uuid) (name email : String) :
    Handler (Uuid × SupportThread) := do
  let guestName := JsString.slice (JsString.trim name) 120
  let thread : SupportThread := {
    guestId := some guestId
    guestName := some (if guestName = "" then "Guest" else guestName)
    guestEmail := some (JsString.slice (JsString.trim email) 200)
    status := .opened
    createdAt := now }
  transaction (createThread id thread)
  return (id, thread)

/-- `getGuestThread`. -/
def getGuestThread (threadId : Uuid) : Handler SupportThread := do
  match (← findThread threadId).filter fun t => t.guestId.isSome with
  | none => throw (.notFound "Thread not found")
  | some thread => return thread

/-- `postGuestMessage`. -/
def postGuestMessage (now : Instant) (id threadId : Uuid) (body : String) :
    Handler SupportMessage := do
  let trimmed := JsString.trim body
  if trimmed = "" then throw (.forbidden "Empty message")
  else
    let thread ← getGuestThread threadId
    if thread.status = .closed then throw (.forbidden "THREAD_CLOSED")
    else
      let isFirstMessage ← Prog.read fun s => (messagesOf threadId s).isEmpty
      let message : SupportMessage := {
        threadId
        senderId := none
        senderRole := .guest
        body := trimmed
        createdAt := now }
      transaction (post id message fun t =>
        { t with lastMessageAt := some now, unreadForAdmins := true, status := .opened })
      emitMessageCreated threadId thread id message
      if isFirstMessage then emit (.adminsNotified threadId none trimmed)
      return message

/-! ## Calls -/

/-- The calls of the chat that write, with their instants and the ids they draw. -/
inductive Call
  | openOrGetCustomerThread (now : Instant) (id userId : Uuid)
  | openGuestThread (now : Instant) (id guestId : Uuid) (name email : String)
  | postCustomerMessage (now : Instant) (id userId threadId : Uuid) (body : String)
  | postCustomerAttachment (now : Instant) (id objectId userId threadId : Uuid) (caption : String)
      (file : IncomingFile)
  | markAdminMessagesRead (now : Instant) (userId threadId : Uuid)
  | postGuestMessage (now : Instant) (id threadId : Uuid) (body : String)
  | listAdminMessages (threadId : Uuid)
  | postAdminMessage (now : Instant) (id adminUserId threadId : Uuid) (body : String)
  | postAdminAttachment (now : Instant) (id objectId adminUserId threadId : Uuid) (caption : String)
      (file : IncomingFile)
  | closeThread (now : Instant) (threadId : Uuid) (closedByUserId : Option Uuid)
  | reopenThread (threadId : Uuid)
  deriving DecidableEq

/-- The program of a call. -/
def handle (env : Env) : Call → Handler Unit
  | .openOrGetCustomerThread now id userId => do let _ ← openOrGetCustomerThread now id userId
  | .openGuestThread now id guestId name email => do
    let _ ← openGuestThread now id guestId name email
  | .postCustomerMessage now id userId threadId body => do
    let _ ← postCustomerMessage now id userId threadId body
  | .postCustomerAttachment now id objectId userId threadId caption file => do
    let _ ← postCustomerAttachment env now id objectId userId threadId caption file
  | .markAdminMessagesRead now userId threadId => do
    let _ ← markAdminMessagesRead now userId threadId
  | .postGuestMessage now id threadId body => do let _ ← postGuestMessage now id threadId body
  | .listAdminMessages threadId => do let _ ← listAdminMessages threadId
  | .postAdminMessage now id adminUserId threadId body => do
    let _ ← postAdminMessage now id adminUserId threadId body
  | .postAdminAttachment now id objectId adminUserId threadId caption file => do
    let _ ← postAdminAttachment env now id objectId adminUserId threadId caption file
  | .closeThread now threadId closedByUserId => do let _ ← closeThread now threadId closedByUserId
  | .reopenThread threadId => do let _ ← reopenThread threadId

end BankDemo.Support
