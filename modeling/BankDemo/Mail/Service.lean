import BankDemo.Documents.Storage
import BankDemo.Foundations.JsString
import BankDemo.Foundations.Prog
import BankDemo.Foundations.Table
import BankDemo.Store
import Mathlib.Data.List.Sort

/-!
# Inbound mail

`MailService.handleInbound`: the webhook tells of an email that was received; its thread is found by
the reply token of an address or by the messages it refers to, the email is fetched, and a message
is added to the thread with the attachments that can be had. What the provider answers is part of a
delivery of the event. The helpers of `mail.service.ts` that read addresses, headers and names of
files come first.

Sending mail is left out, and so are the sanitizer and the conversion to text, which are given.
-/

namespace BankDemo.Mail

open Documents (Buffer)

open JsString (isSpace)

/-! ## Addresses, headers and names of files -/

/-- The first match of `/<([^>]+)>/`. -/
def angled : List Char → Option (List Char)
  | [] => none
  | c :: cs =>
    let inner := cs.takeWhile fun d => d ≠ '>'
    if c = '<' ∧ inner ≠ [] ∧ inner.length < cs.length then some inner else angled cs

/-- `extractEmail`. -/
def extractEmail (addr : String) : String :=
  JsString.trim (((angled addr.toList).map String.ofList).getD addr)

/-- `extractName`: what is before the first `<`, without quotes around it. A quote elsewhere makes
that no name; blanks alone are an empty one. -/
def extractName (addr : String) : Option String :=
  let front := addr.toList.takeWhile fun c => c ≠ '<'
  let quoted := front.dropWhile isSpace
  let inner := if quoted.head? = some '\x22' then quoted.tail else quoted
  let name := inner.takeWhile fun c => c ≠ '\x22'
  let after := (inner.dropWhile fun c => c ≠ '\x22').tail
  if front.length = addr.toList.length ∨ ¬ after.all isSpace then none
  else if name ≠ [] then some (JsString.trim (String.ofList name))
  else if (quoted = [] ∨ quoted = ['\x22']) ∧ quoted.length < front.length then some ""
  else none

/-- `parseToken`: the token of `t-<token>@<replyDomain>`. -/
def parseToken (toLowerCase : String → String) (replyDomain address : String) : Option String :=
  let email := (toLowerCase (extractEmail address)).toList
  let rest := email.drop 2
  let token := rest.takeWhile fun c => c.isDigit || ('a' ≤ c && c ≤ 'z')
  let domain := rest.drop token.length
  if email.take 2 = ['t', '-'] ∧ token ≠ [] ∧
      domain.map Char.toLower = '@' :: replyDomain.toList.map Char.toLower then
    some (String.ofList token)
  else none

/-- `refRaw.split(/\s+/).map((s) => s.trim()).filter(Boolean)`. -/
def references (refRaw : String) : List String :=
  ((refRaw.toList.splitOnP isSpace).filter fun w => w ≠ []).map String.ofList

/-- `sanitizeFilename`: a character outside the basic plane counts twice. -/
def sanitizeFilename (name : String) : String :=
  let kept c := c.isAlphanum || c = '.' || c = '_' || c = '-'
  let cleaned := (name.toList.flatMap fun c =>
    if kept c then [c] else if c.toNat < 0x10000 then ['_'] else ['_', '_']).take 120
  if cleaned = [] then "file" else String.ofList cleaned

/-- `escapeText`. -/
def escapeText (s : String) : String :=
  String.ofList (s.toList.flatMap fun c =>
    if c = '&' then "&amp;".toList else if c = '<' then "&lt;".toList
    else if c = '>' then "&gt;".toList else [c])

/-- `[thread.references, received.message_id].filter(Boolean).join(' ') || null`. -/
def appendReference (chain messageId : Option String) : Option String :=
  match chain.filter (· ≠ ""), messageId.filter (· ≠ "") with
  | none, none => none
  | some r, none => some r
  | none, some m => some m
  | some r, some m => some (r ++ " " ++ m)

/-! ## The mail desk -/

inductive MailDesk
  | customerCare | administrator | bankManager
  deriving DecidableEq

inductive MailThreadStatus
  | opened | closed
  deriving DecidableEq

inductive MailDirection
  | outbound | inbound
  deriving DecidableEq

structure MailThread where
  toEmail : String
  desk : MailDesk
  subject : String
  status : MailThreadStatus
  replyToken : String
  references : Option String
  lastMessageAt : Option Instant
  unreadForAdmins : Bool
  deriving DecidableEq

structure MailMessage where
  threadId : Uuid
  direction : MailDirection
  desk : MailDesk
  fromEmail : String
  fromName : Option String
  toEmail : String
  subject : String
  bodyHtml : String
  bodyText : String
  providerMessageId : Option String
  rfcMessageId : Option String
  createdAt : Instant
  deriving DecidableEq

structure MailAttachment where
  messageId : Uuid
  filename : String
  contentType : String
  sizeBytes : ℕ
  storageKey : Option String
  resendAttachmentId : Option String
  deriving DecidableEq

/-- What the service emits. -/
inductive Event
  | messageCreated (threadId : Uuid) (direction : MailDirection) (messageId : Uuid) (at_ : Instant)
  | queueChanged (mailUnreadDelta : ℤ)
  deriving DecidableEq

/-- The threads, the messages and their attachments, the objects in storage, and the events. -/
structure State where
  threads : Table Uuid MailThread
  messages : Table Uuid MailMessage
  attachments : Table Uuid MailAttachment
  objects : List (String × Buffer)
  events : List Event

/-- A handler of the mail desk. -/
abbrev Handler (α : Type) := Prog State Error α

/-- A statement, or several in a transaction. -/
def transaction {α : Type} (body : State → Except Error (α × State)) : Handler α :=
  .attempt (fun _ => true) body

/-- `mailThread.update`. -/
def updateThread (id : Uuid) (f : MailThread → MailThread) (s : State) :
    Except Error (Unit × State) :=
  match s.threads.lookup id with
  | none => .error .recordNotFound
  | some thread => .ok ((), { s with threads := s.threads.insert id (f thread) })

/-- `mailMessage.create`. -/
def createMessage (id : Uuid) (message : MailMessage) (s : State) : Except Error (Unit × State) :=
  if (s.messages.lookup id).isSome then .error .uniqueViolation
  else if (s.threads.lookup message.threadId).isNone then .error .foreignKey
  else .ok ((), { s with messages := s.messages.insert id message })

/-- `mailAttachment.create`. -/
def createAttachment (id : Uuid) (attachment : MailAttachment) (s : State) :
    Except Error (Unit × State) :=
  if (s.attachments.lookup id).isSome then .error .uniqueViolation
  else if (s.messages.lookup attachment.messageId).isNone then .error .foreignKey
  else .ok ((), { s with attachments := s.attachments.insert id attachment })

/-- `events.emit`. -/
def emit (event : Event) : Handler Unit :=
  .modify (fun _ => true) fun s => { s with events := s.events ++ [event] }

/-! ## Events of the webhook -/

/-- What the event says of an attachment. -/
structure EventAttachment where
  id : String
  filename : Option String
  contentType : Option String
  size : Option ℕ
  deriving DecidableEq

/-- The data of a verified `email.received` event. -/
structure InboundEmail where
  emailId : String
  from_ : String
  to_ : List String
  cc : List String
  subject : String
  messageId : String
  attachments : List EventAttachment
  deriving DecidableEq

/-- An email as the provider has it. -/
structure ReceivedEmail where
  html : Option String
  text : Option String
  messageId : Option String
  /-- The headers by their names. -/
  headers : Option (List (String × String))
  deriving DecidableEq

/-- An attachment as the provider has it: where its bytes are, and its name. -/
structure AttachmentMeta where
  downloadUrl : Option String
  filename : Option String
  deriving DecidableEq

/-- The settings, and the functions of other packages that the service uses. -/
structure Env where
  /-- There is a client of the provider. -/
  resend : Bool
  replyDomain : String
  toLowerCase : String → String
  sanitizeMailHtml : String → String
  htmlToText : String → String

/-- A delivery of an event: its instant, the ids that it draws, and what it is answered by the
provider and the storage. An answer that is missing is one that throws. -/
structure Delivery where
  now : Instant
  messageId : Uuid
  /-- By the place of the attachment. -/
  attachmentId : ℕ → Uuid
  /-- `emails.receiving.get(emailId)`. -/
  receive : String → Option (Option ReceivedEmail)
  /-- `attachments.get({ emailId, id })`. -/
  attachment : String → String → Option AttachmentMeta
  /-- The bytes at a URL. -/
  fetch : String → Option Buffer
  /-- The storage takes an object. -/
  put : String → Bool

/-! ## The thread of an email -/

/-- `resolveThreadByToken`, over the addresses. -/
def resolveThreadByToken (env : Env) : List String → Handler (Option (Uuid × MailThread))
  | [] => return none
  | addr :: rest =>
    match parseToken env.toLowerCase env.replyDomain addr with
    | none => resolveThreadByToken env rest
    | some token => do
      match ← Prog.read fun s => s.threads.findRow fun t => t.replyToken = token with
      | some thread => return some thread
      | none => resolveThreadByToken env rest

/-- The header that tells what an email refers to. -/
def refRaw (headers : List (String × String)) : Option String :=
  ["in-reply-to", "In-Reply-To", "references", "References"].findSome? fun name =>
    headers.lookup name

/-- The ids that an email refers to. -/
def refIds (headers : Option (List (String × String))) : List String :=
  (headers.bind refRaw).elim [] references

/-- `resolveThreadByReferences`. -/
def resolveThreadByReferences (headers : Option (List (String × String))) :
    Handler (Option (Uuid × MailThread)) :=
  match refIds headers with
  | [] => return none
  | ids => do
    match ← Prog.read fun s => s.messages.latest
        (fun m => m.rfcMessageId.any ids.contains) MailMessage.createdAt with
    | none => return none
    | some (_, message) =>
      Prog.read fun s => (s.threads.lookup message.threadId).map fun t => (message.threadId, t)

/-! ## Attachments -/

/-- The row and the object of an attachment, if the provider has it. -/
def attachmentOf (d : Delivery) (data : InboundEmail) (a : EventAttachment) :
    Option (MailAttachment × String × Buffer) := do
  let meta_ ← d.attachment data.emailId a.id
  let url ← meta_.downloadUrl.filter (· ≠ "")
  let bytes ← d.fetch url
  let filename := (a.filename.or meta_.filename).getD "attachment"
  let key := s!"mail/inbound/{data.emailId}/{a.id}/{sanitizeFilename filename}"
  return ({
    messageId := d.messageId
    filename
    contentType := a.contentType.getD "application/octet-stream"
    sizeBytes := a.size.getD bytes.length
    storageKey := some key
    resendAttachmentId := some a.id }, key, bytes)

/-- `persistInboundAttachments`, from the place `i` on: what fails is logged and passed over. -/
def persistInboundAttachments (d : Delivery) (data : InboundEmail) :
    ℕ → List EventAttachment → Handler Unit
  | _, [] => return ()
  | i, a :: rest => do
    match attachmentOf d data a with
    | some (attachment, key, bytes) =>
      if d.put key then
        tryCatch (do
          Prog.modify (fun _ => true) fun s => { s with objects := s.objects ++ [(key, bytes)] }
          transaction (createAttachment (d.attachmentId i) attachment)) fun _ => return ()
      persistInboundAttachments d data (i + 1) rest
    | none => persistInboundAttachments d data (i + 1) rest

/-! ## Handling -/

/-- The message of an email. -/
def messageOf (env : Env) (d : Delivery) (data : InboundEmail) (received : ReceivedEmail)
    (threadId : Uuid) (thread : MailThread) : MailMessage :=
  let html := env.sanitizeMailHtml (received.html.getD "")
  let bodyText := received.text.getD (if html = "" then "" else env.htmlToText html)
  { threadId
    direction := .inbound
    desk := thread.desk
    fromEmail := extractEmail data.from_
    fromName := extractName data.from_
    toEmail := thread.toEmail
    subject := if data.subject = "" then thread.subject else data.subject
    bodyHtml := if html = "" then s!"<p>{escapeText bodyText}</p>" else html
    bodyText
    providerMessageId := some data.emailId
    rfcMessageId := received.messageId.or (some data.messageId)
    createdAt := d.now }

/-- The thread after an email, which was read before. -/
def filed (d : Delivery) (received : ReceivedEmail) (read thread : MailThread) : MailThread :=
  { thread with
    lastMessageAt := some d.now
    unreadForAdmins := true
    status := .opened
    references := appendReference read.references received.messageId }

/-- The rest of `handleInbound`, with the thread of the email. -/
def appendInbound (env : Env) (data : InboundEmail) (d : Delivery) (received : ReceivedEmail)
    (threadId : Uuid) (thread : MailThread) : Handler Unit := do
  transaction (createMessage d.messageId (messageOf env d data received threadId thread))
  persistInboundAttachments d data 0 data.attachments
  transaction (updateThread threadId (filed d received thread))
  emit (.messageCreated threadId .inbound d.messageId d.now)
  emit (.queueChanged 1)

/-- The thread of the token, or else that of the references. -/
def resolveThread (headers : Option (List (String × String))) :
    Option (Uuid × MailThread) → Handler (Option (Uuid × MailThread))
  | some found => return some found
  | none => resolveThreadByReferences headers

/-- `handleInbound`. -/
def handleInbound (env : Env) (data : InboundEmail) (d : Delivery) : Handler Unit := do
  if ¬ env.resend then return ()
  else
    let byToken ← resolveThreadByToken env (data.to_ ++ data.cc)
    match d.receive data.emailId with
    | none => throw (.internal "receiving.get")
    | some none => return ()
    | some (some received) =>
      match ← resolveThread received.headers byToken with
      | none => return ()
      | some (threadId, thread) => appendInbound env data d received threadId thread

/-- `getMessages`: opening a thread clears its flag. -/
def getMessages (threadId : Uuid) : Handler (List (Uuid × MailMessage)) := do
  match ← Prog.read fun s => s.threads.lookup threadId with
  | none => throw (.notFound "Thread not found")
  | some thread =>
    if thread.unreadForAdmins then
      transaction (updateThread threadId fun t => { t with unreadForAdmins := false })
      emit (.queueChanged (-1))
    Prog.read fun s => ((s.messages.entries.map fun e => (e.1, e.2)).filter fun m =>
      m.2.threadId = threadId).insertionSort fun a b => a.2.createdAt ≤ b.2.createdAt

/-- `mail_unread` of `queueCounts`. -/
def mailUnread (s : State) : ℕ := s.threads.count fun _ t => t.unreadForAdmins

end BankDemo.Mail
