import BankDemo.Mail.Service

/-!
# Outbound mail

The part of `MailService` that sends: `compose` opens a thread with a token of its own and `reply` goes
on with one, and both deliver an email whose answers are addressed to the token. The emails that the
provider took are kept with the desk.

The rendering of an email is given, as are the sanitizer and the conversion to text. The columns that
only the dashboard shows are left out.
-/

namespace BankDemo.Mail

open Documents (Buffer)

/-! ## Desks -/

/-- A sender of the desk. -/
structure DeskIdentity where
  fromEmail : String
  fromName : String
  deriving DecidableEq

/-- `env` of `mail-desks.ts`. -/
def envVar (processEnv : String → Option String) (k : String) : Option String :=
  ((processEnv k).filter fun v => v ≠ "" ∧ JsString.trim v ≠ "").map JsString.trim

/-- `getDeskIdentity`. -/
def getDeskIdentity (processEnv : String → Option String) : MailDesk → DeskIdentity
  | .customerCare => {
      fromEmail := (envVar processEnv "MAIL_DESK_CARE_FROM").getD "care@secure-access.site"
      fromName := (envVar processEnv "MAIL_DESK_CARE_NAME").getD "State Bank — Customer Care" }
  | .administrator => {
      fromEmail := (envVar processEnv "MAIL_DESK_ADMIN_FROM").getD "admin@secure-access.site"
      fromName := (envVar processEnv "MAIL_DESK_ADMIN_NAME").getD "State Bank — Administration" }
  | .bankManager => {
      fromEmail := (envVar processEnv "MAIL_DESK_MANAGER_FROM").getD "manager@secure-access.site"
      fromName :=
        (envVar processEnv "MAIL_DESK_MANAGER_NAME").getD "State Bank — Office of the Manager" }

/-- `deskFromHeader`. -/
def deskFromHeader (processEnv : String → Option String) (desk : MailDesk) : String :=
  let identity := getDeskIdentity processEnv desk
  s!"{identity.fromName} <{identity.fromEmail}>"

/-! ## Emails -/

structure EmailAttachment where
  filename : String
  contentType : String
  content : Buffer
  deriving DecidableEq

/-- An email as it is given to the provider. -/
structure EmailMessage where
  to_ : String
  from_ : String
  replyTo : String
  subject : String
  html : String
  text : String
  headers : List (String × String)
  attachments : List EmailAttachment
  deriving DecidableEq

/-- The mail desk with the emails that it has sent, newest first. -/
structure Desk where
  mail : State
  sent : List EmailMessage

/-- The tables of the desk. -/
def Desk.mailPart : Prog.Part Desk State where
  get w := w.mail
  put s w := { w with mail := s }
  get_put _ _ := rfl
  put_get _ := rfl
  put_put _ _ _ := rfl

/-- A handler that sends mail. -/
abbrev DeskHandler (α : Type) := Prog Desk Error α

/-- The settings of the desk, and the rendering. -/
structure DeskEnv extends Env where
  processEnv : String → Option String
  /-- `wrapPlainEmail`, of the title, the greeting, the body and the signature. -/
  wrapPlainEmail : String → Option String → String → Option String → String

/-- An attachment that was staged. -/
structure StagedAttachment where
  storageKey : String
  filename : String
  contentType : String
  sizeBytes : ℕ
  deriving DecidableEq

structure ComposeInput where
  desk : MailDesk
  toEmail : String
  subject : String
  greeting : Option String
  bodyHtml : String
  signature : Option String
  attachments : List StagedAttachment
  deriving DecidableEq

structure ReplyInput where
  threadId : Uuid
  bodyHtml : String
  signature : Option String
  attachments : List StagedAttachment
  deriving DecidableEq

/-- What a delivery draws, and what the provider answers to an email: the id of the message, or nothing
when it throws. -/
structure Dispatch where
  now : Instant
  messageId : Uuid
  attachmentId : ℕ → Uuid
  send : EmailMessage → Option String

/-- What a new thread draws. -/
structure ThreadDraws where
  threadId : Uuid
  /-- `randomBytes(12)`. -/
  token : Fin 12 → UInt8

/-! ## Tokens -/

/-- A digit of `toString('hex')`. -/
def hexDigit (n : ℕ) : Char := "0123456789abcdef".toList.getD n '0'

/-- `buf.toString('hex')`. -/
def hex (buf : List UInt8) : List Char :=
  buf.flatMap fun b => [hexDigit (b.toNat / 16), hexDigit (b.toNat % 16)]

/-- `generateToken`. -/
def generateToken (buf : Fin 12 → UInt8) : String := String.ofList (hex (List.ofFn buf))

/-- `replyAddress`. -/
def replyAddress (replyDomain token : String) : String := s!"t-{token}@{replyDomain}"

/-- `replySubject`. -/
def replySubject (subject : String) : String :=
  if (subject.toList.take 3).map Char.toLower = ['r', 'e', ':'] then subject else s!"Re: {subject}"

/-! ## Delivering -/

/-- What a delivery is about. -/
structure DeliverArgs where
  threadId : Uuid
  /-- The thread as it was created or read. -/
  thread : MailThread
  desk : MailDesk
  fromEmail : String
  fromName : String
  toEmail : String
  subject : String
  greeting : Option String
  bodyHtml : String
  signature : Option String
  attachments : List StagedAttachment
  inReplyTo : Option String
  deriving DecidableEq

/-- The bytes of the staged attachments; one that is not there is an error. -/
def fetchStaged : List StagedAttachment → DeskHandler (List EmailAttachment)
  | [] => return []
  | a :: rest => do
    match ← Prog.read fun w => w.mail.objects.reverse.lookup a.storageKey with
    | none => throw (.internal "storage.get")
    | some content =>
      let others ← fetchStaged rest
      return { filename := a.filename, contentType := a.contentType, content } :: others

/-- The headers that keep the conversation together. -/
def threadingHeaders (args : DeliverArgs) : List (String × String) :=
  ((args.inReplyTo.filter (· ≠ "")).map fun id => ("In-Reply-To", id)).toList ++
    ((args.thread.references.filter (· ≠ "")).map fun r => ("References", r)).toList

/-- The email of a delivery. -/
def emailOf (env : DeskEnv) (args : DeliverArgs) (attachments : List EmailAttachment) :
    EmailMessage where
  to_ := args.toEmail
  from_ := deskFromHeader env.processEnv args.desk
  replyTo := replyAddress env.replyDomain args.thread.replyToken
  subject := args.subject
  html := env.wrapPlainEmail args.subject args.greeting args.bodyHtml args.signature
  text := env.htmlToText args.bodyHtml
  headers := threadingHeaders args
  attachments

/-- `sendAndReturn` of critical mail, which nothing suppresses. -/
def sendAndReturn (d : Dispatch) (email : EmailMessage) : DeskHandler String :=
  match d.send email with
  | none => throw (.internal "provider.send")
  | some messageId => do
    Prog.modify (fun _ => true) fun w => { w with sent := email :: w.sent }
    return messageId

/-- The message of a delivery. -/
def sentMessage (env : DeskEnv) (d : Dispatch) (args : DeliverArgs) (providerId : String) :
    MailMessage where
  threadId := args.threadId
  direction := .outbound
  desk := args.desk
  fromEmail := args.fromEmail
  fromName := some args.fromName
  toEmail := args.toEmail
  subject := args.subject
  bodyHtml := args.bodyHtml
  bodyText := env.htmlToText args.bodyHtml
  providerMessageId := (some providerId).filter (· ≠ "")
  rfcMessageId := none
  createdAt := d.now

/-- The row of a staged attachment. -/
def stagedRow (d : Dispatch) (a : StagedAttachment) : MailAttachment where
  messageId := d.messageId
  filename := a.filename
  contentType := a.contentType
  sizeBytes := a.sizeBytes
  storageKey := some a.storageKey
  resendAttachmentId := none

/-- The rows of the attachments, from the place `i` on. -/
def createStaged (d : Dispatch) : ℕ → List StagedAttachment → State → Except Error (Unit × State)
  | _, [], s => .ok ((), s)
  | i, a :: rest, s => do
    let (_, s') ← createAttachment (d.attachmentId i) (stagedRow d a) s
    createStaged d (i + 1) rest s'

/-- `mailMessage.create` with its attachments. -/
def createSent (env : DeskEnv) (d : Dispatch) (args : DeliverArgs) (providerId : String)
    (s : State) : Except Error (Unit × State) := do
  let (_, s') ← createMessage d.messageId (sentMessage env d args providerId) s
  createStaged d 0 args.attachments s'

/-- `deliver`. -/
def deliver (env : DeskEnv) (d : Dispatch) (args : DeliverArgs) : DeskHandler Unit := do
  let attachments ← fetchStaged args.attachments
  let providerId ← sendAndReturn d (emailOf env args attachments)
  (transaction (createSent env d args providerId)).zoom Desk.mailPart
  (transaction (updateThread args.threadId fun t =>
    { t with lastMessageAt := some d.now, unreadForAdmins := false })).zoom Desk.mailPart
  (emit (.messageCreated args.threadId .outbound d.messageId d.now)).zoom Desk.mailPart

/-! ## Composing and replying -/

/-- The thread of a new email. -/
def newThread (env : DeskEnv) (input : ComposeInput) (draws : ThreadDraws) : MailThread where
  toEmail := env.toLowerCase (JsString.trim input.toEmail)
  desk := input.desk
  subject := JsString.trim input.subject
  status := .opened
  replyToken := generateToken draws.token
  references := none
  lastMessageAt := none
  unreadForAdmins := false

/-- `mailThread.create`: the id and the token are unique. -/
def createThread (id : Uuid) (thread : MailThread) (s : State) : Except Error (Unit × State) :=
  if (s.threads.lookup id).isSome then .error .uniqueViolation
  else if (s.threads.findRow fun t => t.replyToken = thread.replyToken).isSome then
    .error .uniqueViolation
  else .ok ((), { s with threads := s.threads.insert id thread })

/-- The delivery of a new email. -/
def composeArgs (env : DeskEnv) (input : ComposeInput) (draws : ThreadDraws) : DeliverArgs where
  threadId := draws.threadId
  thread := newThread env input draws
  desk := input.desk
  fromEmail := (getDeskIdentity env.processEnv input.desk).fromEmail
  fromName := (getDeskIdentity env.processEnv input.desk).fromName
  toEmail := env.toLowerCase (JsString.trim input.toEmail)
  subject := JsString.trim input.subject
  greeting := input.greeting
  bodyHtml := env.sanitizeMailHtml input.bodyHtml
  signature := input.signature
  attachments := input.attachments
  inReplyTo := none

/-- `compose`. -/
def compose (env : DeskEnv) (input : ComposeInput) (draws : ThreadDraws) (d : Dispatch) :
    DeskHandler Unit := do
  if JsString.trim input.subject = "" then throw (.badRequest "Subject is required")
  else if env.toLowerCase (JsString.trim input.toEmail) = "" then
    throw (.badRequest "Recipient is required")
  else
    (transaction (createThread draws.threadId (newThread env input draws))).zoom Desk.mailPart
    deliver env d (composeArgs env input draws)

/-- The delivery of a reply: to the customer of the thread, and in answer to the last message of
theirs. -/
def replyArgs (env : DeskEnv) (input : ReplyInput) (thread : MailThread)
    (lastInbound : Option (Uuid × MailMessage)) : DeliverArgs where
  threadId := input.threadId
  thread
  desk := thread.desk
  fromEmail := (getDeskIdentity env.processEnv thread.desk).fromEmail
  fromName := (getDeskIdentity env.processEnv thread.desk).fromName
  toEmail := thread.toEmail
  subject := replySubject thread.subject
  greeting := none
  bodyHtml := env.sanitizeMailHtml input.bodyHtml
  signature := input.signature
  attachments := input.attachments
  inReplyTo := lastInbound.bind fun m => m.2.rfcMessageId

/-- `reply`. -/
def reply (env : DeskEnv) (input : ReplyInput) (d : Dispatch) : DeskHandler Unit := do
  match ← Prog.read fun w => w.mail.threads.lookup input.threadId with
  | none => throw (.notFound "Thread not found")
  | some thread =>
    let lastInbound ← Prog.read fun w => w.mail.messages.latest
      (fun m => m.threadId = input.threadId ∧ m.direction = .inbound) MailMessage.createdAt
    deliver env d (replyArgs env input thread lastInbound)

/-- `closeThread` and `reopenThread`. -/
def setStatus (status : MailThreadStatus) (threadId : Uuid) : DeskHandler Unit :=
  (transaction (updateThread threadId fun t => { t with status := status })).zoom Desk.mailPart

def closeThread (threadId : Uuid) : DeskHandler Unit := setStatus .closed threadId

def reopenThread (threadId : Uuid) : DeskHandler Unit := setStatus .opened threadId

/-- A file of an upload. -/
structure UploadedFile where
  originalname : String
  mimetype : String
  size : ℕ
  buffer : Buffer
  deriving DecidableEq

/-- What is echoed back on sending. -/
def stagedAttachment (file : UploadedFile) (buf : List UInt8) : StagedAttachment where
  storageKey := s!"mail/outbound/{String.ofList (hex buf)}/{sanitizeFilename file.originalname}"
  filename := file.originalname
  contentType := if file.mimetype = "" then "application/octet-stream" else file.mimetype
  sizeBytes := file.size

/-- `stageAttachment`, with the octets drawn for the key. -/
def stageAttachment (file : UploadedFile) (buf : List UInt8) : DeskHandler StagedAttachment := do
  let staged := stagedAttachment file buf
  Prog.modify (fun _ => true) fun w =>
    { w with mail := { w.mail with objects := w.mail.objects ++ [(staged.storageKey, file.buffer)] } }
  return staged

/-! ## Calls -/

/-- A call of the desk, or an event of the webhook. -/
inductive Call
  | compose (input : ComposeInput) (draws : ThreadDraws) (d : Dispatch)
  | reply (input : ReplyInput) (d : Dispatch)
  | closeThread (threadId : Uuid)
  | reopenThread (threadId : Uuid)
  | getMessages (threadId : Uuid)
  | stageAttachment (file : UploadedFile) (buf : List UInt8)
  | inbound (data : InboundEmail) (d : Delivery)

/-- The handler of a call. -/
def handle (env : DeskEnv) : Call → DeskHandler Unit
  | .compose input draws d => compose env input draws d
  | .reply input d => reply env input d
  | .closeThread threadId => closeThread threadId
  | .reopenThread threadId => reopenThread threadId
  | .getMessages threadId => do
    let _ ← (getMessages threadId).zoom Desk.mailPart
  | .stageAttachment file buf => do
    let _ ← stageAttachment file buf
  | .inbound data d => (handleInbound env.toEnv data d).zoom Desk.mailPart

end BankDemo.Mail
