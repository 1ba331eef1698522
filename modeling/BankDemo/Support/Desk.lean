import BankDemo.Crypto.Jwt
import BankDemo.Support.Service

/-!
# The doors of the support chat

The endpoints of the three controllers over `SupportService`: those of customers, who come with the
user of their access token, those of guests, who come with a token for their thread, and those of the
staff. The lists and the files that they read are here; what they write is in `Support/Service.lean`.

The length checks of the bodies, the cap of the upload and the list of all threads are left out.
-/

namespace BankDemo.Support

open Documents (Buffer)

/-! ## Reading -/

/-- `listCustomerMessages`. -/
def listCustomerMessages (userId threadId : Uuid) : Handler (List (Uuid × SupportMessage)) := do
  match ← findThread threadId with
  | none => throw (.notFound "Thread not found")
  | some thread =>
    if thread.userId ≠ some userId then throw (.forbidden "Not your thread")
    else Prog.read (messagesOf threadId)

/-- `listGuestMessages`. -/
def listGuestMessages (threadId : Uuid) : Handler (List (Uuid × SupportMessage)) := do
  let _ ← getGuestThread threadId
  Prog.read (messagesOf threadId)

/-- `requireAttachmentMessage`: the attachment of the message. -/
def requireAttachmentMessage (threadId messageId : Uuid) : Handler ProcessedAttachment := do
  match ← Prog.read fun s => s.messages.lookup messageId with
  | none => throw (.notFound "Attachment not found")
  | some m =>
    match m.attachment.filter fun a => m.threadId = threadId && a.key ≠ "" with
    | none => throw (.notFound "Attachment not found")
    | some a => return a

structure LoadedAttachment where
  buffer : Buffer
  name : String
  type : String
  kind : AttachmentKind

/-- `storage.get`: what was put last under the key. -/
def State.fetchBytes (s : State) (key : String) : Option Buffer :=
  ((s.objects.filter fun o => o.key = key).getLast?).map StoredObject.body

/-- `readAttachment`. -/
def readAttachment (a : ProcessedAttachment) : Handler LoadedAttachment := do
  match ← Prog.read fun s => s.fetchBytes a.key with
  | none => throw (.internal "ENOENT")
  | some buffer => return { buffer, name := a.name, type := a.type, kind := a.kind }

/-- `loadAttachmentForUser`. -/
def loadAttachmentForUser (userId threadId messageId : Uuid) : Handler LoadedAttachment := do
  let a ← requireAttachmentMessage threadId messageId
  match (← findThread threadId).filter fun t => t.userId = some userId with
  | none => throw (.notFound "Attachment not found")
  | some _ => readAttachment a

/-- `loadAttachmentForAdmin`. -/
def loadAttachmentForAdmin (threadId messageId : Uuid) : Handler LoadedAttachment := do
  let a ← requireAttachmentMessage threadId messageId
  readAttachment a

/-! ## Answers with a file -/

/-- `Content-Disposition`. -/
inductive Disposition
  | inline | attachment
  deriving DecidableEq

structure Download where
  contentType : String
  disposition : Disposition
  filename : String
  body : Buffer
  deriving DecidableEq

/-- `/["\r\n\\]/`. -/
def breaksHeader (c : Char) : Bool := c = '\x22' || c = '\x0d' || c = '\x0a' || c = '\x5c'

def safeHeaderName (name : String) : String :=
  JsString.slice (String.ofList (name.toList.map fun c => if breaksHeader c then '_' else c)) 120

/-- `streamAttachment`. The headers that are always the same are left out. -/
def streamAttachment (a : LoadedAttachment) : Download :=
  match a.kind with
  | .image => ⟨a.type, .inline, safeHeaderName a.name, a.buffer⟩
  | .file => ⟨"application/octet-stream", .attachment, safeHeaderName a.name, a.buffer⟩

/-! ## Guests -/

/-- `assertOwns`. A header without text is none. -/
def assertOwns (now : Instant) (threadId : Uuid) (token : Option Crypto.Text) :
    Except Error Unit :=
  match token.filter fun text => text ≠ .other "" with
  | none => .error (.unauthorized "Missing guest token")
  | some text =>
    match Crypto.verifyGuestSupport now text with
    | none => .error (.unauthorized "Invalid guest token")
    | some claims =>
      if claims.tid ≠ some threadId then .error (.unauthorized "Token does not match thread")
      else .ok ()

/-! ## Endpoints -/

namespace Desk

/-- The requests, with their instants and the ids they draw. -/
inductive Call
  | myThread (now : Instant) (id userId : Uuid)
  | messages (userId threadId : Uuid)
  | markRead (now : Instant) (userId threadId : Uuid)
  | send (now : Instant) (id userId threadId : Uuid) (body : String)
  | attach (now : Instant) (id objectId userId threadId : Uuid) (caption : Option String)
      (file : Option IncomingFile)
  | download (userId threadId messageId : Uuid)
  | guestOpen (now : Instant) (jti id guestId : Uuid) (name email : String)
  | guestMessages (now : Instant) (threadId : Uuid) (token : Option Crypto.Text)
  | guestSend (now : Instant) (id threadId : Uuid) (token : Option Crypto.Text) (body : String)
  | adminMessages (threadId : Uuid)
  | adminReply (now : Instant) (id adminUserId threadId : Uuid) (body : String)
  | adminAttach (now : Instant) (id objectId adminUserId threadId : Uuid) (caption : Option String)
      (file : Option IncomingFile)
  | adminDownload (threadId messageId : Uuid)
  | close (now : Instant) (adminUserId threadId : Uuid)
  | reopen (threadId : Uuid)
  deriving DecidableEq

inductive Answer
  | thread (id : Uuid) (status : SupportThreadStatus)
  | guest (id : Uuid) (token : Crypto.Token)
  | messages (rows : List (Uuid × SupportMessage))
  | message (id : Uuid) (message : SupportMessage)
  | markedIds (ids : List Uuid)
  | file (download : Download)
  deriving DecidableEq

/-- A request that has to come with a file. -/
def required (file : Option IncomingFile) : Except Error IncomingFile :=
  match file with
  | none => .error (.badRequest "No file uploaded")
  | some file => .ok file

def handle (env : Env) : Call → Handler Answer
  | .myThread now id userId => do
    let (id, thread) ← openOrGetCustomerThread now id userId
    return .thread id thread.status
  | .messages userId threadId => do
    let rows ← listCustomerMessages userId threadId
    return .messages rows
  | .markRead now userId threadId => do
    let ids ← markAdminMessagesRead now userId threadId
    return .markedIds ids
  | .send now id userId threadId body => do
    let message ← postCustomerMessage now id userId threadId body
    return .message id message
  | .attach now id objectId userId threadId caption file => do
    let file ← Prog.lift (required file)
    let message ← postCustomerAttachment env now id objectId userId threadId (caption.getD "") file
    return .message id message
  | .download userId threadId messageId => do
    let loaded ← loadAttachmentForUser userId threadId messageId
    return .file (streamAttachment loaded)
  | .guestOpen now jti id guestId name email => do
    let (id, _) ← openGuestThread now id guestId name email
    return .guest id (Crypto.signGuestSupport now jti id)
  | .guestMessages now threadId token => do
    Prog.lift (assertOwns now threadId token)
    let rows ← listGuestMessages threadId
    return .messages rows
  | .guestSend now id threadId token body => do
    Prog.lift (assertOwns now threadId token)
    let message ← postGuestMessage now id threadId body
    return .message id message
  | .adminMessages threadId => do
    let rows ← listAdminMessages threadId
    return .messages rows
  | .adminReply now id adminUserId threadId body => do
    let message ← postAdminMessage now id adminUserId threadId body
    return .message id message
  | .adminAttach now id objectId adminUserId threadId caption file => do
    let file ← Prog.lift (required file)
    let message ←
      postAdminAttachment env now id objectId adminUserId threadId (caption.getD "") file
    return .message id message
  | .adminDownload threadId messageId => do
    let loaded ← loadAttachmentForAdmin threadId messageId
    return .file (streamAttachment loaded)
  | .close now adminUserId threadId => do
    let thread ← closeThread now threadId (some adminUserId)
    return .thread threadId thread.status
  | .reopen threadId => do
    let thread ← reopenThread threadId
    return .thread threadId thread.status

end Desk

end BankDemo.Support
