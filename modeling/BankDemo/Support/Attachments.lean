import BankDemo.Documents.Storage
import BankDemo.Foundations.JsString
import BankDemo.Foundations.UuidText
import BankDemo.Store

/-!
# Attachments of the support chat

`SupportAttachmentService`: an image is encoded again, a document is recognised by its first bytes,
and everything else is refused. The image library is given.
-/

namespace BankDemo.Support

open Documents (Buffer)

/-- What the image library finds in a buffer. -/
structure ImageMetadata where
  format : Option String
  hasAlpha : Bool
  deriving DecidableEq

/-- The settings of the service, and the functions of other packages it uses. -/
structure Env where
  maxBytes : ℕ
  toLowerCase : String → String
  /-- `sharp(buf).metadata()`, unless it throws. -/
  metadata : Buffer → Option ImageMetadata
  /-- The image at its new size, as PNG. -/
  png : Buffer → Option Buffer
  /-- The image at its new size, as JPEG. -/
  jpeg : Buffer → Option Buffer

/-! ## Names of files -/

/-- `[A-Za-z0-9_]`. -/
def isWord (c : Char) : Bool := c.isAlphanum || c = '_'

/-- `s.replace(/p+/g, c)` for a class `p` of characters; the flag says that a run has begun. -/
def replaceRuns (p : Char → Bool) (c : Char) : Bool → List Char → List Char
  | _, [] => []
  | begun, a :: l =>
    if p a then if begun then replaceRuns p c true l else c :: replaceRuns p c true l
    else a :: replaceRuns p c false l

/-- `sanitizeName`. -/
def sanitizeName (name : Option String) : String :=
  let parts := (name.getD "file").toList.splitOnP fun c => c = '/' || c = '\\'
  let word := replaceRuns (fun c => ! (isWord c || c = '.' || c = '-' || c = ' ')) '_' false
    (parts.getLastD "file".toList)
  let cleaned := JsString.slice
    (JsString.trim (String.ofList (replaceRuns JsString.isSpace ' ' false word))) 120
  if cleaned = "" then "file" else cleaned

/-- `stripExt`: without the last dot and what follows it, if anything does. -/
def stripExt (name : String) : String :=
  let ext := (name.toList.reverse.takeWhile fun c => c ≠ '.').reverse
  let stem := name.toList.take (name.toList.length - ext.length - 1)
  if ext = [] ∨ ext.length = name.toList.length ∨ stem = [] then name else String.ofList stem

/-- `ensureExt`. -/
def ensureExt (env : Env) (name ext : String) : String :=
  if ("." ++ ext).toList.isSuffixOf (env.toLowerCase name).toList then name else s!"{name}.{ext}"

/-! ## Files -/

inductive AttachmentKind
  | image | file
  deriving DecidableEq

structure ProcessedAttachment where
  key : String
  name : String
  type : String
  size : ℕ
  kind : AttachmentKind
  deriving DecidableEq

structure IncomingFile where
  originalname : Option String
  mimetype : Option String
  buffer : Buffer
  deriving DecidableEq

/-- A file that is made for storage. -/
structure StoredObject where
  key : String
  body : Buffer
  contentType : String
  deriving DecidableEq

def docxMime : String := "application/vnd.openxmlformats-officedocument.wordprocessingml.document"

/-- `tryProcessImage`: the image, its type and its extension. -/
def tryProcessImage (env : Env) (buf : Buffer) : Option (Buffer × String × String) := do
  let found ← env.metadata buf
  let format ← found.format
  if ["jpeg", "png", "webp", "gif", "avif", "tiff"].contains format then
    if found.hasAlpha then (env.png buf).map fun body => (body, "image/png", "png")
    else (env.jpeg buf).map fun body => (body, "image/jpeg", "jpg")
  else none

/-- `matchDocument`: the type and the extension of a document. -/
def matchDocument (env : Env) (buf : Buffer) (mimetype : Option String) (name : String) :
    Option (String × String) :=
  let mt := env.toLowerCase (mimetype.getD "")
  let lname := env.toLowerCase name
  let isZip := [0x50, 0x4b].isPrefixOf buf && buf.length ≥ 4 &&
    [0x03, 0x05, 0x07].contains (buf.getD 2 0)
  let isOle := [0xd0, 0xcf, 0x11, 0xe0, 0xa1, 0xb1, 0x1a, 0xe1].isPrefixOf buf
  -- `%PDF-`
  if [0x25, 0x50, 0x44, 0x46, 0x2d].isPrefixOf buf then some ("application/pdf", "pdf")
  else if isZip && (mt = docxMime || ".docx".toList.isSuffixOf lname.toList) then
    some (docxMime, "docx")
  else if isOle && (mt = "application/msword" || ".doc".toList.isSuffixOf lname.toList) then
    some ("application/msword", "doc")
  else none

/-- `Math.round(maxBytes / (1024 * 1024))`. -/
def Env.maxMegabytes (env : Env) : ℕ := (2 * env.maxBytes + 1024 * 1024) / (2 * (1024 * 1024))

/-- `process`, with the id that it draws: the object to store, and what the message says of it. -/
def process (env : Env) (id threadId : Uuid) (file : IncomingFile) :
    Except Error (StoredObject × ProcessedAttachment) :=
  let buf := file.buffer
  let key ext := s!"support/{UuidText.uuidText threadId}/{UuidText.uuidText id}.{ext}"
  if buf = [] then .error (.badRequest "Empty file")
  else if buf.length > env.maxBytes then
    .error (.badRequest s!"File exceeds the {env.maxMegabytes}MB limit")
  else
    let displayName := sanitizeName file.originalname
    match tryProcessImage env buf with
    | some (body, type, ext) => .ok (⟨key ext, body, type⟩,
        ⟨key ext, s!"{stripExt displayName}.{ext}", type, body.length, .image⟩)
    | none =>
      match matchDocument env buf file.mimetype displayName with
      | some (type, ext) => .ok (⟨key ext, buf, type⟩,
          ⟨key ext, ensureExt env displayName ext, type, buf.length, .file⟩)
      | none => .error (.badRequest
          "Unsupported file. Allowed: images (PNG, JPG, WebP, GIF), PDF, or Word (.doc/.docx).")

/-- What is stored is under the key that the message carries. -/
theorem process_key {env : Env} {id threadId : Uuid} {file : IncomingFile}
    {r : StoredObject × ProcessedAttachment} (h : process env id threadId file = .ok r) :
    r.1.key = r.2.key ∧ r.1.contentType = r.2.type ∧ r.1.body.length = r.2.size := by
  unfold process at h
  dsimp only at h
  split at h
  · cases h
  · split at h
    · cases h
    · split at h
      · obtain rfl := Except.ok.inj h
        exact ⟨rfl, rfl, rfl⟩
      · split at h
        · obtain rfl := Except.ok.inj h
          exact ⟨rfl, rfl, rfl⟩
        · cases h

end BankDemo.Support
