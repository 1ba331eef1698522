import BankDemo.Foundations.Base64Url
import BankDemo.Store

/-!
# Encrypted columns

`AesGcmService`: a text is encrypted under a new nonce, and stored as the nonce, the tag and the
ciphertext in one. AES-256-GCM itself is a parameter (`Gcm`), of which `Gcm.Lawful` says what is relied
on, and what was encrypted is read back (`decrypt_encrypt`).
-/

namespace BankDemo.AesGcm

/-- A key of AES-256. -/
structure Key where
  bytes : List UInt8
  length_eq : bytes.length = 32

/-- The key of the service: that of the configuration, or zeros where there is none of this length. -/
def Key.ofConfig (config : Option String) : Key :=
  let buf := Base64.ofText (config.getD "")
  if h : buf.length = 32 then ⟨buf, h⟩ else ⟨List.replicate 32 0, List.length_replicate⟩

/-- `randomBytes(12)`. -/
structure Nonce where
  bytes : List UInt8
  length_eq : bytes.length = 12
  deriving DecidableEq

/-- AES-256-GCM, and what Node makes of octets that are no UTF-8. -/
structure Gcm where
  /-- The tag and the ciphertext of octets under a nonce. -/
  sealUnder : Key → List UInt8 → List UInt8 → List UInt8 × List UInt8
  /-- The octets of a nonce, a tag and a ciphertext. -/
  openUnder : Key → List UInt8 → List UInt8 → List UInt8 → Option (List UInt8)
  lossy : List UInt8 → String

/-- A tag has 16 octets, and what was sealed is opened. -/
structure Gcm.Lawful (gcm : Gcm) : Prop where
  length_tag : ∀ key iv text, (gcm.sealUnder key iv text).1.length = 16
  open_seal : ∀ key (iv : Nonce) text, gcm.openUnder key iv.bytes
    (gcm.sealUnder key iv.bytes text).1 (gcm.sealUnder key iv.bytes text).2 = some text

/-- `Buffer.from(text, 'utf8')`. -/
def utf8 (text : String) : List UInt8 := text.toUTF8.data.toList

variable {gcm : Gcm} {key : Key} {text : String}

/-- `buffer.toString('utf8')`. -/
def ofUtf8 (gcm : Gcm) (bytes : List UInt8) : String :=
  (String.fromUTF8? ⟨bytes.toArray⟩).getD (gcm.lossy bytes)

@[simp]
theorem ofUtf8_utf8 (gcm : Gcm) (text : String) : ofUtf8 gcm (utf8 text) = text := by
  have hvalid : String.fromUTF8? text.toUTF8 = some text := by
    simp only [String.fromUTF8?, String.toUTF8_eq_toByteArray, dif_pos text.isValidUTF8]
    rfl
  have hbytes : (⟨(utf8 text).toArray⟩ : ByteArray) = text.toUTF8 := by
    unfold utf8
    rw [Array.toArray_toList]
  rw [ofUtf8, hbytes, hvalid, Option.getD_some]

/-! ## The service -/

/-- The nonce, the tag and the ciphertext of a text. -/
def envelope (gcm : Gcm) (key : Key) (iv : Nonce) (plaintext : String) : List UInt8 :=
  let sealed := gcm.sealUnder key iv.bytes (utf8 plaintext)
  iv.bytes ++ sealed.1 ++ sealed.2

/-- `encrypt`, under the nonce drawn. -/
def encrypt (gcm : Gcm) (key : Key) (iv : Nonce) (plaintext : String) : String :=
  Base64.toText (envelope gcm key iv plaintext)

/-- `decrypt`. -/
def decrypt (gcm : Gcm) (key : Key) (payload : String) : Except Error String :=
  let buf := Base64.ofText payload
  match gcm.openUnder key (buf.take 12) ((buf.drop 12).take 16) (buf.drop 28) with
  | none => .error (.internal "Unsupported state or unable to authenticate data")
  | some plain => .ok (ofUtf8 gcm plain)

/-! ## What is read -/

/-- The three parts of an envelope. -/
theorem envelope_parts (hgcm : gcm.Lawful) (key : Key) (iv : Nonce) (text : String) :
    (envelope gcm key iv text).take 12 = iv.bytes ∧
      ((envelope gcm key iv text).drop 12).take 16 = (gcm.sealUnder key iv.bytes (utf8 text)).1 ∧
      (envelope gcm key iv text).drop 28 = (gcm.sealUnder key iv.bytes (utf8 text)).2 := by
  have htag := hgcm.length_tag key iv.bytes (utf8 text)
  unfold envelope
  refine ⟨?_, ?_, ?_⟩
  · rw [List.append_assoc, List.take_left' iv.length_eq]
  · rw [List.append_assoc, List.drop_left' iv.length_eq, List.take_left' htag]
  · apply List.drop_left'
    rw [List.length_append, iv.length_eq, htag]

/-- **The round trip.** -/
theorem decrypt_encrypt (hgcm : gcm.Lawful) (key : Key) (iv : Nonce) (text : String) :
    decrypt gcm key (encrypt gcm key iv text) = .ok text := by
  obtain ⟨hnonce, htag, henc⟩ := envelope_parts hgcm key iv text
  simp only [decrypt, encrypt, Base64.ofText_toText, hnonce, htag, henc, hgcm.open_seal,
    ofUtf8_utf8]

/-- The round trip through a column, which holds the octets of the payload. -/
theorem decrypt_stored (hgcm : gcm.Lawful) (key : Key) (iv : Nonce) (text : String) :
    decrypt gcm key (Base64.toText (Base64.ofText (encrypt gcm key iv text))) = .ok text := by
  rw [encrypt, Base64.ofText_toText]
  exact decrypt_encrypt hgcm key iv text

end BankDemo.AesGcm
