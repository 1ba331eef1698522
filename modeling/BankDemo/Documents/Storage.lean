import BankDemo.Foundations.Paths
import BankDemo.Foundations.Uri

/-!
# Storage on the file system, and public files

`FilesystemStorage` of `documents/storage`, over a disk without symbolic links: what is at each
normalised path.

What `main.ts` puts on paths under `/storage/`: a blocker for `/storage/support`, the static mount
of the storage root (`serveStatic`, which answers or calls the next handler) and the proxy of the
storage driver.
-/

namespace BankDemo.Documents

open Paths

/-- The content of a file. -/
abbrev Buffer := List UInt8

/-- What can be at a path. -/
inductive Entry
  | file (content : Buffer)
  | directory
  deriving DecidableEq

/-- The disk of the server. -/
abbrev Disk := Path → Option Entry

/-- What the storage throws: an `Error` of its own or a failed system call. -/
inductive StorageError
  | error (message : String)
  | noEntry | isDirectory | notDirectory
  deriving DecidableEq

/-- The file at a path. -/
def fileAt (d : Disk) (p : Path) : Option Buffer :=
  match d p with
  | some (.file content) => some content
  | _ => none

/-! ## System calls -/

/-- `fs.readFile`. -/
def readFile (d : Disk) (p : Path) : Except StorageError Buffer :=
  match d p with
  | some (.file content) => .ok content
  | some .directory => .error .isDirectory
  | none => .error .noEntry

/-- `fs.writeFile`, into a directory that is there. -/
def writeFile (d : Disk) (p : Path) (content : Buffer) : Disk × Except StorageError Unit :=
  match d p with
  | some .directory => (d, .error .isDirectory)
  | _ => (Function.update d p (some (.file content)), .ok ())

/-- `fs.unlink`. -/
def unlink (d : Disk) (p : Path) : Disk × Except StorageError Unit :=
  match d p with
  | some (.file _) => (Function.update d p none, .ok ())
  | some .directory => (d, .error .isDirectory)
  | none => (d, .error .noEntry)

/-- The path above `p` with `i` names. -/
def above (p : Path) (i : ℕ) : Path :=
  ⟨p.names.take i, fun n hn => p.isName n (List.mem_of_mem_take hn)⟩

/-- `fs.mkdir(p, { recursive: true })`: the directories that are missing on the way to `p`. -/
def mkdir (d : Disk) (p : Path) : Disk × Except StorageError Unit :=
  if (List.range (p.names.length + 1)).any fun i => (fileAt d (above p i)).isSome then
    (d, .error .notDirectory)
  else
    (fun q => if d q = none ∧ Path.Within q p then some .directory else d q, .ok ())

/-! ## The driver -/

/-- The driver, in a process with a current directory. -/
structure FilesystemStorage where
  cwd : Path
  root : Path

namespace FilesystemStorage

/-- The driver for a configured `STORAGE_FS_ROOT`. -/
def new (cwd : Path) (storageFsRoot : Option Text) : FilesystemStorage :=
  { cwd, root := resolve cwd [storageFsRoot.getD "./tooling/storage".toList] }

/-- The path of a key. -/
def safePath (s : FilesystemStorage) (key : Text) : Except StorageError Path :=
  let target := resolve s.cwd [s.root.render, key]
  if s.root.render.isPrefixOf target.render then .ok target
  else .error (.error "Invalid storage key")

def put (s : FilesystemStorage) (d : Disk) (key : Text) (body : Buffer) :
    Disk × Except StorageError Text :=
  match s.safePath key with
  | .error e => (d, .error e)
  | .ok path =>
    match mkdir d path.parent with
    | (d, .error e) => (d, .error e)
    | (d, .ok ()) =>
      match writeFile d path body with
      | (d, .error e) => (d, .error e)
      | (d, .ok ()) => (d, .ok key)

def get (s : FilesystemStorage) (d : Disk) (key : Text) : Except StorageError Buffer :=
  match s.safePath key with
  | .error e => .error e
  | .ok path => readFile d path

/-- Deletion. Only the key is checked: a failed `unlink` is ignored. -/
def delete (s : FilesystemStorage) (d : Disk) (key : Text) : Disk × Except StorageError Unit :=
  match s.safePath key with
  | .error e => (d, .error e)
  | .ok path => ((unlink d path).1, .ok ())

/-- A key resolves to where it leads from the root of the storage. -/
theorem safePath_eq (s : FilesystemStorage) (key : Text) :
    s.safePath key =
      if s.root.render <+: (s.root.follow key).render then .ok (s.root.follow key)
      else .error (.error "Invalid storage key") := by
  rw [safePath, resolve_pair]
  simp only [List.isPrefixOf_iff_prefix]

/-- A key is accepted exactly when it leads below the root or below a longer sibling of it. -/
theorem safePath_ok_iff (s : FilesystemStorage) (key : Text) (p : Path) :
    s.safePath key = .ok p ↔
      p = s.root.follow key ∧ (Path.Within s.root p ∨ Path.BesideLonger s.root p) := by
  rw [safePath_eq, ← render_prefix_iff]
  split
  · rename_i h
    constructor
    · rintro ⟨⟩
      exact ⟨rfl, h⟩
    · rintro ⟨rfl, -⟩
      rfl
  · rename_i h
    constructor
    · rintro ⟨⟩
    · rintro ⟨rfl, hp⟩
      exact (h hp).elim

end FilesystemStorage

/-! ## What the system calls change -/

@[simp] theorem readFile_ok_iff (d : Disk) (p : Path) (b : Buffer) :
    readFile d p = .ok b ↔ fileAt d p = some b := by
  rw [readFile, fileAt]
  cases d p with
  | none => simp
  | some e => cases e <;> simp

theorem fileAt_congr {d d' : Disk} {p : Path} (h : d' p = d p) : fileAt d' p = fileAt d p := by
  rw [fileAt, fileAt, h]

/-- Only the written path changes. -/
theorem writeFile_ne (d : Disk) {p q : Path} (b : Buffer) (h : q ≠ p) :
    (writeFile d p b).1 q = d q := by
  rw [writeFile]
  split
  · rfl
  · exact Function.update_of_ne h _ _

/-- Only the removed path changes. -/
theorem unlink_ne (d : Disk) {p q : Path} (h : q ≠ p) : (unlink d p).1 q = d q := by
  rw [unlink]
  split
  · exact Function.update_of_ne h _ _
  · rfl
  · rfl

/-- New directories are no files. -/
theorem fileAt_mkdir (d : Disk) (p q : Path) : fileAt (mkdir d p).1 q = fileAt d q := by
  rw [mkdir]
  split
  · rfl
  · rw [fileAt, fileAt]
    dsimp only
    split_ifs with h
    · rw [h.1]
    · rfl

/-! ## Public files -/

open Uri

/-- The answer to a `GET` request. -/
inductive Response
  | notFound
  | badRequest
  | sent (contentType : String) (body : Buffer)
  | next
  deriving DecidableEq

/-- The content type of a key, guessed from its extension. -/
def mimeFromKey (key : Text) : String :=
  match String.ofList (((key.splitOn '.').getLast?.getD []).map Char.toLower) with
  | "jpg" | "jpeg" => "image/jpeg"
  | "png" => "image/png"
  | "webp" => "image/webp"
  | "gif" => "image/gif"
  | "pdf" => "application/pdf"
  | _ => "application/octet-stream"

/-- `app.use('/storage/support', …)`: the mount path in any case, at the end of a segment. -/
def supportBlocked (path : Text) : Bool :=
  let mount := "/storage/support".toList
  (path.take mount.length).map Char.toLower == mount &&
    (path.drop mount.length == [] || (path.drop mount.length).head? == some '/')

/-- What `.` of a regular expression does not match. -/
def isLineTerminator (c : Char) : Bool :=
  c == '\n' || c == '\r' || c == '\u2028' || c == '\u2029'

/-- `/^\/storage\/(.+)/`. -/
def storageRoute (path : Text) : Option Text :=
  let mount := "/storage/".toList
  if mount.isPrefixOf path then
    match (path.drop mount.length).takeWhile fun c => !isLineTerminator c with
    | [] => none
    | param => some param
  else none

/-- `key === 'support' || key.startsWith('support/')`. -/
def isSupportKey (key : Text) : Bool :=
  key == "support".toList || "support/".toList.isPrefixOf key

/-- The proxy of the storage driver, on a parameter that Express has decoded. -/
def storageProxy (s : FilesystemStorage) (d : Disk) (param : Text) : Response :=
  match decodeURIComponent param with
  | none => .badRequest
  | some key =>
    if isSupportKey key then .notFound
    else
      match s.get d key with
      | .ok buf => .sent (mimeFromKey key) buf
      | .error _ => .notFound

section

variable (serveStatic : Disk → Text → Option Response) (s : FilesystemStorage) (d : Disk)

/-- The request for a path. -/
def serveStorage (path : Text) : Response :=
  if supportBlocked path then .notFound
  else
    match serveStatic d path with
    | some response => response
    | none =>
      match storageRoute path with
      | none => .next
      | some raw =>
        match decodeURIComponent raw with
        | none => .badRequest
        | some param => storageProxy s d param

/-- The parameter with which a request reaches the proxy. -/
def proxyParam (path : Text) : Option Text :=
  if supportBlocked path then none
  else
    match serveStatic d path with
    | some _ => none
    | none => (storageRoute path).bind decodeURIComponent

/-- A request that reaches the proxy is answered by it. -/
theorem serveStorage_of_proxyParam {path param : Text}
    (h : proxyParam serveStatic d path = some param) :
    serveStorage serveStatic s d path = storageProxy s d param := by
  unfold proxyParam at h
  unfold serveStorage
  split at h
  · cases h
  · rename_i hblocked
    rw [if_neg hblocked]
    split at h
    · cases h
    · obtain ⟨raw, hraw, hdecode⟩ := Option.bind_eq_some_iff.mp h
      simp only [hraw, hdecode]

end

end BankDemo.Documents
