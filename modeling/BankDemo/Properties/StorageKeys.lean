import BankDemo.Documents.Storage

/-!
# Where storage keys lead

`safePath` compares texts: the path of a key is accepted when its text begins with that of the root.
A directory beside the root whose name begins with the root's is accepted as well, and these are the
only keys that lead out of the root (`contained_iff`). Absolute keys and dot segments are no way
out, and the root of the file system has no sibling.
-/

namespace BankDemo.Documents

open Paths

/-- The same files at the paths below a root. -/
def SameBelow (root : Path) (d d' : Disk) : Prop := ∀ p, Path.Within root p → d' p = d p

/-- The same files at the paths that are not below a root. -/
def SameFilesOutside (root : Path) (d d' : Disk) : Prop :=
  ∀ p, ¬ Path.Within root p → fileAt d' p = fileAt d p

namespace FilesystemStorage

/-- A key stays inside the root: its path is refused or is the root or below it, what `get` gives
depends on what is there, and `put` and `delete` change no other file. -/
structure Contained (s : FilesystemStorage) (key : Text) : Prop where
  safePath : ∀ p, s.safePath key = .ok p → Path.Within s.root p
  get : ∀ d d', SameBelow s.root d d' → s.get d' key = s.get d key
  put : ∀ d body, SameFilesOutside s.root d (s.put d key body).1
  delete : ∀ d, SameFilesOutside s.root d (s.delete d key).1

/-- A write to a path below the root, with the directories that it needs, changes no other file. -/
theorem writes_inside {root p : Path} (hp : Path.Within root p) (d : Disk) (dir : Path)
    (body : Buffer) : SameFilesOutside root d (writeFile (mkdir d dir).1 p body).1 := by
  intro q hq
  have hne : q ≠ p := fun h => hq (h ▸ hp)
  rw [fileAt_congr (writeFile_ne _ body hne), fileAt_mkdir]

/-- Whatever becomes of it, `put` changes files only at the path of its key. -/
theorem put_inside (s : FilesystemStorage) {key : Text}
    (hkey : ∀ p, s.safePath key = .ok p → Path.Within s.root p) (d : Disk) (body : Buffer) :
    SameFilesOutside s.root d (s.put d key body).1 := by
  rw [put]
  cases hsafe : s.safePath key with
  | error e => exact fun _ _ => rfl
  | ok path =>
    have hwrite := writes_inside (hkey path hsafe) d path.parent body
    have hdirs : SameFilesOutside s.root d (mkdir d path.parent).1 :=
      fun q _ => fileAt_mkdir d path.parent q
    rcases hmk : mkdir d path.parent with ⟨d₁, e | _⟩
    · simpa [hmk] using hdirs
    · rw [hmk] at hwrite
      rcases hwf : writeFile d₁ path body with ⟨d₂, e | _⟩ <;> simpa [hmk, hwf] using hwrite

/-- **Storage keys stay inside the root** if and only if they do not lead into a directory beside
it whose name is longer and begins with the root's. -/
theorem contained_iff (s : FilesystemStorage) (key : Text) :
    s.Contained key ↔ ¬ Path.BesideLonger s.root (s.root.follow key) := by
  constructor
  · intro h hbeside
    have hok : s.safePath key = .ok (s.root.follow key) :=
      (s.safePath_ok_iff key _).2 ⟨rfl, .inr hbeside⟩
    exact hbeside.not_within (h.safePath _ hok)
  · intro hbeside
    have hsafe : ∀ p, s.safePath key = .ok p → Path.Within s.root p := by
      intro p hp
      obtain ⟨rfl, hwithin⟩ := (s.safePath_ok_iff key p).1 hp
      exact hwithin.resolve_right hbeside
    refine ⟨hsafe, fun d d' hsame => ?_, s.put_inside hsafe, fun d q hq => ?_⟩
    · rw [get, get]
      cases hp : s.safePath key with
      | error e => rfl
      | ok path => simp only [readFile, hsame path (hsafe path hp)]
    · rw [delete]
      cases hp : s.safePath key with
      | error e => rfl
      | ok path => exact fileAt_congr (unlink_ne d fun h => hq (h ▸ hsafe path hp))

/-- Storage in `/srv/storage`. -/
def sampleStorage : FilesystemStorage := .new .root (some "/srv/storage".toList)

/-- A key to a directory beside it is taken for one inside. -/
theorem backup_not_contained :
    ¬ ∀ (s : FilesystemStorage) (key : Text), s.Contained key := by
  intro h
  have hin := (h sampleStorage "../storage-backup/x".toList).safePath
    (sampleStorage.root.follow "../storage-backup/x".toList) (by decide +kernel)
  revert hin
  decide +kernel

/-- With the root of the file system as its root, the storage has no way out. -/
theorem contained_of_root (s : FilesystemStorage) (key : Text) (hroot : s.root = .root) :
    s.Contained key := by
  rw [contained_iff, hroot]
  rintro ⟨dir, n, ext, below, h, -⟩
  simp at h

/-- A key written by names alone leads to the place that it spells, below the root. -/
theorem contained_of_names (s : FilesystemStorage) {first : Text} {ns : List Text}
    (hfirst : IsName first) (hns : ∀ n ∈ ns, IsName n) :
    s.Contained (first ++ ns.flatMap ('/' :: ·)) := by
  rw [contained_iff]
  intro hbeside
  apply hbeside.not_within
  rw [Path.Within, Path.follow_names _ hfirst hns]
  exact List.prefix_append ..

end FilesystemStorage

end BankDemo.Documents
