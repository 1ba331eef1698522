import BankDemo.Documents.Storage
import BankDemo.Foundations.JsString

/-!
# Private attachments and the public proxy

The proxy looks at the first segment of a key and the driver at where all of them lead. They disagree
on a path whose segments, with the escapes undone twice, lead below `support` of the storage root by a
detour, and these are the only requests that the proxy answers with a private file
(`private_files_iff`). It undoes the escapes once more than the blocker and the static mount before it
do, so such paths get past them.
-/

namespace BankDemo.Documents

open Paths Uri

/-- A path below `support` of the storage root. -/
def PrivatePath (s : FilesystemStorage) (p : Path) : Prop :=
  ∃ file below, p.names = s.root.names ++ "support".toList :: file :: below

/-- The proxy answers with the content of the file at `p`: it would find nothing without it. -/
def SendsFile (s : FilesystemStorage) (d : Disk) (param : Text) (p : Path) : Prop :=
  ∃ type body, fileAt d p = some body ∧ storageProxy s d param = .sent type body ∧
    storageProxy s (Function.update d p none) param = .notFound

theorem get_ok_iff (s : FilesystemStorage) (d : Disk) (key : Text) (body : Buffer) :
    s.get d key = .ok body ↔ ∃ p, s.safePath key = .ok p ∧ fileAt d p = some body := by
  rw [FilesystemStorage.get]
  cases hp : s.safePath key with
  | error e => simp
  | ok path => simp

/-- A parameter that is answered with a file: the key is not refused and names it. -/
theorem storageProxy_sent_iff (s : FilesystemStorage) (d : Disk) (param : Text) (type : String)
    (body : Buffer) :
    storageProxy s d param = .sent type body ↔
      ∃ key, decodeURIComponent param = some key ∧ isSupportKey key = false ∧
        s.get d key = .ok body ∧ type = mimeFromKey key := by
  rw [storageProxy]
  cases hkey : decodeURIComponent param with
  | none => simp
  | some key =>
    cases hspell : isSupportKey key with
    | true => simp [hspell]
    | false =>
      cases hget : s.get d key with
      | error e => simp [hspell, hget]
      | ok buf =>
        simp [hspell, hget]
        exact ⟨fun h => ⟨h.2, h.1.symm⟩, fun h => ⟨h.2.symm, h.1⟩⟩

/-- Which file the proxy sends. -/
theorem sendsFile_iff (s : FilesystemStorage) (d : Disk) (param : Text) (p : Path) :
    SendsFile s d param p ↔
      ∃ key, decodeURIComponent param = some key ∧ isSupportKey key = false ∧
        s.safePath key = .ok p ∧ (fileAt d p).isSome = true := by
  constructor
  · rintro ⟨type, body, hfile, hsent, hgone⟩
    obtain ⟨key, hkey, hspell, hget, rfl⟩ := (storageProxy_sent_iff ..).1 hsent
    obtain ⟨q, hq, hbody⟩ := (get_ok_iff ..).1 hget
    refine ⟨key, hkey, hspell, ?_, by rw [hfile]; rfl⟩
    by_cases hpq : q = p
    · rw [← hpq]
      exact hq
    · -- another file is read, and it is still there without the one at `p`
      have hstill : fileAt (Function.update d p none) q = some body := by
        rw [fileAt_congr (Function.update_of_ne hpq none d)]
        exact hbody
      have hsent' := (storageProxy_sent_iff s _ param _ body).2
        ⟨key, hkey, hspell, (get_ok_iff ..).2 ⟨q, hq, hstill⟩, rfl⟩
      rw [hgone] at hsent'
      cases hsent'
  · rintro ⟨key, hkey, hspell, hsafe, hsome⟩
    obtain ⟨body, hbody⟩ := Option.isSome_iff_exists.mp hsome
    refine ⟨mimeFromKey key, body, hbody, ?_, ?_⟩
    · exact (storageProxy_sent_iff ..).2
        ⟨key, hkey, hspell, (get_ok_iff ..).2 ⟨p, hsafe, hbody⟩, rfl⟩
    · simp [storageProxy, hkey, hspell, FilesystemStorage.get, hsafe, readFile]

/-- Private paths are below the root, so `safePath` has no objection to them. -/
theorem safePath_of_private {s : FilesystemStorage} {key : Text}
    (h : PrivatePath s (s.root.follow key)) : s.safePath key = .ok (s.root.follow key) := by
  obtain ⟨file, below, hp⟩ := h
  refine (s.safePath_ok_iff key _).2 ⟨rfl, .inl ?_⟩
  rw [Path.Within, hp]
  exact List.prefix_append ..

/-! ## The segments of a path -/

/-- The segments of the key that a path asks for: of what follows `/storage/`, with the escapes undone
twice. -/
def keySegments (path : Text) : Option (List Text) :=
  (((storageRoute path).bind decodeURIComponent).bind decodeURIComponent).map segments

/-- The path begins with the segments `storage` and `support`, in any case. -/
def NamesSupport (path : Text) : Prop :=
  ((segments path).map (List.map Char.toLower)).take 3 =
    [[], "storage".toList, "support".toList]

theorem keySegments_eq_some_iff {path : Text} {ss : List Text} : keySegments path = some ss ↔
    ∃ param key, (storageRoute path).bind decodeURIComponent = some param ∧
      decodeURIComponent param = some key ∧ segments key = ss := by
  rw [keySegments, Option.map_eq_some_iff]
  constructor
  · rintro ⟨key, hkey, rfl⟩
    obtain ⟨param, hparam, hkey⟩ := Option.bind_eq_some_iff.1 hkey
    exact ⟨param, key, hparam, hkey, rfl⟩
  · rintro ⟨param, key, hparam, hkey, rfl⟩
    exact ⟨key, Option.bind_eq_some_iff.2 ⟨param, hparam, hkey⟩, rfl⟩

/-- The proxy refuses the keys whose first segment is `support`. -/
theorem isSupportKey_iff (key : Text) :
    isSupportKey key = true ↔ (segments key).head? = some "support".toList := by
  have htake := segments_take_iff "support".toList [] (by decide) (by simp) key
  rw [List.flatMap_nil, List.append_nil, List.length_nil, zero_add] at htake
  obtain ⟨first, ns, hsegs, -⟩ := exists_segments key
  rw [hsegs, List.take_succ_cons, List.take_zero, List.singleton_inj] at htake
  rw [hsegs, List.head?_cons, Option.some_inj, htake, isSupportKey, Bool.or_eq_true, beq_iff_eq,
    List.isPrefixOf_iff_prefix]
  constructor
  · rintro (rfl | ⟨below, rfl⟩)
    · exact ⟨[], by simp, .inl rfl⟩
    · exact ⟨'/' :: below, rfl, .inr rfl⟩
  · rintro ⟨rest, rfl, rfl | hrest⟩
    · exact .inl (List.append_nil _)
    · obtain ⟨below, rfl⟩ := List.head?_eq_some_iff.1 hrest
      exact .inr ⟨below, rfl⟩

theorem toLower_eq_slash (c : Char) : c.toLower = '/' ↔ c = '/' := by
  rcases JsString.toLower_cases c with hsame | ⟨hlow, -, hlower⟩
  · rw [hsame]
  · constructor
    · intro h
      rw [h] at hlower
      have hslash : ('/' : Char).toNat = 47 := rfl
      omega
    · rintro rfl
      rfl

/-- A text begins with a mount path up to the case of letters. -/
theorem begins_map_iff {f : Char → Char} (hf : ∀ c, f c = '/' ↔ c = '/') (mount t : Text) :
    (t.take mount.length).map f = mount ∧
        (t.drop mount.length = [] ∨ (t.drop mount.length).head? = some '/') ↔
      ∃ rest, t.map f = mount ++ rest ∧ (rest = [] ∨ rest.head? = some '/') := by
  have hends : ∀ below : Text, below.map f = [] ∨ (below.map f).head? = some '/' ↔
      below = [] ∨ below.head? = some '/' := by
    intro below
    cases below <;> simp [hf]
  constructor
  · rintro ⟨hmount, hrest⟩
    refine ⟨(t.drop mount.length).map f, ?_, (hends _).2 hrest⟩
    calc t.map f = (t.take mount.length).map f ++ (t.drop mount.length).map f := by
          rw [← List.map_append, List.take_append_drop]
      _ = mount ++ (t.drop mount.length).map f := by rw [hmount]
  · rintro ⟨rest, ht, hrest⟩
    refine ⟨by rw [List.map_take, ht, List.take_left], (hends _).1 ?_⟩
    rwa [List.map_drop, ht, List.drop_left]

/-- The blocker refuses the paths that begin with the segments `storage` and `support`. -/
theorem supportBlocked_iff (path : Text) : supportBlocked path = true ↔ NamesSupport path := by
  have htake := segments_take_iff [] ["storage".toList, "support".toList]
    (by simp) (by decide) (path.map Char.toLower)
  have hbegins := begins_map_iff toLower_eq_slash "/storage/support".toList path
  rw [NamesSupport, ← segments_map toLower_eq_slash]
  refine Iff.trans ?_ (hbegins.trans htake.symm)
  rw [supportBlocked, Bool.and_eq_true, beq_iff_eq, Bool.or_eq_true, beq_iff_eq, beq_iff_eq]

theorem proxyParam_eq_some_iff {serveStatic : Disk → Text → Option Response} {d : Disk}
    {path param : Text} : proxyParam serveStatic d path = some param ↔
      ¬ NamesSupport path ∧ serveStatic d path = none ∧
        (storageRoute path).bind decodeURIComponent = some param := by
  rw [proxyParam, ← supportBlocked_iff]
  cases supportBlocked path with
  | true => simp
  | false => cases serveStatic d path <;> simp

/-- **Private attachments are not public** if and only if a path whose segments lead to a file below
`support`, with the escapes undone twice and after crossing out, has `support` for the first of them,
or it begins with the segments `storage` and `support` as it is, or the static mount answers it. -/
theorem private_files_iff (serveStatic : Disk → Text → Option Response) (s : FilesystemStorage)
    (d : Disk) (path : Text) :
    (∀ param, proxyParam serveStatic d path = some param →
      ∀ p, SendsFile s d param p → ¬ PrivatePath s p) ↔
    ∀ ss, keySegments path = some ss → ∀ p, CrossedOut (s.root.fromTop ss) p.names →
      PrivatePath s p → (fileAt d p).isSome = true →
      ss.head? = some "support".toList ∨ NamesSupport path ∨ (serveStatic d path).isSome = true := by
  constructor
  · intro h ss hss p hleads hprivate hfile
    obtain ⟨param, key, hparam, hkey, rfl⟩ := keySegments_eq_some_iff.1 hss
    by_contra hout
    push Not at hout
    obtain ⟨hfirst, hnamed, hstatic⟩ := hout
    have hfollow : s.root.follow key = p := Paths.Path.ext ((crossedOut_follow_iff ..).1 hleads)
    have hspell : isSupportKey key = false := by
      rwa [Ne, ← isSupportKey_iff, Bool.not_eq_true] at hfirst
    have hreaches : proxyParam serveStatic d path = some param :=
      proxyParam_eq_some_iff.2 ⟨hnamed, by simpa using hstatic, hparam⟩
    refine h param hreaches p ?_ hprivate
    subst hfollow
    exact (sendsFile_iff ..).2 ⟨key, hkey, hspell, safePath_of_private hprivate, hfile⟩
  · intro h param hreaches p hsends hprivate
    obtain ⟨hnamed, hstatic, hparam⟩ := proxyParam_eq_some_iff.1 hreaches
    obtain ⟨key, hkey, hspell, hsafe, hfile⟩ := (sendsFile_iff ..).1 hsends
    obtain ⟨rfl, -⟩ := (s.safePath_ok_iff key p).1 hsafe
    rcases h _ (keySegments_eq_some_iff.2 ⟨param, key, hparam, hkey, rfl⟩) _
      ((crossedOut_follow_iff ..).2 rfl) hprivate hfile with hfirst | hnames | hanswers
    · rw [(isSupportKey_iff key).2 hfirst] at hspell
      cases hspell
    · exact hnamed hnames
    · rw [hstatic] at hanswers
      cases hanswers

/-- A disk with one attachment of a support thread. -/
def sampleDisk : Disk := fun p =>
  if p.names = ["srv", "storage", "support", "t", "a.png"].map String.toList then some (.file [1])
  else none

/-- The static mount on a path without dot segments: it is decoded once, and a file that is there
is sent. -/
def sampleStatic (d : Disk) (path : Text) : Option Response :=
  (storageRoute path).bind decodeURIComponent |>.bind fun name =>
    (fileAt d ((resolve .root ["/srv/storage".toList]).walk (segments name))).map fun body =>
      .sent (mimeFromKey name) body

/-- With the slashes beside a dot segment escaped twice, the attachment is sent to anyone. -/
theorem attachment_public :
    ¬ ∀ (serveStatic : Disk → Text → Option Response) (s : FilesystemStorage) (d : Disk)
      (path param : Text), proxyParam serveStatic d path = some param →
      ∀ p, SendsFile s d param p → ¬ PrivatePath s p := by
  intro h
  let s : FilesystemStorage := .new .root (some "/srv/storage".toList)
  let p : Path := resolve .root ["/srv/storage/support/t/a.png".toList]
  refine h sampleStatic s sampleDisk "/storage/x%252f..%252fsupport/t/a.png".toList
    "x%2f..%2fsupport/t/a.png".toList (by decide +kernel) p ?_ ?_
  · exact (sendsFile_iff ..).2
      ⟨"x/../support/t/a.png".toList, by decide +kernel, by decide +kernel, by decide +kernel,
        by decide +kernel⟩
  · exact ⟨"t".toList, ["a.png".toList], by decide +kernel⟩

/-- Keys written by names alone are no way around the check. -/
theorem isSupportKey_of_names (s : FilesystemStorage) {first : Text} {ns : List Text}
    (hfirst : IsName first) (hns : ∀ n ∈ ns, IsName n)
    (hprivate : PrivatePath s (s.root.follow (first ++ ns.flatMap ('/' :: ·)))) :
    isSupportKey (first ++ ns.flatMap ('/' :: ·)) = true := by
  obtain ⟨file, below, hp⟩ := hprivate
  rw [Path.follow_names _ hfirst hns] at hp
  obtain ⟨rfl, rfl⟩ := List.cons.inj (List.append_cancel_left hp)
  rfl

/-- With such a key for its parameter, the proxy sends no private file. -/
theorem not_private_of_names (s : FilesystemStorage) (d : Disk) {first : Text} {ns : List Text}
    (hfirst : IsName first) (hns : ∀ n ∈ ns, IsName n)
    (hplain : '%' ∉ first ++ ns.flatMap ('/' :: ·)) {p : Path}
    (hsends : SendsFile s d (first ++ ns.flatMap ('/' :: ·)) p) : ¬ PrivatePath s p := by
  intro hprivate
  obtain ⟨key, hkey, hspell, hsafe, -⟩ := (sendsFile_iff ..).1 hsends
  rw [decodeURIComponent_plain hplain] at hkey
  obtain rfl := Option.some.inj hkey
  obtain ⟨rfl, -⟩ := (s.safePath_ok_iff _ p).1 hsafe
  rw [isSupportKey_of_names s hfirst hns hprivate] at hspell
  cases hspell

end BankDemo.Documents
