import BankDemo.Foundations.Interleave
import BankDemo.Support.Rules

/-!
# Support chats are private

What a customer or a guest is shown of a thread was posted into that thread, by the party the thread
belongs to or by the staff, and is shown as it was posted. A guest comes with a token for the thread, and
the tokens that are given out are each for a new thread (`chats_private`).

A file that is sent was made of a file that was uploaded into the thread, by a party of it: the key of
the object names the thread. It is shown in the browser only if the image library wrote it; what the
client uploaded is saved, if it is sent at all, and the name cannot end its header (`files_harmless`).
-/

namespace BankDemo.Support.Desk

open Prog UuidText

open Documents (Buffer)

variable {env : Env}

/-- The parties that share a thread: its customer or its guest, and the staff. -/
def Party.Meets : Party → Party → Prop
  | .customer userId, .customer userId' => userId = userId'
  | .customer _, .guest .. | .guest .., .customer _ => False
  | _, _ => True

section Runs

variable {s₀ : State} {tr : List (Step State Call)} {P : Pool State Error Answer Call}

theorem step_of_run (hrun : Run (fun _ => handle env) (fun _ => True) s₀ tr P)
    {later earlier : List (Step State Call)} {x : Step State Call}
    (hsplit : tr = later ++ x :: earlier) :
    DeskStep env x.call (own x.tid earlier) x.pre x.post :=
  (hrun.does fun _ c _ => handle_does c).1 later x earlier hsplit

/-- A thread stays its owner's. -/
theorem owner_kept (hrun : Run (fun _ => handle env) (fun _ => True) s₀ tr P) {x : Step State Call}
    (hx : x ∈ tr) {t : Uuid} {o : Option Uuid × Option Uuid} (ho : owner x.pre t = some o) :
    owner P.state t = some o := by
  obtain ⟨later, earlier, hsplit⟩ := List.mem_iff_append.1 hx
  rw [hrun.pre_eq hsplit] at ho
  rw [hrun.state_eq]
  refine (hrun.keeps (I := fun s => owner s t = some o)
    (show tr = (later ++ [x]) ++ earlier by simp [hsplit]) ho ?_).2
  intro late y mid hmid hpre
  exact (step_of_run hrun (show tr = late ++ y :: (mid ++ earlier) by
    rw [hsplit, ← List.singleton_append, ← List.append_assoc, hmid]
    simp)).kept t o hpre

/-- A thread is a customer's or a guest's. -/
theorem owner_cases (hthreads : s₀.threads = ∅)
    (hrun : Run (fun _ => handle env) (fun _ => True) s₀ tr P) {t : Uuid}
    {o : Option Uuid × Option Uuid} (ho : owner P.state t = some o) :
    (∃ userId, o = (some userId, none)) ∨ ∃ guestId, o = (none, some guestId) := by
  refine hrun.induct (I := fun _ s => owner s t = some o →
    (∃ userId, o = (some userId, none)) ∨ ∃ guestId, o = (none, some guestId)) ?_ ?_ ho
  · intro hstart
    rw [owner, hthreads] at hstart
    cases hstart
  · intro later x earlier hsplit ih hpost
    rcases (step_of_run hrun hsplit).opened t o hpost with hpre | ⟨-, hopens⟩
    · exact ih hpre
    · unfold Call.opens at hopens
      split at hopens
      · cases hopens
        exact .inl ⟨_, rfl⟩
      · cases hopens
        exact .inr ⟨_, rfl⟩
      · cases hopens

theorem Entitled.owns (hrun : Run (fun _ => handle env) (fun _ => True) s₀ tr P) {i : ℕ} {p : Party}
    {t : Uuid} (h : Entitled p t (own i tr)) : p.Owns t P.state := by
  rcases h with rfl | ⟨g, hg, howns⟩
  · exact trivial
  · obtain ⟨x, hx, -, rfl, -⟩ := mem_own.1 hg
    cases p with
    | customer userId =>
      obtain ⟨guestId, ho⟩ := howns
      exact ⟨guestId, owner_kept hrun hx ho⟩
    | guest now token =>
      obtain ⟨htoken, userId, guestId, ho⟩ := howns
      exact ⟨htoken, userId, guestId, owner_kept hrun hx ho⟩
    | staff => exact trivial

theorem Entitled.mono {own own' : List (State × State)} {p : Party} {t : Uuid}
    (h : Entitled p t own) (hsub : own ⊆ own') : Entitled p t own' := by
  rcases h with hstaff | ⟨g, hg, howns⟩
  · exact .inl hstaff
  · exact .inr ⟨g, hsub hg, howns⟩

theorem own_subset {i : ℕ} {later earlier : List (Step State Call)} {x : Step State Call}
    (hsplit : tr = later ++ x :: earlier) : own i earlier ⊆ own i tr := by
  intro y hy
  rw [hsplit, own_append, ← List.singleton_append, own_append]
  simp [hy]

/-- Parties to which a thread belongs share it. -/
theorem meets_of_owns (hthreads : s₀.threads = ∅)
    (hrun : Run (fun _ => handle env) (fun _ => True) s₀ tr P) {p q : Party} {t : Uuid}
    (hp : p.Owns t P.state) (hq : q.Owns t P.state) : p.Meets q := by
  cases p with
  | staff => exact trivial
  | customer userId =>
    obtain ⟨guestId, ho⟩ := hp
    cases q with
    | staff => exact trivial
    | customer userId' =>
      obtain ⟨guestId', ho'⟩ := hq
      rw [ho] at ho'
      cases ho'
      exact rfl
    | guest now token =>
      obtain ⟨-, userId', guestId', ho'⟩ := hq
      rcases owner_cases hthreads hrun ho' with ⟨u, h⟩ | ⟨g, h⟩
      · cases h
      · rw [ho, h] at ho'
        cases ho'
  | guest now token =>
    obtain ⟨-, userId, guestId, ho⟩ := hp
    cases q with
    | staff => exact trivial
    | guest now' token' => exact trivial
    | customer userId' =>
      obtain ⟨guestId', ho'⟩ := hq
      rcases owner_cases hthreads hrun ho with ⟨u, h⟩ | ⟨g, h⟩
      · cases h
      · rw [h, ho'] at ho
        cases ho

/-- The step of a party of the thread that made the row. -/
structure Posted (env : Env) (t : Uuid) (final : State) (x : Step State Call) (author : Party)
    (id : Uuid) (m : SupportMessage) : Prop where
  new : x.pre.messages.lookup id = none
  post : ∃ m₀, x.call.posts env = some (id, m₀) ∧ SameText m₀ m
  thread : m.threadId = t
  acts : x.call.acts = some (author, t)
  owns : author.Owns t final

/-- Every message was posted. -/
theorem posted_of_run (hmessages : s₀.messages = ∅)
    (hrun : Run (fun _ => handle env) (fun _ => True) s₀ tr P) {later earlier : List (Step State Call)}
    {g : Step State Call} (hsplit : tr = later ++ g :: earlier) {id : Uuid} {m : SupportMessage}
    (hm : g.pre.messages.lookup id = some m) :
    ∃ x ∈ tr, ∃ author, Posted env m.threadId P.state x author id m := by
  refine hrun.induct_before (I := fun _ s => ∀ m, s.messages.lookup id = some m →
    ∃ x ∈ tr, ∃ author, Posted env m.threadId P.state x author id m) ?_ ?_ hsplit m hm
  · intro m hstart
    rw [hmessages] at hstart
    cases hstart
  · intro later x earlier hsplit ih m hpost
    rcases (step_of_run hrun hsplit).messages id m hpost with
      ⟨m₁, hm₁, hsame⟩ | ⟨hnew, hposts, p, hacts, hentitled⟩
    · obtain ⟨y, hy, author, hposted⟩ := ih m₁ hm₁
      obtain ⟨m₀, hposts, hsame₀⟩ := hposted.post
      have hthread : m.threadId = m₁.threadId := by rw [hsame]
      refine ⟨y, hy, author, ⟨hposted.new, ⟨m₀, hposts, ?_⟩, rfl, ?_, ?_⟩⟩
      · unfold SameText at hsame hsame₀ ⊢
        rw [hsame, hsame₀]
      · rw [hthread]
        exact hposted.acts
      · rw [hthread]
        exact hposted.owns
    · have hx : x ∈ tr := by
        rw [hsplit]
        simp
      exact ⟨x, hx, p, hnew, ⟨m, hposts, rfl⟩, rfl, hacts,
        (hentitled.mono (own_subset hsplit)).owns hrun⟩

theorem mem_messagesOf {t : Uuid} {g : State} {row : Uuid × SupportMessage} :
    row ∈ messagesOf t g ↔ g.messages.lookup row.1 = some row.2 ∧ row.2.threadId = t := by
  rw [messagesOf, (List.perm_insertionSort _ _).mem_iff, List.mem_filter, decide_eq_true_eq,
    List.mem_map, ← Table.mem_entries_iff]
  constructor
  · rintro ⟨⟨e, he, rfl⟩, ht⟩
    exact ⟨he, ht⟩
  · rintro ⟨he, ht⟩
    exact ⟨⟨⟨row.1, row.2⟩, he, rfl⟩, ht⟩

/-- **Support chats are private.** In every interleaving of the requests from an empty chat, the rows
that a party is shown of a thread are posts into this thread, shown as they were posted, by a party
that shares the thread; the thread belongs to the party, and a guest has shown a token for it. The token
that a guest is given is for the thread that the request has opened for the guest, and nobody else is
given one. -/
theorem chats_private (env : Env) (s₀ : State) (hthreads : s₀.threads = ∅)
    (hmessages : s₀.messages = ∅) (tr : List (Step State Call)) (P : Pool State Error Answer Call)
    (hrun : Run (fun _ => handle env) (fun _ => True) s₀ tr P) :
    (∀ i c rows, P.Returned i c (.messages rows) → ∃ p t, c.acts = some (p, t) ∧
      p.Owns t P.state ∧ ∀ row ∈ rows, ∃ x ∈ tr, ∃ author,
        Posted env t P.state x author row.1 row.2 ∧ p.Meets author) ∧
    ∀ i c id token, P.Returned i c (.guest id token) →
      token.claims.purpose = some .guestSupport ∧ token.claims.tid = some id ∧
      (∃ x ∈ tr, x.tid = i ∧ owner x.pre id = none ∧ ∃ guestId,
        c.opens = some (id, (none, some guestId)) ∧ owner x.post id = some (none, some guestId)) ∧
      ∀ j c' id' token', P.Returned j c' (.guest id' token') → id' = id → j = i := by
  have hpromise : ∀ {i c a}, P.Returned i c a → Promise c (own i tr) (.ok a) := by
    intro i c a hreturned
    exact (hrun.does fun _ c _ => handle_does c).2 i _ hreturned.thread
  refine ⟨fun i c rows hreturned => ?_, fun i c id token hreturned => ?_⟩
  · obtain ⟨p, t, hacts, hentitled, g, hg, rfl⟩ := hpromise hreturned
    have howns := hentitled.owns hrun
    refine ⟨p, t, hacts, howns, fun row hrow => ?_⟩
    obtain ⟨hm, rfl⟩ := mem_messagesOf.1 hrow
    obtain ⟨y, hy, -, rfl, -⟩ := mem_own.1 hg
    obtain ⟨later, earlier, hsplit⟩ := List.mem_iff_append.1 hy
    obtain ⟨x, hx, author, hposted⟩ := posted_of_run hmessages hrun hsplit hm
    exact ⟨x, hx, author, hposted, meets_of_owns hthreads hrun howns hposted.owns⟩
  · obtain ⟨now, jti, guestId, name, email, hc, rfl, s, s', hopen, hnone, hsome⟩ := hpromise hreturned
    obtain ⟨x, hx, hxi, rfl, rfl⟩ := mem_own.1 hopen
    refine ⟨rfl, rfl, ⟨x, hx, hxi, hnone, guestId, by rw [hc]; rfl, ?_⟩,
      fun j c' id' token' hreturned' hid => ?_⟩
    · obtain ⟨later, earlier, hsplit⟩ := List.mem_iff_append.1 hx
      obtain ⟨o, ho⟩ := Option.isSome_iff_exists.1 hsome
      obtain ⟨th, hth, hcall⟩ := hrun.thread_of_step hx
      rw [hxi, hreturned.thread] at hth
      obtain rfl := Option.some.inj hth
      rcases (step_of_run hrun hsplit).opened id o ho with hpre | ⟨-, hopens⟩
      · rw [hnone] at hpre
        cases hpre
      · rw [← hcall, hc] at hopens
        cases hopens
        exact ho
    obtain ⟨_, _, _, _, _, -, -, u, u', hopen', hnone', hsome'⟩ := hpromise hreturned'
    obtain ⟨y, hy, hyj, rfl, rfl⟩ := mem_own.1 hopen'
    -- a thread is opened once
    have honce : AtMostOnce (Appears fun s => owner s id) tr := by
      refine hrun.appears_once fun z hz hthere => ?_
      obtain ⟨later, earlier, hsplit⟩ := List.mem_iff_append.1 hz
      obtain ⟨o, ho⟩ := Option.isSome_iff_exists.1 hthere
      rw [(step_of_run hrun hsplit).kept id o ho]
      rfl
    rw [hid] at hnone' hsome'
    have hsame := honce.eq hx hy ⟨hnone, hsome⟩ ⟨hnone', hsome'⟩
    rw [← hxi, ← hyj, hsame]

/-! ### Two chats -/

/-- Nothing is an image, and every image can be written. -/
def sampleDesk : Env where
  maxBytes := 10
  toLowerCase := id
  metadata := fun _ => none
  png := some
  jpeg := some

/-- Customer 1 and the staff write into the thread 10, and a guest opens the thread 20. -/
def sampleRequests : List (Choice Call) :=
  [.call (.myThread 0 10 1), .step 0, .step 0, .call (.guestOpen 0 7 20 8 "Bob" "bob@example.org"),
    .call (.send 1000 30 1 10 " Hello "), .step 2, .step 2, .step 1, .step 2, .step 2, .step 2, .step 2,
    .call (.adminReply 2000 31 9 10 "Hi"), .step 3, .step 3, .step 3,
    .call (.messages 1 10), .step 4, .step 4]

def sampleChats : List (Step State Call) × Pool State Error Answer Call :=
  exec (fun _ => handle sampleDesk) ⟨∅, ∅, [], []⟩ sampleRequests

/-- What customer 1 is shown. -/
def sampleRows : List (Uuid × SupportMessage) :=
  [(30, ⟨10, some 1, .customer, "Hello", 1000, none, none⟩),
    (31, ⟨10, some 9, .admin, "Hi", 2000, none, none⟩)]

theorem chats_private_sample :
    (∃ p t, Call.acts (.messages 1 10) = some (p, t) ∧ p.Owns t sampleChats.2.state ∧
      ∀ row ∈ sampleRows, ∃ x ∈ sampleChats.1, ∃ author,
        Posted sampleDesk t sampleChats.2.state x author row.1 row.2 ∧ p.Meets author) ∧
    ∀ j c' id' token', sampleChats.2.Returned j c' (.guest id' token') → id' = 20 → j = 1 :=
  have hprivate := chats_private sampleDesk ⟨∅, ∅, [], []⟩ rfl rfl _ _
    (exec_run sampleRequests fun _ _ => trivial)
  ⟨hprivate.1 4 _ _ (by decide +kernel), (hprivate.2 1 _ _ _ (by
    show sampleChats.2.Returned 1 (.guestOpen 0 7 20 8 "Bob" "bob@example.org")
      (.guest 20 (Crypto.signGuestSupport 0 7 20))
    decide +kernel)).2.2.2⟩

end Runs

/-! ## Keys of files -/

/-- The key of an attachment. -/
def attachmentKey (threadId id : Uuid) (ext : String) : String :=
  "support/" ++ uuidText threadId ++ "/" ++ uuidText id ++ "." ++ ext

theorem toList_attachmentKey (t id : Uuid) (ext : String) :
    (attachmentKey t id ext).toList = "support/".toList ++ ((uuidText t).toList ++
      '/' :: ((uuidText id).toList ++ '.' :: ext.toList)) := by
  have hslash : "/".toList = ['/'] := rfl
  have hdot : ".".toList = ['.'] := rfl
  simp only [attachmentKey, String.toList_append, hslash, hdot, List.append_assoc,
    List.cons_append, List.nil_append]

/-- A key says which thread it is of, and how the file ends. -/
theorem attachmentKey_inj {t t' id id' : Uuid} {ext ext' : String}
    (h : attachmentKey t id ext = attachmentKey t' id' ext') : t = t' ∧ ext = ext' := by
  have hslash : ∀ n, '/' ∉ (uuidText n).toList := notMem_uuidText (by decide) (by decide)
  have hdot : ∀ n, '.' ∉ (uuidText n).toList := notMem_uuidText (by decide) (by decide)
  have hlist := congrArg String.toList h
  rw [toList_attachmentKey t id ext, toList_attachmentKey t' id' ext'] at hlist
  obtain ⟨hthread, hrest⟩ := append_cons_inj (hslash t) (hslash t')
    (List.append_cancel_left hlist)
  obtain ⟨-, hext⟩ := append_cons_inj (hdot id) (hdot id') hrest
  exact ⟨uuidText_injective (String.toList_injective hthread), String.toList_injective hext⟩

/-- What the service makes of a file: an image is written anew, a document stays as it is. -/
inductive Made (env : Env) (file : IncomingFile) (body : Buffer) (type ext : String) :
    AttachmentKind → Prop
  | image (hext : (ext, type) ∈ [("png", "image/png"), ("jpg", "image/jpeg")])
      (h : tryProcessImage env file.buffer = some (body, type, ext)) : Made env file body type ext .image
  | document (hext : ext ∈ ["pdf", "docx", "doc"]) (hbody : body = file.buffer)
      (h : matchDocument env file.buffer file.mimetype (sanitizeName file.originalname) =
        some (type, ext)) : Made env file body type ext .file

theorem tryProcessImage_ext {buf body : Buffer} {type ext : String}
    (h : tryProcessImage env buf = some (body, type, ext)) :
    (ext, type) ∈ [("png", "image/png"), ("jpg", "image/jpeg")] := by
  unfold tryProcessImage at h
  simp only [Option.bind_eq_bind, Option.bind_eq_some_iff] at h
  obtain ⟨found, -, format, -, h⟩ := h
  split at h
  · split at h
    · obtain ⟨b, -, heq⟩ := Option.map_eq_some_iff.1 h
      cases heq
      simp
    · obtain ⟨b, -, heq⟩ := Option.map_eq_some_iff.1 h
      cases heq
      simp
  · cases h

theorem matchDocument_ext {buf : Buffer} {mimetype : Option String} {name type ext : String}
    (h : matchDocument env buf mimetype name = some (type, ext)) : ext ∈ ["pdf", "docx", "doc"] := by
  unfold matchDocument at h
  dsimp only at h
  split at h
  · cases h
    simp
  · split at h
    · cases h
      simp
    · split at h
      · cases h
        simp
      · cases h

theorem process_made {id threadId : Uuid} {file : IncomingFile} {o : StoredObject}
    {a : ProcessedAttachment} (h : process env id threadId file = .ok (o, a)) :
    ∃ ext, o.key = attachmentKey threadId id ext ∧ a.key = o.key ∧ a.type = o.contentType ∧
      Made env file o.body o.contentType ext a.kind := by
  unfold process at h
  dsimp only at h
  split at h
  · cases h
  · split at h
    · cases h
    · split at h
      · next body type ext himage =>
        cases h
        exact ⟨ext, rfl, rfl, rfl, .image (tryProcessImage_ext himage) himage⟩
      · split at h
        · next type ext hdocument =>
          cases h
          exact ⟨ext, rfl, rfl, rfl, .document (matchDocument_ext hdocument) rfl hdocument⟩
        · cases h

/-! ## Objects -/

section Runs

variable {s₀ : State} {tr : List (Step State Call)} {P : Pool State Error Answer Call}

/-- The attachment of a post was made for its thread. -/
theorem process_of_posts {c : Call} {id : Uuid} {m : SupportMessage} {a : ProcessedAttachment}
    (hposts : c.posts env = some (id, m)) (ha : m.attachment = some a) :
    ∃ objectId file o, process env objectId m.threadId file = .ok (o, a) := by
  have hattached : ∀ {now objectId senderId threadId senderRole caption file m},
      attached env now objectId senderId threadId senderRole caption file = some m →
      m.attachment = some a → ∃ objectId file o, process env objectId m.threadId file = .ok (o, a) := by
    intro now objectId senderId threadId senderRole caption file m h ha
    obtain ⟨f, rfl, h⟩ := Option.bind_eq_some_iff.1 h
    obtain ⟨r, hr, rfl⟩ := Option.map_eq_some_iff.1 h
    cases hprocess : process env objectId threadId f with
    | error e =>
      rw [hprocess] at hr
      cases hr
    | ok r' =>
      rw [hprocess] at hr
      cases hr
      cases ha
      exact ⟨objectId, f, _, hprocess⟩
  cases c with
  | send | guestSend | adminReply =>
    cases hposts
    cases ha
  | attach =>
    obtain ⟨m', hm', heq⟩ := Option.map_eq_some_iff.1 hposts
    cases heq
    exact hattached hm' ha
  | adminAttach =>
    obtain ⟨m', hm', heq⟩ := Option.map_eq_some_iff.1 hposts
    cases heq
    exact hattached hm' ha
  | _ => cases hposts

/-- Every object was uploaded by a party of the thread that its key names. -/
theorem uploaded_of_run (hobjects : s₀.objects = [])
    (hrun : Run (fun _ => handle env) (fun _ => True) s₀ tr P) {later earlier : List (Step State Call)}
    {g : Step State Call} (hsplit : tr = later ++ g :: earlier) {o : StoredObject}
    (ho : o ∈ g.pre.objects) :
    ∃ x ∈ tr, ∃ p t id file a, x.call.uploads = some (id, file) ∧ x.call.acts = some (p, t) ∧
      p.Owns t P.state ∧ process env id t file = .ok (o, a) := by
  refine hrun.induct_before (I := fun _ s => o ∈ s.objects →
    ∃ x ∈ tr, ∃ p t id file a, x.call.uploads = some (id, file) ∧ x.call.acts = some (p, t) ∧
      p.Owns t P.state ∧ process env id t file = .ok (o, a)) ?_ ?_ hsplit ho
  · intro hstart
    rw [hobjects] at hstart
    cases hstart
  · intro later x earlier hsplit ih hpost
    rcases (step_of_run hrun hsplit).objects with
      hsame | ⟨id, file, o', a, p, t, huploads, hacts, hentitled, hprocess, hput⟩
    · rw [hsame] at hpost
      exact ih hpost
    · rw [hput, List.mem_append, List.mem_singleton] at hpost
      rcases hpost with hpost | rfl
      · exact ih hpost
      · have hx : x ∈ tr := by
          rw [hsplit]
          simp
        exact ⟨x, hx, p, t, id, file, a, huploads, hacts,
          (hentitled.mono (own_subset hsplit)).owns hrun, hprocess⟩

/-- What a file is sent as: an image that the image library wrote, or a document to be saved. -/
inductive Harmless (env : Env) (file : IncomingFile) (d : Download) : Prop
  | shown {ext : String} (hinline : d.disposition = .inline)
      (htype : d.contentType = "image/png" ∨ d.contentType = "image/jpeg")
      (h : tryProcessImage env file.buffer = some (d.body, d.contentType, ext))
  | saved {type : String × String} (hattachment : d.disposition = .attachment)
      (htype : d.contentType = "application/octet-stream") (hbody : d.body = file.buffer)
      (h : matchDocument env file.buffer file.mimetype (sanitizeName file.originalname) = some type)

/-- What the message says of a file is so of the object under its key. -/
theorem harmless_of_made {file file' : IncomingFile} {body body' : Buffer} {type type' ext : String}
    {kind kind' : AttachmentKind} (name : String) (hobject : Made env file body type ext kind)
    (hmessage : Made env file' body' type' ext kind') :
    Harmless env file (streamAttachment ⟨body, name, type', kind'⟩) := by
  cases hmessage with
  | image hext' himage' =>
    cases hobject with
    | image hext himage =>
      have htype : type' = type := by
        simp only [List.mem_cons, Prod.mk.injEq, List.not_mem_nil, or_false] at hext hext'
        rcases hext with ⟨rfl, rfl⟩ | ⟨rfl, rfl⟩ <;> rcases hext' with ⟨h, rfl⟩ | ⟨h, rfl⟩
        · rfl
        · exact absurd h (by decide)
        · exact absurd h (by decide)
        · rfl
      subst htype
      refine .shown rfl ?_ himage
      simp only [List.mem_cons, Prod.mk.injEq, List.not_mem_nil, or_false] at hext
      exact hext.imp And.right And.right
    | document hext =>
      simp only [List.mem_cons, Prod.mk.injEq, List.not_mem_nil, or_false] at hext hext'
      rcases hext' with ⟨rfl, -⟩ | ⟨rfl, -⟩
      · exact absurd hext (by decide)
      · exact absurd hext (by decide)
  | document hext' =>
    cases hobject with
    | image hext =>
      simp only [List.mem_cons, Prod.mk.injEq, List.not_mem_nil, or_false] at hext hext'
      rcases hext with ⟨rfl, -⟩ | ⟨rfl, -⟩
      · exact absurd hext' (by decide)
      · exact absurd hext' (by decide)
    | document hext hbody hdocument => exact .saved rfl rfl hbody hdocument

theorem safeHeaderName_safe (name : String) :
    ∀ c ∈ (safeHeaderName name).toList, breaksHeader c = false := by
  intro c hc
  rw [safeHeaderName, JsString.slice, String.toList_ofList] at hc
  have hmem := JsString.takeUnits_subset _ _ hc
  rw [String.toList_ofList] at hmem
  obtain ⟨d, -, rfl⟩ := List.mem_map.1 hmem
  split
  · rfl
  · next h => simpa using h

theorem mem_of_fetchBytes {g : State} {key : String} {body : Buffer}
    (h : g.fetchBytes key = some body) : ∃ o ∈ g.objects, o.key = key ∧ o.body = body := by
  obtain ⟨o, ho, rfl⟩ := Option.map_eq_some_iff.1 h
  obtain ⟨hmem, hkey⟩ := List.mem_filter.1 (List.mem_of_getLast? ho)
  exact ⟨o, hmem, of_decide_eq_true hkey, rfl⟩

/-- **Files are harmless.** In every interleaving of the requests from an empty chat, a file that a
party is sent was made of a file that a party of the same thread uploaded into it. What the browser is
told to show is what the image library wrote, under the type that it has; everything else is to be saved,
under a type that says nothing. The name of the file stays within its header. -/
theorem files_harmless (env : Env) (s₀ : State) (hthreads : s₀.threads = ∅)
    (hmessages : s₀.messages = ∅) (hobjects : s₀.objects = []) (tr : List (Step State Call))
    (P : Pool State Error Answer Call)
    (hrun : Run (fun _ => handle env) (fun _ => True) s₀ tr P) (i : ℕ) (c : Call) (d : Download)
    (hreturned : P.Returned i c (.file d)) :
    ∃ p t, c.acts = some (p, t) ∧ p.Owns t P.state ∧
      (∃ x ∈ tr, ∃ author id file, x.call.acts = some (author, t) ∧
        x.call.uploads = some (id, file) ∧ author.Owns t P.state ∧ p.Meets author ∧
        Harmless env file d) ∧
      ∀ ch ∈ d.filename.toList, breaksHeader ch = false := by
  have hpromise : Promise c (own i tr) (.ok (.file d)) :=
    (hrun.does fun _ c _ => handle_does c).2 i _ hreturned.thread
  obtain ⟨p, t, hacts, hentitled, g, id, m, a, hg, hm, rfl, ha, h, body, hh, hbody, rfl⟩ := hpromise
  have howns := hentitled.owns hrun
  refine ⟨p, m.threadId, hacts, howns, ?_, ?_⟩
  · obtain ⟨y, hy, -, rfl, -⟩ := mem_own.1 hg
    obtain ⟨later, earlier, hsplit⟩ := List.mem_iff_append.1 hy
    obtain ⟨x, -, author, hposted⟩ := posted_of_run hmessages hrun hsplit hm
    obtain ⟨m₀, hposts, hsame⟩ := hposted.post
    have hthread : m.threadId = m₀.threadId := by rw [hsame]
    have hattachment : m₀.attachment = some a := by
      rw [← ha, hsame]
    obtain ⟨objectId, file₀, o₀, hprocess₀⟩ := process_of_posts hposts hattachment
    obtain ⟨z, hz, -, rfl, -⟩ := mem_own.1 hh
    obtain ⟨later', earlier', hsplit'⟩ := List.mem_iff_append.1 hz
    obtain ⟨o, ho, hkey, rfl⟩ := mem_of_fetchBytes hbody
    obtain ⟨u, hu, author', t', id', file, a', huploads, hacts', howns', hprocess⟩ :=
      uploaded_of_run hobjects hrun hsplit' ho
    obtain ⟨ext, hkey₁, -, -, hmade⟩ := process_made hprocess
    obtain ⟨ext₀, hkey₂, hkey₃, htype, hmade₀⟩ := process_made hprocess₀
    have hkeys : attachmentKey t' id' ext = attachmentKey m₀.threadId objectId ext₀ := by
      rw [← hkey₁, ← hkey₂, ← hkey₃, hkey]
    obtain ⟨rfl, rfl⟩ := attachmentKey_inj hkeys
    rw [← hthread] at hacts' howns'
    rw [← htype] at hmade₀
    exact ⟨u, hu, author', id', file, hacts', huploads, howns',
      meets_of_owns hthreads hrun howns howns', harmless_of_made a.name hmade hmade₀⟩
  · have hname : (streamAttachment ⟨body, a.name, a.type, a.kind⟩).filename =
        safeHeaderName a.name := by
      unfold streamAttachment
      split <;> rfl
    rw [hname]
    exact safeHeaderName_safe a.name

/-! ### One file -/

/-- Customer 1 uploads a PDF with a quotation mark in its name, and the staff downloads it. -/
def sampleUpload : List (Step State Call) × Pool State Error Answer Call :=
  exec (fun _ => handle sampleDesk) ⟨∅, ∅, [], []⟩
    [.call (.myThread 0 10 1), .step 0, .step 0,
      .call (.attach 1000 30 40 1 10 none
        (some ⟨some "a\x22b.pdf", none, [0x25, 0x50, 0x44, 0x46, 0x2d]⟩)),
      .step 1, .step 1, .step 1, .step 1, .step 1,
      .call (.adminDownload 10 30), .step 2, .step 2]

/-- What the staff is sent. -/
def sampleDownload : Download :=
  ⟨"application/octet-stream", .attachment, "a_b.pdf", [0x25, 0x50, 0x44, 0x46, 0x2d]⟩

theorem files_harmless_sample : ∃ p t, Call.acts (.adminDownload 10 30) = some (p, t) ∧
    p.Owns t sampleUpload.2.state ∧
    (∃ x ∈ sampleUpload.1, ∃ author id file, x.call.acts = some (author, t) ∧
      x.call.uploads = some (id, file) ∧ author.Owns t sampleUpload.2.state ∧ p.Meets author ∧
      Harmless sampleDesk file sampleDownload) ∧
    ∀ ch ∈ sampleDownload.filename.toList, breaksHeader ch = false :=
  files_harmless sampleDesk ⟨∅, ∅, [], []⟩ rfl rfl rfl _ _ (exec_run _ fun _ _ => trivial) 2 _ _
    (by decide +kernel)

end Runs

end BankDemo.Support.Desk
