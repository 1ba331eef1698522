import BankDemo.Support.Desk

/-!
# The support chat: what the requests do

The party of each request (`Party`), and what its steps do (`DeskStep`): a thread is never given to
another owner, a new message is the one that the request is to post, and a new object is made of the file
that it comes with. The party was entitled to the thread before, by its account or by its token.
`handle_does` has this of all requests, and what their answers show.
-/

namespace BankDemo.Support.Desk

open Prog

variable {env : Env}

/-! ## Parties -/

/-- Who sends a request to a thread: a customer, a guest with a token, or the staff. -/
inductive Party
  | customer (userId : Uuid)
  | guest (now : Instant) (token : Option Crypto.Text)
  | staff

/-- The party of a request, and the thread. -/
def Call.acts : Call → Option (Party × Uuid)
  | .messages userId threadId | .markRead _ userId threadId | .send _ _ userId threadId _
  | .attach _ _ _ userId threadId _ _ | .download userId threadId _ =>
    some (.customer userId, threadId)
  | .guestMessages now threadId token | .guestSend now _ threadId token _ =>
    some (.guest now token, threadId)
  | .adminMessages threadId | .adminReply _ _ _ threadId _ | .adminAttach _ _ _ _ threadId _ _
  | .adminDownload threadId _ | .close _ _ threadId | .reopen threadId => some (.staff, threadId)
  | .myThread .. | .guestOpen .. => none

/-- The user or the guest of a thread. -/
def owner (s : State) (threadId : Uuid) : Option (Option Uuid × Option Uuid) :=
  (s.threads.lookup threadId).map fun thread => (thread.userId, thread.guestId)

/-- The thread is the party's. The staff has all threads. -/
def Party.Owns (p : Party) (threadId : Uuid) (s : State) : Prop :=
  match p with
  | .customer userId => ∃ guestId, owner s threadId = some (some userId, guestId)
  | .guest now token =>
    assertOwns now threadId token = .ok () ∧
      ∃ userId guestId, owner s threadId = some (userId, some guestId)
  | .staff => True

/-- The thread was seen to be the party's. -/
def Entitled (p : Party) (threadId : Uuid) (own : List (State × State)) : Prop :=
  p = .staff ∨ ∃ g, (g, g) ∈ own ∧ p.Owns threadId g

/-- The thread that a request may open, and whose it will be. -/
def Call.opens : Call → Option (Uuid × (Option Uuid × Option Uuid))
  | .myThread _ id userId => some (id, (some userId, none))
  | .guestOpen _ _ id guestId _ _ => some (id, (none, some guestId))
  | _ => none

/-- The id of the object that a request stores, and the file that it comes with. -/
def Call.uploads : Call → Option (Uuid × IncomingFile)
  | .attach _ _ objectId _ _ _ file | .adminAttach _ _ objectId _ _ _ file =>
    file.map fun file => (objectId, file)
  | _ => none

/-- A post with a file. -/
def attached (env : Env) (now : Instant) (objectId senderId threadId : Uuid)
    (senderRole : SupportSenderRole) (caption : Option String) (file : Option IncomingFile) :
    Option SupportMessage :=
  file.bind fun file => ((process env objectId threadId file).toOption).map fun r =>
    { threadId
      senderId := some senderId
      senderRole
      body := JsString.slice (JsString.trim (caption.getD "")) 4000
      createdAt := now
      attachment := some r.2 }

/-- The message that a request is to post, under its id. -/
def Call.posts (env : Env) : Call → Option (Uuid × SupportMessage)
  | .send now id userId threadId body => some (id,
      { threadId, senderId := some userId, senderRole := .customer, body := JsString.trim body,
        createdAt := now })
  | .guestSend now id threadId _ body => some (id,
      { threadId, senderId := none, senderRole := .guest, body := JsString.trim body,
        createdAt := now })
  | .adminReply now id adminUserId threadId body => some (id,
      { threadId, senderId := some adminUserId, senderRole := .admin, body := JsString.trim body,
        createdAt := now })
  | .attach now id objectId userId threadId caption file =>
    (attached env now objectId userId threadId .customer caption file).map fun m => (id, m)
  | .adminAttach now id objectId adminUserId threadId caption file =>
    (attached env now objectId adminUserId threadId .admin caption file).map fun m => (id, m)
  | _ => none

/-! ## What the requests do -/

/-- The message is as it was, or was read since. -/
def SameText (m₀ m : SupportMessage) : Prop := m = { m₀ with readAt := m.readAt }

/-- What a step does to the chat. -/
structure DeskStep (env : Env) (c : Call) (own : List (State × State)) (s s' : State) : Prop where
  kept : ∀ t o, owner s t = some o → owner s' t = some o
  opened : ∀ t o, owner s' t = some o →
    owner s t = some o ∨ (owner s t = none ∧ c.opens = some (t, o))
  messages : ∀ id m, s'.messages.lookup id = some m →
    (∃ m₀, s.messages.lookup id = some m₀ ∧ SameText m₀ m) ∨
    (s.messages.lookup id = none ∧ c.posts env = some (id, m) ∧
      ∃ p, c.acts = some (p, m.threadId) ∧ Entitled p m.threadId own)
  objects : s'.objects = s.objects ∨ ∃ id file o a p t, c.uploads = some (id, file) ∧
    c.acts = some (p, t) ∧ Entitled p t own ∧ process env id t file = .ok (o, a) ∧
    s'.objects = s.objects ++ [o]

/-- The steps of a request so far. -/
def Did (env : Env) (c : Call) : List (State × State) → Prop
  | [] => True
  | (s, s') :: own => DeskStep env c own s s'

/-- What an answer says. -/
def Promise (c : Call) (own : List (State × State)) : Except Error Answer → Prop
  | .ok (.messages rows) => ∃ p t, c.acts = some (p, t) ∧ Entitled p t own ∧
    ∃ g, (g, g) ∈ own ∧ rows = messagesOf t g
  | .ok (.file download) => ∃ p t, c.acts = some (p, t) ∧ Entitled p t own ∧
    ∃ g id m a, (g, g) ∈ own ∧ g.messages.lookup id = some m ∧ m.threadId = t ∧
      m.attachment = some a ∧ ∃ h body, (h, h) ∈ own ∧ h.fetchBytes a.key = some body ∧
        download = streamAttachment ⟨body, a.name, a.type, a.kind⟩
  | .ok (.guest id token) => ∃ now jti guestId name email,
    c = .guestOpen now jti id guestId name email ∧
      token = Crypto.signGuestSupport now jti id ∧
      ∃ s s', (s, s') ∈ own ∧ owner s id = none ∧ (owner s' id).isSome
  | _ => True

/-- The step leaves the chat alone. -/
structure Idle (s s' : State) : Prop where
  threads : s'.threads = s.threads
  messages : s'.messages = s.messages
  objects : s'.objects = s.objects

theorem idle_refl (s : State) : Idle s s := ⟨rfl, rfl, rfl⟩

section Steps

variable {c : Call} {own : List (State × State)} {s s' : State}

/-- A step that opens no thread. -/
theorem DeskStep.of_owner (howner : ∀ t, owner s' t = owner s t)
    (messages : ∀ id m, s'.messages.lookup id = some m →
      (∃ m₀, s.messages.lookup id = some m₀ ∧ SameText m₀ m) ∨
      (s.messages.lookup id = none ∧ c.posts env = some (id, m) ∧
        ∃ p, c.acts = some (p, m.threadId) ∧ Entitled p m.threadId own))
    (objects : s'.objects = s.objects ∨ ∃ id file o a p t, c.uploads = some (id, file) ∧
      c.acts = some (p, t) ∧ Entitled p t own ∧ process env id t file = .ok (o, a) ∧
      s'.objects = s.objects ++ [o]) : DeskStep env c own s s' where
  kept t _ h := (howner t).trans h
  opened t _ h := .inl ((howner t).symm.trans h)
  messages := messages
  objects := objects

theorem Idle.step (h : Idle s s') : DeskStep env c own s s' := by
  refine .of_owner (fun t => ?_) (fun id m hm => .inl ⟨m, ?_, rfl⟩) (.inl h.objects)
  · rw [owner, h.threads]
    rfl
  · rw [← h.messages]
    exact hm

theorem owner_insert (id t : Uuid) (thread : SupportThread) :
    owner { s with threads := s.threads.insert id thread } t =
      if t = id then some (thread.userId, thread.guestId) else owner s t := by
  simp only [owner, Table.lookup_insert_ite]
  split
  · rfl
  · rfl

/-- A thread that goes on in another way is of the same owner. -/
theorem owner_update {id : Uuid} {thread thread' : SupportThread}
    (hthread : s.threads.lookup id = some thread) (huser : thread'.userId = thread.userId)
    (hguest : thread'.guestId = thread.guestId) (t : Uuid) :
    owner { s with threads := s.threads.insert id thread' } t = owner s t := by
  rw [owner_insert]
  split
  · next ht =>
    rw [ht, owner, hthread, huser, hguest]
    rfl
  · rfl

end Steps

section Rules

variable {α β : Type} {c : Call} {own : List (State × State)}

theorem does_statement {body : Body α} {Q : List (State × State) → Except Error α → Prop}
    (hok : ∀ s a s', body s = .ok (a, s') →
      DeskStep env c own s s' ∧ Q ((s, s') :: own) (.ok a))
    (herr : ∀ s e, Q ((s, s) :: own) (.error e)) :
    (Support.transaction body).Does (Did env c) Q own :=
  does_attempt (fun s a s' _ h => hok s a s' h) fun s e _ _ => ⟨(idle_refl s).step, herr s e⟩

theorem does_query {f : State → α} {k : α → Handler β}
    {Q : List (State × State) → Except Error β → Prop}
    (hk : ∀ s, (k (f s)).Does (Did env c) Q ((s, s) :: own)) :
    (read f >>= k).Does (Did env c) Q own :=
  does_bind (does_read fun s => ⟨(idle_refl s).step, hk s⟩)

/-- What comes after the writes of a request. -/
theorem does_idle {p : Handler α} (hp : p.Each Idle) :
    p.Does (Did env c) (fun _ _ => True) own := by
  induction p generalizing own with
  | ret a => exact trivial
  | fail e => exact trivial
  | act ready eff next ih => exact fun s _ => ⟨(hp s).1.step, ih s (hp s).2⟩

theorem idle_emit (event : Event) : (emit event).Each Idle := each_modify fun _ => ⟨rfl, rfl, rfl⟩

theorem idle_emitMessageCreated (threadId : Uuid) (thread : SupportThread) (messageId : Uuid)
    (message : SupportMessage) :
    (emitMessageCreated threadId thread messageId message).Each Idle := by
  refine each_bind (idle_emit _) fun _ => ?_
  split
  · exact idle_emit _
  · exact each_pure _

/-- A new message of the party. -/
theorem does_post {id : Uuid} {m : SupportMessage} {f : SupportThread → SupportThread} {p : Party}
    {k : Unit → Handler α} (huser : ∀ t, (f t).userId = t.userId)
    (hguest : ∀ t, (f t).guestId = t.guestId) (hposts : c.posts env = some (id, m))
    (hacts : c.acts = some (p, m.threadId)) (hentitled : Entitled p m.threadId own)
    (hk : (k ()).Each Idle) :
    (Support.transaction (post id m f) >>= k).Does (Did env c) (fun _ _ => True) own := by
  refine does_bind (does_statement (fun s a s' h => ?_) fun _ _ => trivial)
  obtain ⟨_, s₂, hmessage, h⟩ := body_bind_ok.1 h
  obtain ⟨_, s₃, hupdate, h⟩ := body_bind_ok.1 h
  cases body_pure_ok.1 h
  obtain ⟨hnew, hs₂⟩ := createMessage_eq_ok hmessage
  dsimp only at hs₂
  subst hs₂
  obtain ⟨thread, hthread, hs₃⟩ := updateThread_eq_ok hupdate
  dsimp only at hs₃ hthread
  subst hs₃
  refine ⟨.of_owner (fun t => ?_) (fun id' m' hm' => ?_) (.inl rfl), does_idle hk⟩
  · exact owner_update hthread (huser thread) (hguest thread) t
  · rw [Table.lookup_insert_ite] at hm'
    split at hm'
    · next hid =>
      cases hm'
      rw [hid]
      exact .inr ⟨hnew, hposts, p, hacts, hentitled⟩
    · exact .inl ⟨m', hm', rfl⟩

theorem Entitled.cons {p : Party} {t : Uuid} (h : Entitled p t own) (y : State × State) :
    Entitled p t (y :: own) := by
  rcases h with hstaff | ⟨g, hg, howns⟩
  · exact .inl hstaff
  · exact .inr ⟨g, List.mem_cons_of_mem _ hg, howns⟩

/-- A file of the party is stored, and then its message is made. -/
theorem does_attach {now : Instant} {id objectId senderId threadId : Uuid} {caption : Option String}
    {senderRole : SupportSenderRole} {file : IncomingFile} {thread : SupportThread}
    {unreadForAdmins : Bool} {p : Party}
    (hposts : c.posts env =
      (attached env now objectId senderId threadId senderRole caption (some file)).map fun m => (id, m))
    (huploads : c.uploads = some (objectId, file)) (hacts : c.acts = some (p, threadId))
    (hentitled : Entitled p threadId own) :
    (processAttachment env objectId threadId file >>= fun a => createAttachmentMessage now id threadId
      thread senderRole senderId (caption.getD "") a unreadForAdmins).Does (Did env c)
      (fun _ _ => True) own := by
  refine does_bind (does_bind (does_lift ?_))
  cases hprocess : process env objectId threadId file with
  | error e => exact trivial
  | ok r =>
    obtain ⟨o, a⟩ := r
    refine does_bind (does_modify fun s _ => ⟨?_, ?_⟩)
    · refine .of_owner (fun _ => rfl) (fun id m hm => .inl ⟨m, hm, rfl⟩) (.inr ?_)
      exact ⟨objectId, file, o, a, p, threadId, huploads, hacts, hentitled, hprocess, rfl⟩
    · have hposts' : c.posts env = some (id, {
          threadId
          senderId := some senderId
          senderRole
          body := JsString.slice (JsString.trim (caption.getD "")) 4000
          createdAt := now
          attachment := some a }) := by
        rw [hposts, attached, Option.bind_some, hprocess]
        rfl
      exact does_post (fun _ => rfl) (fun _ => rfl) hposts' hacts (hentitled.cons _)
        (each_bind (idle_emitMessageCreated _ _ _ _) fun _ => each_pure _)

/-- An answer that says nothing. -/
theorem does_answer {p : Handler α} {answer : α → Answer}
    (hp : p.Does (Did env c) (fun _ _ => True) own)
    (hanswer : ∀ own a, Promise c own (.ok (answer a))) :
    (p >>= fun a => pure (answer a)).Does (Did env c) (Promise c) own := by
  refine does_bind (hp.imp (fun _ h => h) fun own r _ => ?_)
  cases r with
  | ok a => exact hanswer own a
  | error e => exact trivial

theorem entitled_customer {s : State} {userId threadId : Uuid} {thread : SupportThread}
    (h : (s.threads.lookup threadId).filter (fun t => t.userId = some userId) = some thread) :
    Entitled (.customer userId) threadId ((s, s) :: own) := by
  obtain ⟨hthread, huser⟩ := Option.filter_eq_some_iff.1 h
  refine .inr ⟨s, List.mem_cons_self, thread.guestId, ?_⟩
  rw [owner, hthread, Option.map_some, of_decide_eq_true huser]

theorem entitled_guest {s : State} {now : Instant} {threadId : Uuid} {token : Option Crypto.Text}
    {thread : SupportThread} (htoken : assertOwns now threadId token = .ok ())
    (h : (s.threads.lookup threadId).filter (fun t => t.guestId.isSome) = some thread) :
    Entitled (.guest now token) threadId ((s, s) :: own) := by
  obtain ⟨hthread, hguest⟩ := Option.filter_eq_some_iff.1 h
  obtain ⟨guestId, hguestId⟩ := Option.isSome_iff_exists.1 hguest
  refine .inr ⟨s, List.mem_cons_self, htoken, thread.userId, guestId, ?_⟩
  rw [owner, hthread, Option.map_some, hguestId]

end Rules

section Endpoints

variable {c : Call}

-- the texts are not computed: whether one is empty decides nothing here
attribute [local irreducible] JsString.trim

theorem createThread_step {own : List (State × State)} {id : Uuid} {thread : SupportThread}
    {r : Unit × State} {s : State}
    (hopens : c.opens = some (id, (thread.userId, thread.guestId)))
    (h : createThread id thread s = .ok r) : DeskStep env c own s r.2 ∧ owner s id = none ∧
      (owner r.2 id).isSome := by
  obtain ⟨hnew, hs⟩ := createThread_eq_ok h
  rw [hs]
  have hnone : owner s id = none := by
    rw [owner, hnew]
    rfl
  refine ⟨⟨fun t o ho => ?_, fun t o ho => ?_, fun _ m hm => .inl ⟨m, hm, rfl⟩, .inl rfl⟩, hnone, ?_⟩
  · rw [owner_insert]
    split
    · next ht =>
      rw [ht, hnone] at ho
      cases ho
    · exact ho
  · rw [owner_insert] at ho
    split at ho
    · next ht =>
      obtain rfl := Option.some.inj ho
      rw [ht]
      exact .inr ⟨hnone, hopens⟩
    · exact .inl ho
  · rw [owner_insert, if_pos rfl]
    rfl

theorem myThread_does (now : Instant) (id userId : Uuid)
    (hc : c = .myThread now id userId) :
    (openOrGetCustomerThread now id userId).Does (Did env c) (fun _ _ => True) [] := by
  refine does_query fun s => ?_
  dsimp only
  split
  · exact trivial
  · refine does_bind (does_statement (fun s a s' h => ⟨?_, trivial⟩) fun _ _ => trivial)
    exact (createThread_step (by rw [hc]; rfl) h).1

theorem send_does {now : Instant} {id userId threadId : Uuid} {body : String}
    (hc : c = .send now id userId threadId body) :
    (postCustomerMessage now id userId threadId body).Does (Did env c) (fun _ _ => True) [] := by
  unfold postCustomerMessage
  dsimp only
  split
  · exact trivial
  · refine does_query fun s => ?_
    split
    · exact trivial
    · next thread hfound =>
      split
      · exact trivial
      · refine does_query fun g => does_post (fun _ => rfl) (fun _ => rfl) (by rw [hc]; rfl)
          (by rw [hc]; rfl) ((entitled_customer hfound).cons _) ?_
        refine each_bind (idle_emitMessageCreated _ _ _ _) fun _ => ?_
        split
        · exact each_bind (idle_emit _) fun _ => each_pure _
        · exact each_pure _

theorem does_getGuestThread {α : Type} {own : List (State × State)} {threadId : Uuid}
    {k : SupportThread → Handler α} {Q : List (State × State) → Except Error α → Prop}
    (hk : ∀ s thread, (s.threads.lookup threadId).filter (fun t => t.guestId.isSome) = some thread →
      (k thread).Does (Did env c) Q ((s, s) :: own))
    (herr : ∀ s e, Q ((s, s) :: own) (.error e)) :
    (getGuestThread threadId >>= k).Does (Did env c) Q own := by
  refine does_bind (does_query fun s => ?_)
  cases hfound : (s.threads.lookup threadId).filter fun t => t.guestId.isSome with
  | none => exact herr s _
  | some thread => exact hk s thread hfound

theorem guestSend_does {now : Instant} {id threadId : Uuid} {token : Option Crypto.Text}
    {body : String} (hc : c = .guestSend now id threadId token body)
    (htoken : assertOwns now threadId token = .ok ()) :
    (postGuestMessage now id threadId body).Does (Did env c) (fun _ _ => True) [] := by
  unfold postGuestMessage
  dsimp only
  split
  · exact trivial
  · refine does_getGuestThread (fun s thread hfound => ?_) fun _ _ => trivial
    split
    · exact trivial
    · refine does_query fun g => does_post (fun _ => rfl) (fun _ => rfl) (by rw [hc]; rfl)
        (by rw [hc]; rfl) ((entitled_guest htoken hfound).cons _) ?_
      refine each_bind (idle_emitMessageCreated _ _ _ _) fun _ => ?_
      split
      · exact each_bind (idle_emit _) fun _ => each_pure _
      · exact each_pure _

theorem adminReply_does {now : Instant} {id adminUserId threadId : Uuid} {body : String}
    (hc : c = .adminReply now id adminUserId threadId body) :
    (postAdminMessage now id adminUserId threadId body).Does (Did env c) (fun _ _ => True) [] := by
  unfold postAdminMessage
  dsimp only
  split
  · exact trivial
  · refine does_query fun s => ?_
    split
    · exact trivial
    · exact does_post (fun _ => rfl) (fun _ => rfl) (by rw [hc]; rfl) (by rw [hc]; rfl) (.inl rfl)
        (each_bind (idle_emitMessageCreated _ _ _ _) fun _ => each_pure _)

theorem attach_does {now : Instant} {id objectId userId threadId : Uuid} {caption : Option String}
    {file : IncomingFile}
    (hc : c = .attach now id objectId userId threadId caption (some file)) :
    (postCustomerAttachment env now id objectId userId threadId (caption.getD "") file).Does
      (Did env c) (fun _ _ => True) [] := by
  refine does_query fun s => ?_
  split
  · exact trivial
  · next thread hfound =>
    split
    · exact trivial
    · exact does_attach (by rw [hc]; rfl) (by rw [hc]; rfl) (by rw [hc]; rfl)
        (entitled_customer hfound)

theorem adminAttach_does {now : Instant} {id objectId adminUserId threadId : Uuid}
    {caption : Option String} {file : IncomingFile}
    (hc : c = .adminAttach now id objectId adminUserId threadId caption (some file)) :
    (postAdminAttachment env now id objectId adminUserId threadId (caption.getD "") file).Does
      (Did env c) (fun _ _ => True) [] := by
  refine does_query fun s => ?_
  split
  · exact trivial
  · split
    · exact trivial
    · exact does_attach (by rw [hc]; rfl) (by rw [hc]; rfl) (by rw [hc]; rfl) (.inl rfl)

/-- A change of a thread that is not one of its owner. -/
theorem does_updateThread {α : Type} {own : List (State × State)} {id : Uuid}
    {f : SupportThread → SupportThread} {k : SupportThread → Handler α}
    (huser : ∀ t, (f t).userId = t.userId) (hguest : ∀ t, (f t).guestId = t.guestId)
    {Q : List (State × State) → Except Error α → Prop}
    (hk : ∀ t s s', (k t).Does (Did env c) Q ((s, s') :: own))
    (herr : ∀ s e, Q ((s, s) :: own) (.error e)) :
    (Support.transaction (updateThread id f) >>= k).Does (Did env c) Q own := by
  refine does_bind (does_statement (fun s a s' h => ⟨?_, hk a s s'⟩) herr)
  obtain ⟨thread, hthread, hs⟩ := updateThread_eq_ok h
  dsimp only at hs
  subst hs
  exact .of_owner (owner_update hthread (huser thread) (hguest thread))
    (fun _ m hm => .inl ⟨m, hm, rfl⟩) (.inl rfl)

theorem close_does {now : Instant} {threadId : Uuid} {closedByUserId : Option Uuid} :
    (closeThread now threadId closedByUserId).Does (Did env c) (fun _ _ => True) [] := by
  unfold closeThread
  apply does_updateThread
  · exact fun _ => rfl
  · exact fun _ => rfl
  · exact fun _ _ _ => does_idle (each_bind (idle_emit _) fun _ => each_pure _)
  · exact fun _ _ => trivial

theorem markRead_does {now : Instant} {userId threadId : Uuid} :
    (markAdminMessagesRead now userId threadId).Does (Did env c) (fun _ _ => True) [] := by
  refine does_query fun s => ?_
  split
  · exact trivial
  · refine does_query fun g => ?_
    split
    · exact trivial
    · refine does_bind (does_statement (fun s a s' h => ⟨?_, ?_⟩) fun _ _ => trivial)
      · cases h
        refine .of_owner (fun _ => rfl) (fun id m hm => .inl ?_) (.inl rfl)
        rw [Table.lookup_updateMany] at hm
        obtain ⟨m₀, hm₀, heq⟩ := Option.map_eq_some_iff.1 hm
        refine ⟨m₀, hm₀, ?_⟩
        rw [← heq]
        split
        · rfl
        · rfl
      · exact does_idle (each_bind (idle_emit _) fun _ => each_pure _)

/-- The list of a thread, for a party. -/
theorem does_list {own : List (State × State)} {p : Party} {threadId : Uuid}
    (hacts : c.acts = some (p, threadId)) (hentitled : Entitled p threadId own) :
    (read (messagesOf threadId) >>= fun rows => pure (Answer.messages rows)).Does (Did env c)
      (Promise c) own :=
  does_query fun g => ⟨p, threadId, hacts, hentitled.cons _, g, List.mem_cons_self, rfl⟩

theorem messages_does {userId threadId : Uuid} (hc : c = .messages userId threadId) :
    (listCustomerMessages userId threadId >>= fun rows => pure (Answer.messages rows)).Does
      (Did env c) (Promise c) [] := by
  simp only [listCustomerMessages, findThread, bind_assoc]
  refine does_query fun s => ?_
  cases hthread : s.threads.lookup threadId with
  | none => exact trivial
  | some thread =>
    dsimp only
    split
    · exact trivial
    · next huser =>
      have hfound : (s.threads.lookup threadId).filter (fun t => t.userId = some userId) =
          some thread := by
        rw [hthread, Option.filter_some, if_pos]
        exact decide_eq_true (not_not.1 huser)
      exact does_list (by rw [hc]; rfl) (entitled_customer hfound)

theorem guestMessages_does {now : Instant} {threadId : Uuid} {token : Option Crypto.Text}
    (hc : c = .guestMessages now threadId token) :
    (lift (assertOwns now threadId token) >>= fun _ => listGuestMessages threadId >>=
      fun rows => pure (Answer.messages rows)).Does (Did env c) (Promise c) [] := by
  refine does_bind (does_lift ?_)
  cases htoken : assertOwns now threadId token with
  | error e => exact trivial
  | ok u =>
    simp only [listGuestMessages, bind_assoc]
    refine does_getGuestThread (fun s thread hfound => ?_) fun _ _ => trivial
    exact does_list (by rw [hc]; rfl) (entitled_guest htoken hfound)

theorem adminMessages_does {threadId : Uuid} (hc : c = .adminMessages threadId) :
    (listAdminMessages threadId >>= fun rows => pure (Answer.messages rows)).Does (Did env c)
      (Promise c) [] := by
  have hacts : c.acts = some (.staff, threadId) := by rw [hc]; rfl
  simp only [listAdminMessages, findThread, bind_assoc]
  refine does_query fun s => ?_
  cases hthread : s.threads.lookup threadId with
  | none => exact trivial
  | some thread =>
    dsimp only
    split
    · simp only [bind_assoc]
      apply does_updateThread
      · exact fun _ => rfl
      · exact fun _ => rfl
      · exact fun _ _ _ => does_bind (does_modify fun _ _ =>
          ⟨Idle.step ⟨rfl, rfl, rfl⟩, does_list hacts (.inl rfl)⟩)
      · exact fun _ _ => trivial
    · exact does_list hacts (.inl rfl)

theorem does_requireAttachmentMessage {α : Type} {own : List (State × State)}
    {threadId messageId : Uuid} {k : ProcessedAttachment → Handler α}
    {Q : List (State × State) → Except Error α → Prop}
    (hk : ∀ s m a, s.messages.lookup messageId = some m → m.threadId = threadId →
      m.attachment = some a → (k a).Does (Did env c) Q ((s, s) :: own))
    (herr : ∀ s e, Q ((s, s) :: own) (.error e)) :
    (requireAttachmentMessage threadId messageId >>= k).Does (Did env c) Q own := by
  refine does_bind (does_query fun s => ?_)
  cases hm : s.messages.lookup messageId with
  | none => exact herr s _
  | some m =>
    dsimp only
    cases hfound : m.attachment.filter fun a => m.threadId = threadId && a.key ≠ "" with
    | none => exact herr s _
    | some a =>
      obtain ⟨hattachment, hkey⟩ := Option.filter_eq_some_iff.1 hfound
      rw [Bool.and_eq_true, decide_eq_true_eq] at hkey
      exact hk s m a hm hkey.1 hattachment

/-- The file of a message, for a party. -/
theorem does_file {own : List (State × State)} {p : Party} {threadId id : Uuid} {g : State}
    {m : SupportMessage} {a : ProcessedAttachment} (hacts : c.acts = some (p, threadId))
    (hentitled : Entitled p threadId own) (hg : (g, g) ∈ own) (hm : g.messages.lookup id = some m)
    (hthread : m.threadId = threadId) (ha : m.attachment = some a) :
    (readAttachment a >>= fun loaded => pure (Answer.file (streamAttachment loaded))).Does
      (Did env c) (Promise c) own := by
  refine does_bind (does_query fun h => ?_)
  cases hbody : h.fetchBytes a.key with
  | none => exact trivial
  | some body =>
    exact ⟨p, threadId, hacts, hentitled.cons _, g, id, m, a, List.mem_cons_of_mem _ hg, hm, hthread, ha,
      h, body, List.mem_cons_self, hbody, rfl⟩

theorem download_does {userId threadId messageId : Uuid}
    (hc : c = .download userId threadId messageId) :
    (loadAttachmentForUser userId threadId messageId >>= fun loaded =>
      pure (Answer.file (streamAttachment loaded))).Does (Did env c) (Promise c) [] := by
  simp only [loadAttachmentForUser, findThread, bind_assoc]
  refine does_requireAttachmentMessage (fun s m a hm hthread ha => ?_) fun _ _ => trivial
  refine does_query fun g => ?_
  cases hfound : (g.threads.lookup threadId).filter fun t => t.userId = some userId with
  | none => exact trivial
  | some thread =>
    exact does_file (by rw [hc]; rfl) (entitled_customer hfound)
      (List.mem_cons_of_mem _ List.mem_cons_self) hm hthread ha

theorem adminDownload_does {threadId messageId : Uuid}
    (hc : c = .adminDownload threadId messageId) :
    (loadAttachmentForAdmin threadId messageId >>= fun loaded =>
      pure (Answer.file (streamAttachment loaded))).Does (Did env c) (Promise c) [] := by
  simp only [loadAttachmentForAdmin, bind_assoc]
  refine does_requireAttachmentMessage (fun s m a hm hthread ha => ?_) fun _ _ => trivial
  exact does_file (by rw [hc]; rfl) (.inl rfl) List.mem_cons_self hm hthread ha

theorem guestOpen_does {now : Instant} {jti id guestId : Uuid} {name email : String}
    (hc : c = .guestOpen now jti id guestId name email) :
    (openGuestThread now id guestId name email >>= fun r =>
      pure (Answer.guest r.1 (Crypto.signGuestSupport now jti r.1))).Does (Did env c) (Promise c)
      [] := by
  simp only [openGuestThread, bind_assoc, pure_bind]
  refine does_bind (does_statement (fun s a s' h => ?_) fun _ _ => trivial)
  have hopened : DeskStep env c [] s s' ∧ owner s id = none ∧ (owner s' id).isSome :=
    createThread_step (by rw [hc]; rfl) h
  obtain ⟨hstep, hnone, hsome⟩ := hopened
  exact ⟨hstep, now, jti, guestId, name, email, hc, rfl, s, s', List.mem_cons_self, hnone, hsome⟩

/-- What every request does. -/
theorem handle_does (c : Call) : (handle env c).Does (Did env c) (Promise c) [] := by
  cases c with
  | myThread =>
    apply does_answer
    · apply myThread_does
      rfl
    · exact fun _ _ => trivial
  | messages =>
    apply messages_does
    rfl
  | markRead =>
    apply does_answer
    · apply markRead_does
    · exact fun _ _ => trivial
  | send =>
    apply does_answer
    · apply send_does
      rfl
    · exact fun _ _ => trivial
  | attach now id objectId userId threadId caption file =>
    cases file with
    | none => exact trivial
    | some file =>
      apply does_answer
      · apply attach_does
        rfl
      · exact fun _ _ => trivial
  | download =>
    apply download_does
    rfl
  | guestOpen =>
    apply guestOpen_does
    rfl
  | guestMessages =>
    apply guestMessages_does
    rfl
  | guestSend now id threadId token body =>
    refine does_bind (does_lift ?_)
    cases htoken : assertOwns now threadId token with
    | error e => exact trivial
    | ok u =>
      apply does_answer
      · apply guestSend_does
        · rfl
        · exact htoken
      · exact fun _ _ => trivial
  | adminMessages =>
    apply adminMessages_does
    rfl
  | adminReply =>
    apply does_answer
    · apply adminReply_does
      rfl
    · exact fun _ _ => trivial
  | adminAttach now id objectId adminUserId threadId caption file =>
    cases file with
    | none => exact trivial
    | some file =>
      apply does_answer
      · apply adminAttach_does
        rfl
      · exact fun _ _ => trivial
  | adminDownload =>
    apply adminDownload_does
    rfl
  | close =>
    apply does_answer
    · apply close_does
    · exact fun _ _ => trivial
  | reopen threadId =>
    apply does_updateThread
    · exact fun _ => rfl
    · exact fun _ => rfl
    · exact fun _ _ _ => trivial
    · exact fun _ _ => trivial

end Endpoints

end BankDemo.Support.Desk
