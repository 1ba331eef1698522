import BankDemo.Foundations.Interleave
import BankDemo.Mail.Desk

/-!
# What the calls of the mail desk do

A step of a call adds a thread, changes one in what is neither its customer nor its token, adds a message
or sends an email. An email that is sent names the customer and the token of a thread that the call saw,
and an inbound message goes to the thread of a token or of a message that it refers to (`handle_does`).
-/

namespace BankDemo.Mail

open Prog

variable {env : DeskEnv}

/-! ## What a call saw -/

/-- The call saw the thread. -/
def Saw (own : List (State × State)) (id : Uuid) (thread : MailThread) : Prop :=
  ∃ y ∈ own, y.2.threads.lookup id = some thread

/-- The call saw that no thread had the token. -/
def Missed (own : List (State × State)) (token : String) : Prop :=
  ∃ y ∈ own, ∀ id thread, y.2.threads.lookup id = some thread → thread.replyToken ≠ token

/-- The tokens of these addresses had no thread. -/
def AllMissed (env : Env) (own : List (State × State)) (addresses : List String) : Prop :=
  ∀ a ∈ addresses, ∀ token, parseToken env.toLowerCase env.replyDomain a = some token →
    Missed own token

/-- The thread is that of the first address whose token had one. -/
def ByToken (env : Env) (own : List (State × State)) (addresses : List String) (id : Uuid) : Prop :=
  ∃ before addr after thread, addresses = before ++ addr :: after ∧
    parseToken env.toLowerCase env.replyDomain addr = some thread.replyToken ∧ Saw own id thread ∧
    AllMissed env own before

/-- The thread has a message that the email refers to. -/
def ByReference (d : Delivery) (data : InboundEmail) (own : List (State × State)) (id : Uuid) : Prop :=
  ∃ received, d.receive data.emailId = some (some received) ∧ ∃ y ∈ own, ∃ messageId message,
    y.2.messages.lookup messageId = some message ∧ message.threadId = id ∧
      message.rfcMessageId.any (refIds received.headers).contains = true

/-- How the thread of an email was found: by a token, or else by a reference. -/
def Found (env : Env) (d : Delivery) (data : InboundEmail) (own : List (State × State)) (id : Uuid) :
    Prop :=
  ByToken env own (data.to_ ++ data.cc) id ∨
    AllMissed env own (data.to_ ++ data.cc) ∧ ByReference d data own id

section Saw

variable {own own' : List (State × State)} (hsub : own ⊆ own') {addresses : List String} {id : Uuid}

include hsub

theorem Saw.mono {thread : MailThread} (h : Saw own id thread) : Saw own' id thread := by
  obtain ⟨y, hy, hlookup⟩ := h
  exact ⟨y, hsub hy, hlookup⟩

theorem AllMissed.mono {env : Env} (h : AllMissed env own addresses) :
    AllMissed env own' addresses := by
  intro a ha token htoken
  obtain ⟨y, hy, hnone⟩ := h a ha token htoken
  exact ⟨y, hsub hy, hnone⟩

theorem Found.mono {env : Env} {d : Delivery} {data : InboundEmail} (h : Found env d data own id) :
    Found env d data own' id := by
  rcases h with ⟨before, addr, after, thread, heq, htoken, hsaw, hmissed⟩ |
    ⟨hmissed, received, hreceived, y, hy, hmessage⟩
  · exact .inl ⟨before, addr, after, thread, heq, htoken, hsaw.mono hsub, hmissed.mono hsub⟩
  · exact .inr ⟨hmissed.mono hsub, received, hreceived, y, hsub hy, hmessage⟩

end Saw

/-! ## The steps -/

/-- What a step makes of the threads. -/
inductive ThreadStep (s s' : State) : Prop
  | same (h : s'.threads = s.threads)
  | created {id : Uuid} {draws : ThreadDraws} {thread : MailThread}
      (hnew : s.threads.lookup id = none) (htoken : thread.replyToken = generateToken draws.token)
      (hfree : ∀ id' t, s.threads.lookup id' = some t → t.replyToken ≠ thread.replyToken)
      (h : s'.threads = s.threads.insert id thread)
  | changed {id : Uuid} {row row' : MailThread} (hrow : s.threads.lookup id = some row)
      (hcustomer : row'.toEmail = row.toEmail) (htoken : row'.replyToken = row.replyToken)
      (h : s'.threads = s.threads.insert id row')

/-- What a step of a call makes of the messages. -/
inductive MessageStep (env : Env) : Call → List (State × State) → State → State → Prop
  | same {c : Call} {own : List (State × State)} {s s' : State} (h : s'.messages = s.messages) :
      MessageStep env c own s s'
  | sent {c : Call} {own : List (State × State)} {s s' : State} {id : Uuid} {message : MailMessage}
      (hc : ∀ data d, c ≠ .inbound data d) (h : s'.messages = s.messages.insert id message) :
      MessageStep env c own s s'
  | filed {data : InboundEmail} {d : Delivery} {own : List (State × State)} {s s' : State}
      {message : MailMessage} (hfound : Found env d data own message.threadId)
      (h : s'.messages = s.messages.insert d.messageId message) :
      MessageStep env (.inbound data d) own s s'

/-- What a step makes of the emails that were sent. -/
inductive SentStep (env : Env) (own : List (State × State)) (w w' : Desk) : Prop
  | same (h : w'.sent = w.sent)
  | sent {email : EmailMessage} {id : Uuid} {thread : MailThread} (hsaw : Saw own id thread)
      (hto : email.to_ = thread.toEmail)
      (hreply : email.replyTo = replyAddress env.replyDomain thread.replyToken)
      (h : w'.sent = email :: w.sent)

/-- The steps on the tables of the desk. -/
def tables (own : List (Desk × Desk)) : List (State × State) :=
  own.map (Prod.map Desk.mail Desk.mail)

/-- The newest of the steps that a call took. -/
def Did (env : DeskEnv) (c : Call) : List (Desk × Desk) → Prop
  | [] => True
  | (w, w') :: own => ThreadStep w.mail w'.mail ∧
      MessageStep env.toEnv c (tables own) w.mail w'.mail ∧ SentStep env.toEnv (tables own) w w'

/-- The newest of the steps of a handler that sends nothing. -/
def DidInbound (env : Env) (data : InboundEmail) (d : Delivery) : List (State × State) → Prop
  | [] => True
  | (s, s') :: own => ThreadStep s s' ∧ MessageStep env (.inbound data d) own s s'

/-! ## Statements -/

theorem createMessage_eq_ok {id : Uuid} {message : MailMessage} {s : State} {r : Unit × State}
    (h : createMessage id message s = .ok r) :
    r.2 = { s with messages := s.messages.insert id message } := by
  unfold createMessage at h
  split at h
  · cases h
  · split at h
    · cases h
    · cases h
      rfl

theorem createAttachment_eq_ok {id : Uuid} {attachment : MailAttachment} {s : State}
    {r : Unit × State} (h : createAttachment id attachment s = .ok r) :
    r.2 = { s with attachments := s.attachments.insert id attachment } := by
  unfold createAttachment at h
  split at h
  · cases h
  · split at h
    · cases h
    · cases h
      rfl

theorem updateThread_eq_ok {id : Uuid} {f : MailThread → MailThread} {s : State} {r : Unit × State}
    (h : updateThread id f s = .ok r) : ∃ row, s.threads.lookup id = some row ∧
      r.2 = { s with threads := s.threads.insert id (f row) } := by
  unfold updateThread at h
  split at h
  · cases h
  · rename_i row hrow
    cases h
    exact ⟨row, hrow, rfl⟩

theorem createThread_eq_ok {id : Uuid} {thread : MailThread} {s : State} {r : Unit × State}
    (h : createThread id thread s = .ok r) : s.threads.lookup id = none ∧
      (∀ id' t, s.threads.lookup id' = some t → t.replyToken ≠ thread.replyToken) ∧
      r.2 = { s with threads := s.threads.insert id thread } := by
  unfold createThread at h
  split at h
  · cases h
  · rename_i hnew
    split at h
    · cases h
    · rename_i hfree
      cases h
      refine ⟨by simpa using hnew, fun id' t ht => ?_, rfl⟩
      rw [Bool.not_eq_true, Option.isSome_eq_false_iff, Option.isNone_iff_eq_none] at hfree
      simpa using Table.findRow_none hfree ht

theorem createStaged_eq_ok {d : Dispatch} {i : ℕ} {l : List StagedAttachment} {s : State}
    {r : Unit × State} (h : createStaged d i l s = .ok r) :
    r.2.threads = s.threads ∧ r.2.messages = s.messages := by
  induction l generalizing i s with
  | nil =>
    cases h
    exact ⟨rfl, rfl⟩
  | cons a rest ih =>
    unfold createStaged at h
    cases hcreate : createAttachment (d.attachmentId i) (stagedRow d a) s with
    | error e =>
      rw [hcreate] at h
      cases h
    | ok r₁ =>
      rw [hcreate] at h
      obtain ⟨hthreads, hmessages⟩ := ih h
      have hr₁ := createAttachment_eq_ok hcreate
      rw [hthreads, hmessages, hr₁]
      exact ⟨rfl, rfl⟩

theorem createSent_eq_ok {d : Dispatch} {args : DeliverArgs} {providerId : String} {s : State}
    {r : Unit × State} (h : createSent env d args providerId s = .ok r) :
    r.2.threads = s.threads ∧
      r.2.messages = s.messages.insert d.messageId (sentMessage env d args providerId) := by
  unfold createSent at h
  cases hcreate : createMessage d.messageId (sentMessage env d args providerId) s with
  | error e =>
    rw [hcreate] at h
    cases h
  | ok r₁ =>
    rw [hcreate] at h
    obtain ⟨hthreads, hmessages⟩ := createStaged_eq_ok h
    have hr₁ := createMessage_eq_ok hcreate
    rw [hthreads, hmessages, hr₁]
    exact ⟨rfl, rfl⟩

/-! ## Inbound mail -/

/-- The threads and the messages are what they were. -/
def SameThreads (s s' : State) : Prop := s'.threads = s.threads ∧ s'.messages = s.messages

section Inbound

variable {env : Env} {data : InboundEmail} {d : Delivery} {own : List (State × State)}

theorem SameThreads.did {s s' : State} (h : SameThreads s s') :
    DidInbound env data d ((s, s') :: own) :=
  ⟨.same h.1, .same h.2⟩

theorem did_refl (s : State) : DidInbound env data d ((s, s) :: own) :=
  SameThreads.did ⟨rfl, rfl⟩

/-- The thread that is found is that of the first address whose token has one. -/
theorem does_resolveThreadByToken (addresses : List String) :
    (resolveThreadByToken env addresses).Does (DidInbound env data d) (fun own r => match r with
      | .ok (some found) => ByToken env own addresses found.1
      | .ok none => AllMissed env own addresses
      | .error _ => True) own := by
  induction addresses generalizing own with
  | nil => exact fun a ha => absurd ha List.not_mem_nil
  | cons addr rest ih =>
    unfold resolveThreadByToken
    cases hparse : parseToken env.toLowerCase env.replyDomain addr with
    | none =>
      have hfirst : ∀ own, AllMissed env own [addr] := by
        intro own a ha token htoken
        rw [List.mem_singleton.1 ha, hparse] at htoken
        cases htoken
      refine (@ih own).imp (fun _ h => h) fun own r hr => ?_
      match r, hr with
      | .ok (some found), ⟨before, a, after, thread, heq, htoken, hsaw, hmissed⟩ =>
        refine ⟨addr :: before, a, after, thread, by rw [heq]; rfl, htoken, hsaw, ?_⟩
        exact List.forall_mem_cons.2 ⟨hfirst own addr (by simp), hmissed⟩
      | .ok none, hmissed => exact List.forall_mem_cons.2 ⟨hfirst own addr (by simp), hmissed⟩
      | .error _, _ => trivial
    | some token =>
      refine does_bind (does_read fun s => ⟨did_refl s, ?_⟩)
      dsimp only
      cases hfound : s.threads.findRow fun t => t.replyToken = token with
      | some found =>
        obtain ⟨hlookup, htoken⟩ := Table.findRow_some (k := found.1) (r := found.2) hfound
        refine ⟨[], addr, rest, found.2, rfl, ?_, ⟨(s, s), List.mem_cons_self, hlookup⟩, ?_⟩
        · rw [hparse, of_decide_eq_true htoken]
        · exact fun a ha => absurd ha List.not_mem_nil
      | none =>
        refine (@ih ((s, s) :: own)).grows.imp (fun _ h => h) fun own' r hr => ?_
        have hfirst : (s, s) ∈ own' → ∀ t, parseToken env.toLowerCase env.replyDomain addr = some t →
            Missed own' t := by
          intro hmem t ht
          obtain rfl := Option.some.inj (hparse.symm.trans ht)
          exact ⟨(s, s), hmem, fun id thread h => by simpa using Table.findRow_none hfound h⟩
        match r, hr with
        | .ok (some found), ⟨⟨before, a, after, thread, heq, htoken, hsaw, hmissed⟩, hsub⟩ =>
          refine ⟨addr :: before, a, after, thread, by rw [heq]; rfl, htoken, hsaw, ?_⟩
          exact List.forall_mem_cons.2 ⟨hfirst (hsub List.mem_cons_self), hmissed⟩
        | .ok none, ⟨hmissed, hsub⟩ =>
          exact List.forall_mem_cons.2 ⟨hfirst (hsub List.mem_cons_self), hmissed⟩
        | .error _, _ => trivial

/-- A program that leaves the threads and the messages alone. -/
theorem does_of_same {α : Type} {p : Handler α} (hp : p.Each SameThreads)
    (own : List (State × State)) : p.Does (DidInbound env data d) (fun _ _ => True) own := by
  induction p generalizing own with
  | ret a => trivial
  | fail e => trivial
  | act ready eff next ih => exact fun s _ => ⟨(hp s).1.did, ih s (hp s).2 _⟩

theorem each_persistInboundAttachments (i : ℕ) (l : List EventAttachment) :
    (persistInboundAttachments d data i l).Each SameThreads := by
  induction l generalizing i with
  | nil => trivial
  | cons a rest ih =>
    unfold persistInboundAttachments
    split
    · dsimp only
      split
      · refine each_bind (each_tryCatch (each_bind (each_modify fun _ => ⟨rfl, rfl⟩) fun _ => ?_)
          fun _ => trivial) fun _ => ih (i + 1)
        refine each_attempt (fun _ => ⟨rfl, rfl⟩) fun s r h => ?_
        rw [createAttachment_eq_ok h]
        exact ⟨rfl, rfl⟩
      · exact ih (i + 1)
    · exact ih (i + 1)

/-- What follows when the thread was found. -/
theorem does_appendInbound {received : ReceivedEmail} {threadId : Uuid} {thread : MailThread}
    (hfound : Found env d data own threadId) :
    (appendInbound env data d received threadId thread).Does (DidInbound env data d)
      (fun _ _ => True) own := by
  refine does_bind (does_attempt (fun s _ s' _ h => ⟨?_, ?_⟩) fun s _ _ _ => ⟨did_refl s, trivial⟩)
  · obtain rfl := createMessage_eq_ok h
    exact ⟨.same rfl, .filed hfound rfl⟩
  · refine does_bind ((does_of_same (each_persistInboundAttachments 0 _) _).imp (fun _ h => h) ?_)
    rintro own (e | _) -
    · trivial
    · refine does_bind (does_attempt (fun s _ s' _ h => ⟨?_, ?_⟩)
        fun s _ _ _ => ⟨did_refl s, trivial⟩)
      · obtain ⟨row, hrow, rfl⟩ := updateThread_eq_ok h
        have hcustomer : (filed d received thread row).toEmail = row.toEmail := rfl
        exact ⟨.changed hrow hcustomer rfl rfl, .same rfl⟩
      · apply does_of_same
        exact each_bind (each_modify fun _ => ⟨rfl, rfl⟩) fun _ => each_modify fun _ => ⟨rfl, rfl⟩

theorem does_resolveThreadByReferences {received : ReceivedEmail}
    (hreceive : d.receive data.emailId = some (some received))
    (hmissed : AllMissed env own (data.to_ ++ data.cc)) :
    (resolveThreadByReferences received.headers).Does (DidInbound env data d) (fun own r =>
      ∀ found, r = .ok (some found) → Found env d data own found.1) own := by
  unfold resolveThreadByReferences
  split
  · rintro found ⟨⟩
  · rename_i ids hids
    refine does_bind (does_read fun s => ⟨did_refl s, ?_⟩)
    dsimp only
    rcases s.messages.latest_cases (fun m => m.rfcMessageId.any (refIds received.headers).contains)
      MailMessage.createdAt with ⟨messageId, message, hlatest, hmessage, hrefers⟩ | ⟨hlatest, -⟩
    · rw [hlatest]
      refine does_read fun s' => ⟨did_refl s', fun found hfound => ?_⟩
      obtain ⟨t, -, rfl⟩ := Option.map_eq_some_iff.1 (Except.ok.inj hfound)
      refine .inr ⟨hmissed.mono fun y hy => ?_, received, hreceive, (s, s), ?_, messageId, message,
        hmessage, rfl, hrefers⟩
      · exact List.mem_cons_of_mem _ (List.mem_cons_of_mem _ hy)
      · exact List.mem_cons_of_mem _ List.mem_cons_self
    · rw [hlatest]
      rintro found ⟨⟩

theorem does_handleInbound : (handleInbound env data d).Does (DidInbound env data d)
    (fun _ _ => True) [] := by
  unfold handleInbound
  split
  · trivial
  · refine does_bind ((does_resolveThreadByToken _).imp (fun _ h => h) fun own r hr => ?_)
    match r, hr with
    | .error _, _ => trivial
    | .ok byToken, hr =>
      dsimp only
      split
      · trivial
      · trivial
      · rename_i received hreceive
        cases byToken with
        | some found => exact does_appendInbound (.inl hr)
        | none =>
          refine does_bind ((does_resolveThreadByReferences hreceive hr).imp (fun _ h => h) ?_)
          rintro own (e | _ | found) hfound
          · trivial
          · trivial
          · exact does_appendInbound (hfound found rfl)

end Inbound

/-! ## Outbound mail -/

section Outbound

variable {c : Call} {own : List (Desk × Desk)}

/-- A step that changes no table, and sends nothing. -/
theorem did_same {w w' : Desk} (h : SameThreads w.mail w'.mail) (hsent : w'.sent = w.sent) :
    Did env c ((w, w') :: own) :=
  ⟨.same h.1, .same h.2, .same hsent⟩

/-- A statement on the tables, then more. -/
theorem does_transaction {α β : Type} {body : State → Except Error (α × State)}
    {k : α → DeskHandler β} (hbody : ∀ w a s', body w.mail = .ok (a, s') →
      let w' : Desk := { w with mail := s' }
      Did env c ((w, w') :: own) ∧ (k a).Does (Did env c) (fun _ _ => True) ((w, w') :: own)) :
    ((transaction body).zoom Desk.mailPart >>= k).Does (Did env c) (fun _ _ => True) own := by
  rw [transaction, zoom_attempt]
  refine does_bind (does_attempt (fun w a w' _ h => ?_)
    fun w _ _ _ => ⟨did_same ⟨rfl, rfl⟩ rfl, trivial⟩)
  cases hb : body (Desk.mailPart.get w) with
  | error e =>
    rw [hb] at h
    cases h
  | ok r =>
    rw [hb] at h
    cases h
    exact hbody w r.1 r.2 hb

/-- The row of a thread is updated in what is neither its customer nor its token. -/
theorem did_updateThread {id : Uuid} {f : MailThread → MailThread} {w : Desk} {r : Unit × State}
    (h : updateThread id f w.mail = .ok r) (hcustomer : ∀ t, (f t).toEmail = t.toEmail)
    (htoken : ∀ t, (f t).replyToken = t.replyToken) :
    Did env c ((w, { w with mail := r.2 }) :: own) := by
  obtain ⟨row, hrow, hr⟩ := updateThread_eq_ok h
  rw [hr]
  exact ⟨.changed hrow (hcustomer row) (htoken row) rfl, .same rfl, .same rfl⟩

theorem each_fetchStaged (l : List StagedAttachment) :
    (fetchStaged l).Each fun w w' => w' = w := by
  induction l with
  | nil => trivial
  | cons a rest ih =>
    refine each_bind (each_read _ fun _ => rfl) fun content => ?_
    cases content with
    | none => trivial
    | some content => exact each_bind ih fun _ => trivial

/-- A delivery for a thread that the call has seen. -/
theorem does_deliver {d : Dispatch} {args : DeliverArgs} (hc : ∀ data d, c ≠ .inbound data d)
    (hsaw : Saw (tables own) args.threadId args.thread) (hto : args.toEmail = args.thread.toEmail) :
    (deliver env d args).Does (Did env c) (fun _ _ => True) own := by
  refine (each_fetchStaged args.attachments).does_bind ?_ (fun attachments later _ => ?_)
    fun _ _ => trivial
  · rintro w _ later rfl
    exact did_same ⟨rfl, rfl⟩ rfl
  · unfold sendAndReturn
    split
    · trivial
    · refine does_bind (does_bind (does_modify fun w _ => ⟨⟨.same rfl, .same rfl, ?_⟩, ?_⟩))
      · exact .sent (hsaw.mono (List.map_subset _ (List.subset_append_right _ _))) hto rfl rfl
      · refine does_transaction fun w _ s' h => ⟨?_, ?_⟩
        · obtain ⟨hthreads, hmessages⟩ := createSent_eq_ok h
          exact ⟨.same hthreads, .sent hc hmessages, .same rfl⟩
        · refine does_transaction fun w _ s' h => ⟨?_, ?_⟩
          · exact did_updateThread h (fun _ => rfl) fun _ => rfl
          · exact does_modify fun w _ => ⟨did_same ⟨rfl, rfl⟩ rfl, trivial⟩

theorem does_compose (input : ComposeInput) (draws : ThreadDraws) (d : Dispatch) :
    (compose env input draws d).Does (Did env (.compose input draws d)) (fun _ _ => True) [] := by
  unfold compose
  split
  · trivial
  · split
    · trivial
    · refine does_transaction fun w _ s' h => ?_
      obtain ⟨hnew, hfree, hs'⟩ := createThread_eq_ok h
      dsimp only at hs'
      subst hs'
      refine ⟨⟨.created hnew rfl hfree rfl, .same rfl, .same rfl⟩, ?_⟩
      refine does_deliver (fun _ _ h => by cases h) ?_ rfl
      exact ⟨_, List.mem_cons_self, AList.lookup_insert _⟩

theorem does_reply (input : ReplyInput) (d : Dispatch) :
    (reply env input d).Does (Did env (.reply input d)) (fun _ _ => True) [] := by
  refine does_bind (does_read fun w => ⟨did_same ⟨rfl, rfl⟩ rfl, ?_⟩)
  dsimp only
  cases hthread : w.mail.threads.lookup input.threadId with
  | none => trivial
  | some thread =>
    refine does_bind (does_read fun w' => ⟨did_same ⟨rfl, rfl⟩ rfl, ?_⟩)
    refine does_deliver (fun _ _ h => by cases h) ?_ rfl
    exact ⟨(w.mail, w.mail), List.mem_cons_of_mem _ List.mem_cons_self, hthread⟩

/-- A step that changes a thread in what is neither its customer nor its token, and nothing else. -/
def OnThreads (s s' : State) : Prop := ThreadStep s s' ∧ s'.messages = s.messages

theorem onThreads_update {id : Uuid} {f : MailThread → MailThread}
    (hcustomer : ∀ t, (f t).toEmail = t.toEmail) (htoken : ∀ t, (f t).replyToken = t.replyToken) :
    (transaction (updateThread id f)).Each OnThreads := by
  refine each_attempt (fun _ => ⟨.same rfl, rfl⟩) fun s r h => ?_
  obtain ⟨row, hrow, hr⟩ := updateThread_eq_ok h
  rw [hr]
  exact ⟨.changed hrow (hcustomer row) (htoken row) rfl, rfl⟩

/-- A program on the threads. -/
theorem does_onThreads {α : Type} {p : Handler α} (hp : p.Each OnThreads) :
    (p.zoom Desk.mailPart).Does (Did env c) (fun _ _ => True) own := by
  have hzoom : (p.zoom Desk.mailPart).Each fun w w' => ∀ own, Did env c ((w, w') :: own) :=
    hp.zoom fun w s h own => ⟨h.1, .same h.2, .same rfl⟩
  generalize p.zoom Desk.mailPart = q at hzoom
  induction q generalizing own with
  | ret a => trivial
  | fail e => trivial
  | act ready eff next ih => exact fun w _ => ⟨(hzoom w).1 own, ih w (hzoom w).2⟩

theorem each_getMessages (threadId : Uuid) : (getMessages threadId).Each OnThreads := by
  have hread : ∀ s : State, OnThreads s s := fun _ => ⟨.same rfl, rfl⟩
  refine each_bind (each_read _ hread) fun thread => ?_
  cases thread with
  | none => trivial
  | some thread =>
    dsimp only
    split
    · refine each_bind (onThreads_update (fun _ => rfl) fun _ => rfl) fun _ => ?_
      exact each_bind (each_modify fun _ => ⟨.same rfl, rfl⟩) fun _ => each_read _ hread
    · exact each_read _ hread

/-- **What a call does.** -/
theorem handle_does (env : DeskEnv) (c : Call) :
    (handle env c).Does (Did env c) (fun _ _ => True) [] := by
  cases c with
  | compose input draws d => exact does_compose input draws d
  | reply input d => exact does_reply input d
  | closeThread threadId | reopenThread threadId =>
    exact does_onThreads (onThreads_update (fun _ => rfl) fun _ => rfl)
  | getMessages threadId =>
    exact does_bind ((does_onThreads (each_getMessages threadId)).imp (fun _ h => h)
      fun _ r _ => by cases r <;> trivial)
  | stageAttachment file buf =>
    exact does_bind (does_bind (does_modify fun w _ => ⟨did_same ⟨rfl, rfl⟩ rfl, trivial⟩))
  | inbound data d =>
    refine Does.zoom does_handleInbound (fun w s own h => ?_) fun _ _ _ => trivial
    exact ⟨h.1, h.2, .same rfl⟩

end Outbound

end BankDemo.Mail
