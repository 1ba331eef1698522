import BankDemo.Foundations.Interleave
import BankDemo.Mail.Service

/-!
# Inbound mail, delivered again

Nothing in the handling of an inbound event looks for an earlier delivery of it: a delivery whose
email cannot be fetched or has no thread changes nothing, and every other one adds its message, its
attachments with their objects and its reference (`inbound_each`), the second as the first
(`redelivered_twice`). The staff may open threads in between.
-/

namespace BankDemo.Mail

open Prog

/-! ## What a delivery finds -/

/-- The thread of the first address whose token has one. -/
def tokenThread (env : Env) (addresses : List String) (s : State) : Option (Uuid × MailThread) :=
  addresses.findSome? fun addr =>
    (parseToken env.toLowerCase env.replyDomain addr).bind fun token =>
      s.threads.findRow fun t => t.replyToken = token

/-- The thread of the latest message that is referred to. -/
def referredThread (headers : Option (List (String × String))) (s : State) :
    Option (Uuid × MailThread) :=
  (s.messages.latest (fun m => m.rfcMessageId.any (refIds headers).contains)
    MailMessage.createdAt).bind fun m =>
      (s.threads.lookup m.2.threadId).map fun t => (m.2.threadId, t)

/-- The email of a delivery and its thread, if both are to be had. -/
def target (env : Env) (data : InboundEmail) (d : Delivery) (s : State) :
    Option (ReceivedEmail × Uuid × MailThread) :=
  if env.resend then
    (d.receive data.emailId).join.bind fun received =>
      ((tokenThread env (data.to_ ++ data.cc) s).or (referredThread received.headers s)).map
        fun found => (received, found)
  else none

/-- The rows of the attachments that can be had, from the place `i` on. -/
def rowsFrom (d : Delivery) (data : InboundEmail) (i : ℕ) (l : List EventAttachment) :
    List (Uuid × MailAttachment) :=
  (l.zipIdx i).filterMap fun a => (attachmentOf d data a.1).bind fun r =>
    if d.put r.2.1 then some (d.attachmentId a.2, r.1) else none

/-- The objects of the attachments that can be had, with their keys. -/
def objectsFrom (d : Delivery) (data : InboundEmail) (l : List EventAttachment) :
    List (String × Documents.Buffer) :=
  l.filterMap fun a => (attachmentOf d data a).bind fun r => if d.put r.2.1 then some r.2 else none

/-- The rows are added to the table. -/
def addRows (rows : List (Uuid × MailAttachment)) (t : Table Uuid MailAttachment) :
    Table Uuid MailAttachment :=
  rows.foldl (fun t r => t.insert r.1 r.2) t

/-- The ids that the delivery draws are new. -/
structure Fresh (data : InboundEmail) (d : Delivery) (s : State) : Prop where
  message : s.messages.lookup d.messageId = none
  attachments : ∀ r ∈ rowsFrom d data 0 data.attachments, s.attachments.lookup r.1 = none
  nodup : ((rowsFrom d data 0 data.attachments).map Prod.fst).Nodup

/-- What a delivery adds: its message, its attachments with their objects, its reference and its
events. -/
structure Files (env : Env) (data : InboundEmail) (d : Delivery) (received : ReceivedEmail)
    (threadId : Uuid) (thread : MailThread) (s s' : State) : Prop where
  messages : s'.messages =
    s.messages.insert d.messageId (messageOf env d data received threadId thread)
  attachments : s'.attachments = addRows (rowsFrom d data 0 data.attachments) s.attachments
  objects : s'.objects = s.objects ++ objectsFrom d data data.attachments
  threads : s'.threads = s.threads.insert threadId (filed d received thread thread)
  events : s'.events =
    s.events ++ [.messageCreated threadId .inbound d.messageId d.now, .queueChanged 1]

section Handling

variable {env : Env} {data : InboundEmail} {d : Delivery} {s : State}

theorem resolveThreadByToken_run (addresses : List String) :
    (resolveThreadByToken env addresses).run s = (.ok (tokenThread env addresses s), s) := by
  induction addresses with
  | nil => rfl
  | cons addr rest ih =>
    unfold resolveThreadByToken tokenThread
    rw [List.findSome?_cons]
    cases parseToken env.toLowerCase env.replyDomain addr with
    | none => exact ih
    | some token =>
      rw [Option.bind_some, run_bind, run_read]
      dsimp only
      cases s.threads.findRow fun t => t.replyToken = token with
      | none => exact ih
      | some found => rfl

theorem resolveThreadByReferences_run (headers : Option (List (String × String))) :
    (resolveThreadByReferences headers).run s = (.ok (referredThread headers s), s) := by
  unfold resolveThreadByReferences referredThread
  cases hids : refIds headers with
  | nil =>
    have hnone : s.messages.latest (fun m => m.rfcMessageId.any ([] : List String).contains)
        MailMessage.createdAt = none := by
      rcases s.messages.latest_cases (fun m => m.rfcMessageId.any ([] : List String).contains)
        MailMessage.createdAt with ⟨k, r, -, -, hp⟩ | ⟨hnone, -⟩
      · obtain ⟨id, -, hid⟩ := Option.any_eq_true _ _ |>.1 hp
        cases hid
      · exact hnone
    rw [hnone]
    rfl
  | cons id ids =>
    dsimp only
    rw [run_bind, run_read]
    dsimp only
    cases s.messages.latest _ MailMessage.createdAt <;> rfl

theorem tokenThread_lookup {addresses : List String} {found : Uuid × MailThread}
    (h : tokenThread env addresses s = some found) : s.threads.lookup found.1 = some found.2 := by
  obtain ⟨addr, -, haddr⟩ := List.exists_of_findSome?_eq_some h
  obtain ⟨token, -, hrow⟩ := Option.bind_eq_some_iff.1 haddr
  exact (Table.findRow_some hrow).1

theorem referredThread_lookup {headers : Option (List (String × String))}
    {found : Uuid × MailThread} (h : referredThread headers s = some found) :
    s.threads.lookup found.1 = some found.2 := by
  obtain ⟨m, -, hm⟩ := Option.bind_eq_some_iff.1 h
  obtain ⟨t, ht, rfl⟩ := Option.map_eq_some_iff.1 hm
  exact ht

theorem target_lookup {received : ReceivedEmail} {threadId : Uuid} {thread : MailThread}
    (h : target env data d s = some (received, threadId, thread)) :
    s.threads.lookup threadId = some thread := by
  unfold target at h
  split at h
  · obtain ⟨received', -, h⟩ := Option.bind_eq_some_iff.1 h
    obtain ⟨found, hfound, heq⟩ := Option.map_eq_some_iff.1 h
    cases heq
    rcases Option.or_eq_some_iff.1 hfound with htoken | ⟨-, href⟩
    · exact tokenThread_lookup htoken
    · exact referredThread_lookup href
  · cases h

/-! ## What a delivery does -/

theorem rowsFrom_cons (i : ℕ) (a : EventAttachment) (l : List EventAttachment) :
    rowsFrom d data i (a :: l) = (((attachmentOf d data a).bind fun r =>
      if d.put r.2.1 then some (d.attachmentId i, r.1) else none).toList ++
        rowsFrom d data (i + 1) l) := by
  unfold rowsFrom
  rw [List.zipIdx_cons, List.filterMap_cons]
  cases (attachmentOf d data a).bind fun r =>
    if d.put r.2.1 then some (d.attachmentId i, r.1) else none <;> rfl

theorem objectsFrom_cons (a : EventAttachment) (l : List EventAttachment) :
    objectsFrom d data (a :: l) = (((attachmentOf d data a).bind fun r =>
      if d.put r.2.1 then some r.2 else none).toList ++ objectsFrom d data l) := by
  unfold objectsFrom
  rw [List.filterMap_cons]
  cases (attachmentOf d data a).bind fun r => if d.put r.2.1 then some r.2 else none <;> rfl

/-- The attachments belong to the message of the delivery. -/
theorem attachmentOf_messageId {a : EventAttachment}
    {r : MailAttachment × String × Documents.Buffer}
    (h : attachmentOf d data a = some r) : r.1.messageId = d.messageId := by
  unfold attachmentOf at h
  obtain ⟨meta_, -, h⟩ := Option.bind_eq_some_iff.1 h
  obtain ⟨url, -, h⟩ := Option.bind_eq_some_iff.1 h
  obtain ⟨bytes, -, h⟩ := Option.bind_eq_some_iff.1 h
  obtain rfl := Option.some.inj h
  rfl

/-- What adds these attachments and these objects. -/
def Attaches (rows : List (Uuid × MailAttachment)) (objects : List (String × Documents.Buffer))
    (s s' : State) : Prop :=
  s'.threads = s.threads ∧ s'.messages = s.messages ∧ s'.events = s.events ∧
    s'.attachments = addRows rows s.attachments ∧ s'.objects = s.objects ++ objects

/-- The attachments that can be had are added, whatever becomes of the others. -/
theorem persistInboundAttachments_ensures (hmessage : (s.messages.lookup d.messageId).isSome = true)
    {i : ℕ} {l : List EventAttachment}
    (hfree : ∀ r ∈ rowsFrom d data i l, s.attachments.lookup r.1 = none)
    (hnodup : ((rowsFrom d data i l).map Prod.fst).Nodup) :
    (persistInboundAttachments d data i l).Ensures s fun r s' =>
      r = .ok () ∧ Attaches (rowsFrom d data i l) (objectsFrom d data l) s s' := by
  induction l generalizing i s with
  | nil => exact ⟨rfl, rfl, rfl, rfl, rfl, (List.append_nil _).symm⟩
  | cons a l ih =>
    rw [rowsFrom_cons] at hfree hnodup ⊢
    rw [objectsFrom_cons]
    unfold persistInboundAttachments
    cases hof : attachmentOf d data a with
    | none =>
      rw [hof] at hfree hnodup
      exact ih hmessage hfree hnodup
    | some r =>
      obtain ⟨attachment, key, bytes⟩ := r
      rw [hof] at hfree hnodup
      dsimp only [Option.bind_some] at hfree hnodup ⊢
      cases hput : d.put key with
      | false =>
        rw [hput] at hfree hnodup
        exact ih hmessage hfree hnodup
      | true =>
        rw [hput] at hfree hnodup
        simp only [if_true, Option.toList_some, List.singleton_append, List.map_cons,
          List.nodup_cons, List.mem_cons, forall_eq_or_imp] at hfree hnodup ⊢
        have hid : attachment.messageId = d.messageId := attachmentOf_messageId hof
        -- the row is added after its object
        have hcreate : ∀ objects, createAttachment (d.attachmentId i) attachment
            { s with objects } = .ok ((), { s with
              objects, attachments := s.attachments.insert (d.attachmentId i) attachment }) := by
          intro objects
          unfold createAttachment
          rw [if_neg (by simp [hfree.1]),
            if_neg (by rw [hid, Bool.not_eq_true, Option.isNone_eq_false_iff]; exact hmessage)]
        refine ensures_bind (ensures_tryCatch (ensures_bind (ensures_modify ?_)))
        refine ensures_attempt (fun u s₁ hs₁ => ?_) fun e he => ?_
        · rw [hcreate] at hs₁
          cases hs₁
          refine Ensures.imp (ih (s := { s with
            objects := s.objects ++ [(key, bytes)]
            attachments := s.attachments.insert (d.attachmentId i) attachment })
            hmessage ?_ hnodup.2) fun r s' h => ?_
          · intro r hr
            dsimp only
            rw [Table.lookup_insert_ite, if_neg, hfree.2 r hr]
            intro heq
            exact hnodup.1 (heq ▸ List.mem_map_of_mem hr)
          · obtain ⟨hr, hthreads, hmessages, hevents, hattachments, hobjects⟩ := h
            refine ⟨hr, hthreads, hmessages, hevents, hattachments, ?_⟩
            rw [hobjects, List.append_assoc, List.singleton_append]
        · rw [hcreate] at he
          cases he

/-- What is done with the thread. -/
theorem appendInbound_ensures (hfresh : Fresh data d s) {received : ReceivedEmail} {threadId : Uuid}
    {thread : MailThread} (hthread : s.threads.lookup threadId = some thread) :
    (appendInbound env data d received threadId thread).Ensures s fun _ s' =>
      Files env data d received threadId thread s s' := by
  have hcreate : ∀ m : MailMessage, m.threadId = threadId → createMessage d.messageId m s =
      .ok ((), { s with messages := s.messages.insert d.messageId m }) := by
    rintro m rfl
    unfold createMessage
    rw [if_neg (by simp [hfresh.message]), if_neg (by simp [hthread])]
  refine ensures_bind (ensures_attempt (fun u s₁ hs₁ => ?_) fun e he => ?_)
  · rw [hcreate _ rfl] at hs₁
    cases hs₁
    refine ensures_bind (Ensures.imp (persistInboundAttachments_ensures (by simp)
      hfresh.attachments hfresh.nodup) ?_)
    rintro r s₂ ⟨rfl, hthreads, hmessages, hevents, hattachments, hobjects⟩
    dsimp only at hthreads hmessages hevents hattachments hobjects ⊢
    have hupdate : updateThread threadId (filed d received thread) s₂ = .ok ((), { s₂ with
        threads := s₂.threads.insert threadId (filed d received thread thread) }) := by
      unfold updateThread
      rw [hthreads, hthread]
    refine ensures_bind (ensures_attempt (fun u s₃ hs₃ => ?_) fun e he => ?_)
    · rw [hupdate] at hs₃
      cases hs₃
      refine ensures_bind (ensures_modify (ensures_modify ⟨hmessages, hattachments, hobjects, ?_, ?_⟩))
      · dsimp only
        rw [hthreads]
      · dsimp only
        rw [hevents, List.append_assoc]
        rfl
    · rw [hupdate] at he
      cases he
  · rw [hcreate _ rfl] at he
    cases he

/-- **What a delivery does**: nothing, or it adds its message, its attachments and its reference. -/
theorem handleInbound_ensures (hfresh : Fresh data d s) :
    (handleInbound env data d).Ensures s fun _ s' => match target env data d s with
      | none => s' = s
      | some (received, threadId, thread) => Files env data d received threadId thread s s' := by
  have hlookup : ∀ received threadId thread,
      target env data d s = some (received, threadId, thread) →
        s.threads.lookup threadId = some thread := fun _ _ _ => target_lookup
  unfold handleInbound
  unfold target at hlookup ⊢
  cases hresend : env.resend with
  | false => exact rfl
  | true =>
    simp only [hresend, if_true] at hlookup
    simp only [not_true_eq_false, if_false, if_true]
    refine ensures_bind ?_
    unfold Ensures
    rw [resolveThreadByToken_run]
    dsimp only
    cases hreceive : d.receive data.emailId with
    | none => exact rfl
    | some answer =>
      cases answer with
      | none => exact rfl
      | some received =>
        rw [hreceive] at hlookup
        dsimp only [Option.join_some, Option.bind_some] at hlookup ⊢
        -- the thread by the token or else by the references
        have hresolved : (resolveThread received.headers
            (tokenThread env (data.to_ ++ data.cc) s)).run s =
            (.ok ((tokenThread env (data.to_ ++ data.cc) s).or
              (referredThread received.headers s)), s) := by
          cases tokenThread env (data.to_ ++ data.cc) s with
          | none => exact resolveThreadByReferences_run received.headers
          | some found => rfl
        simp only [run_bind, hresolved]
        cases hfound : (tokenThread env (data.to_ ++ data.cc) s).or
            (referredThread received.headers s) with
        | none => exact rfl
        | some found =>
          rw [hfound] at hlookup
          exact appendInbound_ensures hfresh (hlookup received found.1 found.2 rfl)

/-! ## The same thread again -/

/-- The row of a thread after an email is filed in it. -/
def refiled (threadId : Uuid) (thread : MailThread) (found : Uuid × MailThread) :
    Uuid × MailThread :=
  if found.1 = threadId then (threadId, thread) else found

section Again

variable {threadId : Uuid} {thread thread' : MailThread} {s' : State}
  (hthread : s.threads.lookup threadId = some thread)
  (htoken : thread'.replyToken = thread.replyToken)
  (hthreads : s'.threads = s.threads.insert threadId thread')

include hthread htoken hthreads

/-- A thread is found by its token after a change of other columns. -/
theorem tokenThread_again (hdistinct : s.threads.Distinct MailThread.replyToken)
    (addresses : List String) : tokenThread env addresses s' =
      (tokenThread env addresses s).map (refiled threadId thread') := by
  unfold tokenThread
  rw [List.map_findSome?]
  refine congrArg (List.findSome? · addresses) (funext fun addr => ?_)
  rw [Function.comp_apply]
  cases parseToken env.toLowerCase env.replyDomain addr with
  | none => rfl
  | some token =>
    rw [Option.bind_some, Option.bind_some, hthreads]
    exact Table.findRow_replaced hdistinct hthread htoken token

theorem distinct_again (hdistinct : s.threads.Distinct MailThread.replyToken) :
    s'.threads.Distinct MailThread.replyToken := by
  rw [hthreads]
  exact hdistinct.insert fun k' t hk' ht hsame =>
    hk' (hdistinct k' threadId t thread ht hthread (hsame.trans htoken))

end Again

/-- The thread referred to is the same one, also if it is through the new message. -/
theorem referredThread_again {received : ReceivedEmail} {threadId : Uuid} {thread : MailThread}
    {s' : State} (hfiles : Files env data d received threadId thread s s')
    (hfresh : s.messages.lookup d.messageId = none) {headers : Option (List (String × String))}
    (href : referredThread headers s = some (threadId, thread)) :
    (referredThread headers s').map Prod.fst = some threadId := by
  obtain ⟨m, hm, hfound⟩ := Option.bind_eq_some_iff.1 href
  obtain ⟨t, ht, heq⟩ := Option.map_eq_some_iff.1 hfound
  cases heq
  have hlatest : ∃ m', s'.messages.latest (fun m => m.rfcMessageId.any (refIds headers).contains)
      MailMessage.createdAt = some m' ∧ m'.2.threadId = m.2.threadId := by
    rw [hfiles.messages, Table.latest_insert hfresh]
    split
    · rw [hm]
      dsimp only
      split
      · exact ⟨m, rfl, rfl⟩
      · exact ⟨_, rfl, rfl⟩
    · exact ⟨m, hm, rfl⟩
  obtain ⟨m', hm', hsame⟩ := hlatest
  unfold referredThread
  rw [hm', Option.bind_some, hsame, hfiles.threads, AList.lookup_insert]
  rfl

/-- The email of a delivery and the thread that it is filed in. -/
def destination (env : Env) (data : InboundEmail) (d : Delivery) (s : State) :
    Option (ReceivedEmail × Uuid) :=
  (target env data d s).map fun found => (found.1, found.2.1)

/-- What the provider has of the email decides, and a delivery leaves it where it was. -/
theorem destination_again {d' : Delivery} {s' : State}
    (hdistinct : s.threads.Distinct MailThread.replyToken) (hfresh : Fresh data d s)
    (hreceive : d'.receive data.emailId = d.receive data.emailId)
    {received : ReceivedEmail} {threadId : Uuid} {thread : MailThread}
    (htarget : target env data d s = some (received, threadId, thread))
    (hfiles : Files env data d received threadId thread s s') :
    destination env data d' s' = some (received, threadId) := by
  have hthread := target_lookup htarget
  unfold target at htarget
  split at htarget
  · rename_i hresend
    obtain ⟨received', hreceived, htarget⟩ := Option.bind_eq_some_iff.1 htarget
    obtain ⟨found, hfound, heq⟩ := Option.map_eq_some_iff.1 htarget
    cases heq
    have hsome : ∃ found', (tokenThread env (data.to_ ++ data.cc) s').or
        (referredThread received.headers s') = some found' ∧ found'.1 = threadId := by
      have htoken : (filed d received thread thread).replyToken = thread.replyToken := rfl
      rw [tokenThread_again hthread htoken hfiles.threads hdistinct]
      rcases Option.or_eq_some_iff.1 hfound with htoken | ⟨hnone, href⟩
      · rw [htoken]
        exact ⟨_, rfl, by simp [refiled]⟩
      · rw [hnone]
        obtain ⟨found', hfound', hid⟩ := Option.map_eq_some_iff.1
          (referredThread_again hfiles hfresh.message href)
        exact ⟨found', hfound', hid⟩
    obtain ⟨found', hfound', rfl⟩ := hsome
    unfold destination target
    rw [if_pos hresend, hreceive, hreceived, Option.bind_some, hfound']
    rfl
  · cases htarget

/-- What opening a thread does: it clears the flag, if it is set, and tells so. -/
def Opens (threadId : Uuid) (s s' : State) : Prop :=
  match (s.threads.lookup threadId).filter MailThread.unreadForAdmins with
  | none => s' = s
  | some thread => s' = { s with
      threads := s.threads.insert threadId { thread with unreadForAdmins := false }
      events := s.events ++ [.queueChanged (-1)] }

theorem Opens.cases {threadId : Uuid} {s s' : State} (h : Opens threadId s s') : s' = s ∨
    ∃ thread, s.threads.lookup threadId = some thread ∧ thread.unreadForAdmins = true ∧
      s' = { s with
        threads := s.threads.insert threadId { thread with unreadForAdmins := false }
        events := s.events ++ [.queueChanged (-1)] } := by
  unfold Opens at h
  cases hthread : (s.threads.lookup threadId).filter MailThread.unreadForAdmins with
  | none =>
    rw [hthread] at h
    exact .inl h
  | some thread =>
    rw [hthread] at h
    obtain ⟨hlookup, hunread⟩ := Option.filter_eq_some_iff.1 hthread
    exact .inr ⟨thread, hlookup, hunread, h⟩

theorem getMessages_ensures (threadId : Uuid) (s : State) :
    (getMessages threadId).Ensures s fun _ s' => Opens threadId s s' := by
  unfold Opens
  refine ensures_read_bind ?_
  cases hthread : s.threads.lookup threadId with
  | none => rfl
  | some thread =>
    dsimp only
    rw [Option.filter_some]
    split
    · rename_i hunread
      have hupdate : updateThread threadId (fun t => { t with unreadForAdmins := false }) s =
          .ok ((), { s with
            threads := s.threads.insert threadId { thread with unreadForAdmins := false } }) := by
        rw [updateThread, hthread]
      refine ensures_bind (ensures_attempt (fun u s₁ h => ?_) fun e he => ?_)
      · rw [hupdate] at h
        cases h
        exact ensures_bind (ensures_modify rfl)
      · rw [hupdate] at he
        cases he
    · rfl

theorem destination_eq : destination env data d s =
    if env.resend then (d.receive data.emailId).join.bind fun received =>
      (((tokenThread env (data.to_ ++ data.cc) s).map Prod.fst).or
        ((referredThread received.headers s).map Prod.fst)).map fun id => (received, id)
    else none := by
  unfold destination target
  split
  · rw [Option.map_bind]
    refine congrArg (Option.bind _) (funext fun received => ?_)
    rw [Function.comp_apply, Option.map_map, ← Option.map_or, Option.map_map]
    rfl
  · rfl

/-- An opening leaves every email where it was. -/
theorem destination_opened {threadId : Uuid} {s' : State} (h : Opens threadId s s')
    (hdistinct : s.threads.Distinct MailThread.replyToken) :
    destination env data d s' = destination env data d s := by
  rcases h.cases with rfl | ⟨thread, hthread, -, rfl⟩
  · rfl
  · have hid : Prod.fst ∘ refiled threadId { thread with unreadForAdmins := false } = Prod.fst := by
      funext found
      simp only [Function.comp_apply, refiled]
      split
      · rename_i heq
        exact heq.symm
      · rfl
    have hreferred : ∀ headers, (referredThread headers { s with
        threads := s.threads.insert threadId { thread with unreadForAdmins := false }
        events := s.events ++ [.queueChanged (-1)] }).map Prod.fst =
          (referredThread headers s).map Prod.fst := by
      intro headers
      unfold referredThread
      cases s.messages.latest _ MailMessage.createdAt with
      | none => rfl
      | some m =>
        simp only [Option.bind_some, Option.map_map, Table.lookup_insert_ite]
        split
        · rename_i heq
          rw [heq, hthread]
          rfl
        · rfl
    have htoken : ({ thread with unreadForAdmins := false } : MailThread).replyToken =
        thread.replyToken := rfl
    rw [destination_eq, destination_eq, tokenThread_again hthread htoken rfl hdistinct,
      Option.map_map, hid]
    simp only [hreferred]

theorem target_congr {d' : Delivery} (hreceive : d'.receive data.emailId = d.receive data.emailId) :
    target env data d' s = target env data d s := by
  unfold target
  rw [hreceive]

end Handling

/-! ## Many deliveries -/

/-- A delivery of the event, or the staff opens a thread. -/
inductive InboxCall
  | inbound (d : Delivery)
  | getMessages (threadId : Uuid)

/-- The handler of a call. -/
def inbox (env : Env) (data : InboundEmail) : InboxCall → Handler Unit
  | .inbound d => handleInbound env data d
  | .getMessages threadId => do
    let _ ← getMessages threadId

/-- The messages that an event has left. -/
def copies (data : InboundEmail) (s : State) : ℕ :=
  s.messages.count fun _ m => m.direction = .inbound && m.providerMessageId = some data.emailId

/-- The sum of the deltas emitted. -/
def deltas (events : List Event) : ℤ :=
  (events.map fun e => match e with
    | .queueChanged delta => delta
    | .messageCreated _ _ _ _ => 0).sum

/-- The ids that a delivery draws are new. -/
def FreshCall (data : InboundEmail) (x : Step State InboxCall) : Prop :=
  ∀ d, x.call = .inbound d → Fresh data d x.pre

/-- The step is a delivery whose email is filed. -/
def Taken (env : Env) (data : InboundEmail) (x : Step State InboxCall) : Bool :=
  match x.call with
  | .inbound d => (target env data d x.pre).isSome
  | .getMessages _ => false

/-- A delivery finds its thread read by the staff. -/
def FindsRead (env : Env) (data : InboundEmail) (x : Step State InboxCall) : Prop :=
  ∀ d found, x.call = .inbound d → target env data d x.pre = some found →
    found.2.2.unreadForAdmins = false

/-- What a step does. -/
def Handles (env : Env) (data : InboundEmail) (x : Step State InboxCall) : Prop :=
  match x.call with
  | .inbound d => match target env data d x.pre with
    | none => x.post = x.pre
    | some (received, threadId, thread) => Files env data d received threadId thread x.pre x.post
  | .getMessages threadId => Opens threadId x.pre x.post

section Steps

variable {env : Env} {data : InboundEmail} {x : Step State InboxCall}

theorem inbox_ensures {c : InboxCall} {s : State} (hfresh : ∀ d, c = .inbound d → Fresh data d s) :
    (inbox env data c).Ensures s fun _ s' => Handles env data ⟨0, c, s, s'⟩ := by
  cases c with
  | inbound d => exact handleInbound_ensures (hfresh d rfl)
  | getMessages threadId =>
    refine ensures_bind ((getMessages_ensures threadId s).imp fun r s' h => ?_)
    cases r <;> exact h

/-- A step changes nothing, files an email or clears a flag. -/
theorem Handles.cases (h : Handles env data x) :
    (Taken env data x = false ∧ x.post = x.pre) ∨
      (∃ d received threadId thread, x.call = .inbound d ∧
        target env data d x.pre = some (received, threadId, thread) ∧
        Files env data d received threadId thread x.pre x.post) ∨
      ∃ threadId, x.call = .getMessages threadId ∧ Opens threadId x.pre x.post := by
  unfold Handles at h
  unfold Taken
  cases hcall : x.call with
  | getMessages threadId =>
    rw [hcall] at h
    exact .inr (.inr ⟨threadId, rfl, h⟩)
  | inbound d =>
    rw [hcall] at h
    dsimp only at h ⊢
    cases htarget : target env data d x.pre with
    | none =>
      rw [htarget] at h
      exact .inl ⟨rfl, h⟩
    | some found =>
      rw [htarget] at h
      exact .inr (.inl ⟨d, found.1, found.2.1, found.2.2, rfl, htarget, h⟩)

/-- One more message for each delivery that is filed. -/
theorem Handles.copies (h : Handles env data x) (hfresh : FreshCall data x) :
    copies data x.post = copies data x.pre + if Taken env data x then 1 else 0 := by
  rcases h.cases with ⟨hnot, hpost⟩ | ⟨d, received, threadId, thread, hcall, hsome, hfiles⟩ |
    ⟨threadId, hcall, hopens⟩
  · rw [hnot, hpost]
    rfl
  · have htaken : Taken env data x = true := by
      rw [Taken, hcall]
      dsimp only
      rw [hsome]
      rfl
    have hcount := Table.count_insert_new (hfresh d hcall).message
      (messageOf env d data received threadId thread)
      fun _ m => m.direction = .inbound && m.providerMessageId = some data.emailId
    rw [← hfiles.messages, if_pos (by simp [messageOf])] at hcount
    rw [htaken, Mail.copies, Mail.copies, if_pos rfl]
    exact_mod_cast hcount
  · have hnot : Taken env data x = false := by rw [Taken, hcall]
    have hmessages : x.post.messages = x.pre.messages := by
      rcases hopens.cases with hpost | ⟨thread, -, -, hpost⟩ <;> rw [hpost]
    rw [hnot, Mail.copies, Mail.copies, hmessages]
    rfl

/-- The delta of an opening is the change of the count, whatever the flag was. -/
theorem Opens.deltas {threadId : Uuid} {s s' : State} (h : Opens threadId s s') :
    deltas s'.events - deltas s.events = mailUnread s' - mailUnread s := by
  rcases h.cases with rfl | ⟨thread, hthread, hunread, rfl⟩
  · omega
  · have hreplaced : Table.Replaced threadId thread { thread with unreadForAdmins := false }
        s.threads (s.threads.insert threadId { thread with unreadForAdmins := false }) :=
      ⟨hthread, .inl rfl⟩
    have hcount := hreplaced.count MailThread.unreadForAdmins
    rw [hunread] at hcount
    simp only [Mail.deltas, mailUnread, List.map_append, List.sum_append, List.map_cons,
      List.map_nil, List.sum_cons, List.sum_nil]
    rw [hcount]
    simp

/-- The deltas of a step that finds its thread read are the change of the count. -/
theorem Handles.deltas (h : Handles env data x) (hread : FindsRead env data x) :
    deltas x.post.events - deltas x.pre.events = mailUnread x.post - mailUnread x.pre := by
  rcases h.cases with ⟨-, hpost⟩ | ⟨d, received, threadId, thread, hcall, hsome, hfiles⟩ |
    ⟨threadId, -, hopens⟩
  · rw [hpost]
    ring
  · have hreplaced : Table.Replaced threadId thread (filed d received thread thread)
        x.pre.threads x.post.threads := ⟨target_lookup hsome, .inl hfiles.threads⟩
    have hcount := hreplaced.count MailThread.unreadForAdmins
    rw [show thread.unreadForAdmins = false from hread d _ hcall hsome,
      show (filed d received thread thread).unreadForAdmins = true from rfl] at hcount
    have hdeltas : Mail.deltas x.post.events = Mail.deltas x.pre.events + 1 := by
      rw [hfiles.events, Mail.deltas, Mail.deltas, List.map_append, List.sum_append]
      rfl
    rw [hdeltas, mailUnread, mailUnread, hcount]
    simp
  · exact hopens.deltas

/-- A step leaves tokens distinct, and every email where it was whose answer is that of the step. -/
theorem Handles.destination (h : Handles env data x) (hfresh : FreshCall data x) (d : Delivery)
    (hsame : ∀ d', x.call = .inbound d' → d'.receive data.emailId = d.receive data.emailId)
    (hdistinct : x.pre.threads.Distinct MailThread.replyToken) :
    x.post.threads.Distinct MailThread.replyToken ∧
      destination env data d x.post = destination env data d x.pre := by
  rcases h.cases with ⟨-, hpost⟩ | ⟨d', received, threadId, thread, hcall, hsome, hfiles⟩ |
    ⟨threadId, -, hopens⟩
  · rw [hpost]
    exact ⟨hdistinct, rfl⟩
  · have htoken : (filed d' received thread thread).replyToken = thread.replyToken := rfl
    have hanswer := hsame d' hcall
    refine ⟨distinct_again (target_lookup hsome) htoken hfiles.threads hdistinct, ?_⟩
    rw [destination_again hdistinct (hfresh d' hcall) hanswer.symm hsome hfiles, Mail.destination,
      ← target_congr hanswer, hsome]
    rfl
  · refine ⟨?_, destination_opened hopens hdistinct⟩
    rcases hopens.cases with hpost | ⟨thread, hthread, -, hpost⟩
    · rw [hpost]
      exact hdistinct
    · have htoken : ({ thread with unreadForAdmins := false } : MailThread).replyToken =
          thread.replyToken := rfl
      exact distinct_again hthread htoken (by rw [hpost]) hdistinct

end Steps

section Runs

variable {env : Env} {data : InboundEmail} {s₀ s : State} {tr : List (Step State InboxCall)}

theorem handles_of_serial (hseq : Serial (inbox env data) s₀ tr s)
    (hfresh : ∀ x ∈ tr, FreshCall data x) : ∀ x ∈ tr, Handles env data x := by
  induction hseq with
  | start => exact fun x hx => absurd hx List.not_mem_nil
  | @call tr s c seq ih =>
    intro x hx
    rcases List.mem_cons.1 hx with rfl | hx
    · exact inbox_ensures (hfresh _ List.mem_cons_self)
    · exact ih (fun y hy => hfresh y (List.mem_cons_of_mem _ hy)) x hx

theorem copies_of_serial (hseq : Serial (inbox env data) s₀ tr s)
    (hfresh : ∀ x ∈ tr, FreshCall data x) :
    copies data s = copies data s₀ + (tr.filter (Taken env data)).length := by
  have hhandles := handles_of_serial hseq hfresh
  induction hseq with
  | start => rfl
  | @call tr s c seq ih =>
    have hstep := (hhandles _ List.mem_cons_self).copies (hfresh _ List.mem_cons_self)
    have hearlier := ih (fun y hy => hfresh y (List.mem_cons_of_mem _ hy))
      fun y hy => hhandles y (List.mem_cons_of_mem _ hy)
    dsimp only at hstep
    rw [hstep, hearlier, List.filter_cons]
    split <;> simp [Nat.add_assoc]

theorem deltas_of_serial (hseq : Serial (inbox env data) s₀ tr s)
    (hfresh : ∀ x ∈ tr, FreshCall data x) (hread : ∀ x ∈ tr, FindsRead env data x) :
    deltas s.events - deltas s₀.events = mailUnread s - mailUnread s₀ := by
  have hhandles := handles_of_serial hseq hfresh
  induction hseq with
  | start => ring
  | @call tr s c seq ih =>
    have hstep := (hhandles _ List.mem_cons_self).deltas (hread _ List.mem_cons_self)
    have hearlier := ih (fun y hy => hfresh y (List.mem_cons_of_mem _ hy))
      (fun y hy => hread y (List.mem_cons_of_mem _ hy))
      fun y hy => hhandles y (List.mem_cons_of_mem _ hy)
    dsimp only at hstep
    omega

/-- Deliveries that are answered alike all go where the first one goes. -/
theorem destination_of_serial (hseq : Serial (inbox env data) s₀ tr s)
    (hfresh : ∀ x ∈ tr, FreshCall data x)
    (hdistinct : s₀.threads.Distinct MailThread.replyToken) (d : Delivery)
    (hsame : ∀ x ∈ tr, ∀ d', x.call = .inbound d' →
      d'.receive data.emailId = d.receive data.emailId) :
    s.threads.Distinct MailThread.replyToken ∧
      destination env data d s = destination env data d s₀ := by
  have hhandles := handles_of_serial hseq hfresh
  induction hseq with
  | start => exact ⟨hdistinct, rfl⟩
  | @call tr s c seq ih =>
    obtain ⟨hkept, hdestination⟩ := ih (fun y hy => hfresh y (List.mem_cons_of_mem _ hy))
      (fun y hy => hsame y (List.mem_cons_of_mem _ hy))
      fun y hy => hhandles y (List.mem_cons_of_mem _ hy)
    have hstep := (hhandles _ List.mem_cons_self).destination (hfresh _ List.mem_cons_self) d
      (hsame _ List.mem_cons_self) hkept
    exact ⟨hstep.1, hstep.2.trans hdestination⟩

end Runs

/-! ## An event delivered twice -/

/-- The settings, with simple stand-ins for the sanitizer and the conversion to text. -/
def sampleEnv : Env where
  resend := true
  replyDomain := "secure-access.site"
  toLowerCase s := String.ofList (s.toList.map Char.toLower)
  sanitizeMailHtml s := s
  htmlToText s := s

/-- One thread, which nobody has answered. -/
def sampleDesk : State where
  threads := (∅ : Table Uuid MailThread).insert 1
    ⟨"ann@example.com", .customerCare, "Your card", .opened, "ab12", none, none, false⟩
  messages := ∅
  attachments := ∅
  objects := []
  events := []

/-- Ann's answer, with a picture. -/
def sampleEmail : InboundEmail where
  emailId := "e1"
  from_ := "Ann <ann@example.com>"
  to_ := ["State Bank <t-ab12@secure-access.site>"]
  cc := []
  subject := "Re: Your card"
  messageId := "<m1@example.com>"
  attachments := [⟨"a1", some "card.png", some "image/png", some 3⟩]

/-- A delivery of it. -/
def sampleDelivery (now : Instant) (id : Uuid) : Delivery where
  now
  messageId := id
  attachmentId _ := id
  receive _ := some (some ⟨none, some "Thank you", some "<m1@example.com>", none⟩)
  attachment _ _ := some ⟨some "https://example.com/a1", none⟩
  fetch _ := some [1, 2, 3]
  put _ := true

/-- The run of deliveries of the email. -/
def sampleRun (ds : List Delivery) : List (Step State Delivery) × State :=
  serially (handleInbound sampleEnv sampleEmail) sampleDesk ds

theorem sampleDelivery_fresh (s : State) (now : Instant) (id : Uuid)
    (hmessage : s.messages.lookup id = none) (hattachment : s.attachments.lookup id = none) :
    Fresh sampleEmail (sampleDelivery now id) s := by
  have hrows : (rowsFrom (sampleDelivery now id) sampleEmail 0 sampleEmail.attachments).map
      Prod.fst = [id] := rfl
  refine ⟨hmessage, fun r hr => ?_, by rw [hrows]; exact List.nodup_singleton id⟩
  have hid := List.mem_map_of_mem (f := Prod.fst) hr
  rw [hrows, List.mem_singleton] at hid
  rw [hid]
  exact hattachment

/-- The email is delivered twice. -/
def sampleTwice : List Delivery := [sampleDelivery 10 5, sampleDelivery 20 6]

theorem sampleTwice_fresh : ∀ x ∈ (sampleRun sampleTwice).1, Fresh sampleEmail x.call x.pre := by
  intro x hx
  rcases List.mem_cons.1 hx with rfl | hx
  · exact sampleDelivery_fresh _ 20 6 (by decide +kernel) (by decide +kernel)
  · obtain rfl := List.mem_singleton.1 hx
    exact sampleDelivery_fresh _ 10 5 (by decide +kernel) (by decide +kernel)

/-- The staff opens the thread between the two deliveries. -/
def sampleInbox : List (Step State InboxCall) × State :=
  serially (inbox sampleEnv sampleEmail) sampleDesk
    [.inbound (sampleDelivery 10 5), .getMessages 1, .inbound (sampleDelivery 20 6)]

theorem sampleInbox_fresh : ∀ x ∈ sampleInbox.1, FreshCall sampleEmail x := by
  intro x hx d hcall
  rcases List.mem_cons.1 hx with rfl | hx
  · cases hcall
    exact sampleDelivery_fresh _ 20 6 (by decide +kernel) (by decide +kernel)
  · rcases List.mem_cons.1 hx with rfl | hx
    · cases hcall
    · obtain rfl := List.mem_singleton.1 hx
      cases hcall
      exact sampleDelivery_fresh _ 10 5 (by decide +kernel) (by decide +kernel)

theorem sampleInbox_read : ∀ x ∈ sampleInbox.1, FindsRead sampleEnv sampleEmail x := by
  have hread : ∀ x ∈ sampleInbox.1, (match x.call with
      | .inbound d => (target sampleEnv sampleEmail d x.pre).all fun found =>
        found.2.2.unreadForAdmins = false
      | .getMessages _ => true) = true := by
    decide +kernel
  intro x hx d found hcall hfound
  have hall := hread x hx
  rw [hcall] at hall
  dsimp only at hall
  rw [hfound] at hall
  exact of_decide_eq_true hall

theorem sampleDesk_distinct : sampleDesk.threads.Distinct MailThread.replyToken := by
  have honly : ∀ k t, sampleDesk.threads.lookup k = some t → k = 1 := by
    intro k t hk
    by_contra hne
    rw [sampleDesk, AList.lookup_insert_ne hne] at hk
    cases hk
  intro k k' t t' hk hk' _
  rw [honly k t hk, honly k' t' hk']

end BankDemo.Mail
