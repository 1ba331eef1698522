import BankDemo.Foundations.Interleave
import BankDemo.Support.Service

/-!
# The unread threads of the support chat

A thread is created with the flag `unreadForAdmins` set, a message of a customer or a guest sets it,
and the staff clears it by an answer or by opening the thread. So the flag says whether a message
waits for the staff as soon as there has been one, or the staff has opened the thread
(`unread_iff_awaits`); before that it is set, and nothing waits (`new_thread_unread`).
-/

namespace BankDemo.Support

open Prog

/-! ## What a call does to the threads -/

/-- The flag of a thread. -/
def flag (s : State) (threadId : Uuid) : Option Bool :=
  (s.threads.lookup threadId).map SupportThread.unreadForAdmins

/-- A step that writes no thread and no message. -/
def Quiet (s s' : State) : Prop := s'.threads = s.threads ∧ s'.messages = s.messages

/-- What a call does to the flags of the threads and to the messages. -/
inductive Wrote (c : Call) (s s' : State) : Prop
  /-- Nothing, and nothing is opened by the staff. -/
  | idle (hflag : ∀ t, flag s' t = flag s t)
      (hmessages : ∀ id, s.messages.lookup id = none → s'.messages.lookup id = none)
      (hc : ∀ t, c = .listAdminMessages t → flag s t = none)
  /-- A new thread. -/
  | opened {id : Uuid} (hnew : flag s id = none)
      (hflag : ∀ t, flag s' t = if t = id then some true else flag s t)
      (hmessages : s'.messages = s.messages) (hc : ∀ t, c ≠ .listAdminMessages t)
  /-- A new message. -/
  | posted {id : Uuid} {m : SupportMessage} (hnew : s.messages.lookup id = none)
      (hmessages : s'.messages = s.messages.insert id m)
      (hthread : (flag s m.threadId).isSome = true)
      (hflag : ∀ t, flag s' t =
        if t = m.threadId then some (decide (m.senderRole ≠ .admin)) else flag s t)
      (hc : ∀ t, c ≠ .listAdminMessages t)
  /-- A thread is opened by the staff. -/
  | read {threadId : Uuid} (hc : c = .listAdminMessages threadId)
      (hthread : (flag s threadId).isSome = true)
      (hflag : ∀ t, flag s' t = if t = threadId then some false else flag s t)
      (hmessages : s'.messages = s.messages)

section Programs

variable {α β : Type} {env : Env} {c : Call} {s s₁ s' : State}

theorem Quiet.flag (h : Quiet s s') (t : Uuid) : flag s' t = Support.flag s t := by
  rw [Support.flag, h.1, Support.flag]

theorem Quiet.trans_wrote (h : Quiet s s₁) (hw : Wrote c s₁ s') : Wrote c s s' := by
  cases hw with
  | idle hflag hmessages hc =>
    exact .idle (fun t => (hflag t).trans (h.flag t)) (fun id hid => hmessages id (by rwa [h.2]))
      fun t ht => (h.flag t).symm.trans (hc t ht)
  | opened hnew hflag hmessages hc =>
    exact .opened ((h.flag _).symm.trans hnew) (fun t => by rw [hflag, h.flag])
      (hmessages.trans h.2) hc
  | posted hnew hmessages hthread hflag hc =>
    exact .posted (by rwa [h.2] at hnew) (by rw [hmessages, h.2]) (by rwa [h.flag] at hthread)
      (fun t => by rw [hflag, h.flag]) hc
  | read hc hthread hflag hmessages =>
    exact .read hc (by rwa [h.flag] at hthread) (fun t => by rw [hflag, h.flag])
      (hmessages.trans h.2)

theorem Wrote.trans_quiet (hw : Wrote c s s₁) (h : Quiet s₁ s') : Wrote c s s' := by
  cases hw with
  | idle hflag hmessages hc =>
    exact .idle (fun t => (h.flag t).trans (hflag t))
      (fun id hid => by rw [h.2, hmessages id hid]) hc
  | opened hnew hflag hmessages hc =>
    exact .opened hnew (fun t => (h.flag t).trans (hflag t)) (h.2.trans hmessages) hc
  | posted hnew hmessages hthread hflag hc =>
    exact .posted hnew (h.2.trans hmessages) hthread (fun t => (h.flag t).trans (hflag t)) hc
  | read hc hthread hflag hmessages =>
    exact .read hc hthread (fun t => (h.flag t).trans (hflag t)) (h.2.trans hmessages)

theorem quiet_refl (s : State) : Quiet s s := ⟨rfl, rfl⟩

theorem quiet_emit (event : Event) : (emit event).Each Quiet := each_modify fun _ => ⟨rfl, rfl⟩

theorem quiet_emitMessageCreated (threadId : Uuid) (thread : SupportThread) (messageId : Uuid)
    (message : SupportMessage) :
    (emitMessageCreated threadId thread messageId message).Each Quiet := by
  refine each_bind (quiet_emit _) fun _ => ?_
  split
  · exact quiet_emit _
  · exact each_pure _

/-- What follows a write and writes nothing. -/
theorem ensures_quiet {p : Handler α} (hp : p.Each Quiet) (hw : Wrote c s s₁) :
    p.Ensures s₁ fun _ s' => Wrote c s s' :=
  hw.trans_quiet (hp.run quiet_refl (fun h h' => ⟨h'.1.trans h.1, h'.2.trans h.2⟩) s₁)

/-! ### Statements -/

theorem flag_insert (id t : Uuid) (thread : SupportThread) :
    flag { s with threads := s.threads.insert id thread } t =
      if t = id then some thread.unreadForAdmins else flag s t := by
  unfold flag
  dsimp only
  rw [Table.lookup_insert_ite]
  split <;> rfl

theorem flag_eq_none {t : Uuid} : flag s t = none ↔ s.threads.lookup t = none := by
  rw [flag, Option.map_eq_none_iff]

variable (hc : ∀ t, c ≠ .listAdminMessages t)

include hc

theorem wrote_idle : Wrote c s s := .idle (fun _ => rfl) (fun _ h => h) fun t ht => (hc t ht).elim

/-- A new thread. -/
theorem createThread_ensures {id : Uuid} {thread : SupportThread} {k : Unit → Handler α}
    (hunread : thread.unreadForAdmins = true) (hk : (k ()).Each Quiet) :
    (transaction (createThread id thread) >>= k).Ensures s fun _ s' => Wrote c s s' := by
  refine ensures_bind (ensures_attempt (fun a s₁ h => ?_) fun e _ => wrote_idle hc)
  obtain ⟨hnew, hs₁⟩ := createThread_eq_ok h
  dsimp only at hs₁
  subst hs₁
  refine ensures_quiet hk (.opened (flag_eq_none.2 hnew) (fun t => ?_) rfl hc)
  rw [flag_insert, hunread]

/-- A change of a thread that is not one of its flag. -/
theorem updateThread_ensures {id : Uuid} {f : SupportThread → SupportThread}
    {k : SupportThread → Handler α} (hf : ∀ t, (f t).unreadForAdmins = t.unreadForAdmins)
    (hk : ∀ t, (k t).Each Quiet) :
    (transaction (updateThread id f) >>= k).Ensures s fun _ s' => Wrote c s s' := by
  refine ensures_bind (ensures_attempt (fun a s₁ h => ?_) fun e _ => wrote_idle hc)
  obtain ⟨thread, hthread, hs₁⟩ := updateThread_eq_ok h
  dsimp only at hs₁
  subst hs₁
  refine ensures_quiet (hk a) (.idle (fun t => ?_) (fun _ h => h) fun t ht => (hc t ht).elim)
  rw [flag_insert, hf]
  split
  · rename_i ht
    rw [ht, flag, hthread]
    rfl
  · rfl

/-- A new message. -/
theorem post_ensures {id : Uuid} {m : SupportMessage} {f : SupportThread → SupportThread}
    {k : Unit → Handler α} (hf : ∀ t, (f t).unreadForAdmins = decide (m.senderRole ≠ .admin))
    (hk : (k ()).Each Quiet) :
    (transaction (post id m f) >>= k).Ensures s fun _ s' => Wrote c s s' := by
  refine ensures_bind (ensures_attempt (fun a s₁ h => ?_) fun e _ => wrote_idle hc)
  obtain ⟨_, s₂, hmessage, h⟩ := body_bind_ok.1 h
  obtain ⟨_, s₃, hupdate, h⟩ := body_bind_ok.1 h
  cases body_pure_ok.1 h
  obtain ⟨hnew, hs₂⟩ := createMessage_eq_ok hmessage
  dsimp only at hs₂
  subst hs₂
  obtain ⟨thread, hthread, hs₃⟩ := updateThread_eq_ok hupdate
  dsimp only at hs₃ hthread
  subst hs₃
  refine ensures_quiet hk (.posted hnew rfl ?_ (fun t => ?_) hc)
  · rw [flag, hthread]
    rfl
  · rw [← hf thread]
    exact flag_insert m.threadId t (f thread)

omit hc

/-! ### Handlers -/

/-- What follows the first message of a thread, or a later one. -/
theorem quiet_announced {threadId id : Uuid} {thread : SupportThread} {message : SupportMessage}
    {first : Prop} [Decidable first] {e : Event} {a : α} :
    (do
      emitMessageCreated threadId thread id message
      if first then emit e
      return a : Handler α).Each Quiet := by
  refine each_bind (quiet_emitMessageCreated _ _ _ _) fun _ => ?_
  split
  · exact each_bind (quiet_emit _) fun _ => each_pure _
  · exact each_pure _

theorem createAttachmentMessage_ensures (hc : ∀ t, c ≠ .listAdminMessages t) {now : Instant}
    {messageId threadId senderId : Uuid} {thread : SupportThread} {senderRole : SupportSenderRole}
    {caption : String} {a : ProcessedAttachment} {unreadForAdmins : Bool}
    (hunread : unreadForAdmins = decide (senderRole ≠ .admin)) :
    (createAttachmentMessage now messageId threadId thread senderRole senderId caption a
      unreadForAdmins).Ensures s fun _ s' => Wrote c s s' :=
  post_ensures hc (fun _ => hunread)
    (each_bind (quiet_emitMessageCreated _ _ _ _) fun _ => each_pure _)

/-- The attachment is stored, and then its message is made. -/
theorem processAttachment_ensures (hc : ∀ t, c ≠ .listAdminMessages t) {objectId threadId : Uuid}
    {file : IncomingFile} {k : ProcessedAttachment → Handler α}
    (hk : ∀ a s₁, (k a).Ensures s₁ fun _ s' => Wrote c s₁ s') :
    (processAttachment env objectId threadId file >>= k).Ensures s fun _ s' => Wrote c s s' := by
  refine ensures_bind (ensures_lift_bind (fun r _ => ?_) fun e _ => wrote_idle hc)
  have hquiet : Quiet s { s with objects := s.objects ++ [r.1] } := ⟨rfl, rfl⟩
  refine ensures_bind (ensures_modify (ensures_pure ?_))
  exact (hk r.2 _).imp fun _ s' hw => hquiet.trans_wrote hw

theorem openOrGetCustomerThread_wrote (now : Instant) (id userId : Uuid) :
    (openOrGetCustomerThread now id userId).Ensures s fun _ s' =>
      Wrote (.openOrGetCustomerThread now id userId) s s' := by
  refine ensures_read_bind ?_
  split
  · exact wrote_idle (by simp)
  · exact createThread_ensures (by simp) rfl (each_pure _)

theorem openGuestThread_wrote (now : Instant) (id guestId : Uuid) (name email : String) :
    (openGuestThread now id guestId name email).Ensures s fun _ s' =>
      Wrote (.openGuestThread now id guestId name email) s s' :=
  createThread_ensures (by simp) rfl (each_pure _)

theorem postCustomerMessage_wrote (now : Instant) (id userId threadId : Uuid) (body : String) :
    (postCustomerMessage now id userId threadId body).Ensures s fun _ s' =>
      Wrote (.postCustomerMessage now id userId threadId body) s s' := by
  unfold postCustomerMessage
  dsimp only
  split
  · exact wrote_idle (by simp)
  · refine ensures_read_bind ?_
    split
    · exact wrote_idle (by simp)
    · split
      · exact wrote_idle (by simp)
      · exact ensures_read_bind (post_ensures (by simp) (fun _ => rfl) quiet_announced)

theorem postCustomerAttachment_wrote (now : Instant) (id objectId userId threadId : Uuid)
    (caption : String) (file : IncomingFile) :
    (postCustomerAttachment env now id objectId userId threadId caption file).Ensures s
      fun _ s' =>
        Wrote (.postCustomerAttachment now id objectId userId threadId caption file) s s' := by
  refine ensures_read_bind ?_
  split
  · exact wrote_idle (by simp)
  · split
    · exact wrote_idle (by simp)
    · exact processAttachment_ensures (by simp) fun a s₁ =>
        createAttachmentMessage_ensures (by simp) rfl

theorem postGuestMessage_wrote (now : Instant) (id threadId : Uuid) (body : String) :
    (postGuestMessage now id threadId body).Ensures s fun _ s' =>
      Wrote (.postGuestMessage now id threadId body) s s' := by
  unfold postGuestMessage
  dsimp only
  split
  · exact wrote_idle (by simp)
  · refine ensures_bind (ensures_read_bind ?_)
    split
    · exact wrote_idle (by simp)
    · refine ensures_pure ?_
      dsimp only
      split
      · exact wrote_idle (by simp)
      · exact ensures_read_bind (post_ensures (by simp) (fun _ => rfl) quiet_announced)

theorem postAdminMessage_wrote (now : Instant) (id adminUserId threadId : Uuid) (body : String) :
    (postAdminMessage now id adminUserId threadId body).Ensures s fun _ s' =>
      Wrote (.postAdminMessage now id adminUserId threadId body) s s' := by
  unfold postAdminMessage
  dsimp only
  split
  · exact wrote_idle (by simp)
  · refine ensures_read_bind ?_
    split
    · exact wrote_idle (by simp)
    · exact post_ensures (by simp) (fun _ => rfl)
        (each_bind (quiet_emitMessageCreated _ _ _ _) fun _ => each_pure _)

theorem postAdminAttachment_wrote (now : Instant) (id objectId adminUserId threadId : Uuid)
    (caption : String) (file : IncomingFile) :
    (postAdminAttachment env now id objectId adminUserId threadId caption file).Ensures s
      fun _ s' =>
        Wrote (.postAdminAttachment now id objectId adminUserId threadId caption file) s s' := by
  refine ensures_read_bind ?_
  split
  · exact wrote_idle (by simp)
  · split
    · exact wrote_idle (by simp)
    · exact processAttachment_ensures (by simp) fun a s₁ =>
        createAttachmentMessage_ensures (by simp) rfl

theorem markAdminMessagesRead_wrote (now : Instant) (userId threadId : Uuid) :
    (markAdminMessagesRead now userId threadId).Ensures s fun _ s' =>
      Wrote (.markAdminMessagesRead now userId threadId) s s' := by
  refine ensures_read_bind ?_
  split
  · exact wrote_idle (by simp)
  · refine ensures_read_bind ?_
    split
    · exact wrote_idle (by simp)
    · refine ensures_bind (ensures_attempt (fun a s₁ h => ?_) fun e _ => wrote_idle (by simp))
      cases h
      refine ensures_quiet (each_bind (quiet_emit _) fun _ => each_pure _)
        (.idle (fun _ => rfl) (fun id hid => ?_) (by simp))
      dsimp only
      rw [Table.lookup_updateMany, hid]
      rfl

/-- The staff opens a thread. -/
theorem listAdminMessages_wrote (threadId : Uuid) :
    (listAdminMessages threadId).Ensures s fun _ s' =>
      Wrote (.listAdminMessages threadId) s s' := by
  refine ensures_read_bind ?_
  cases hthread : s.threads.lookup threadId with
  | none =>
    refine .idle (fun _ => rfl) (fun _ h => h) fun t ht => ?_
    obtain rfl := Call.listAdminMessages.inj ht
    exact flag_eq_none.2 hthread
  | some thread =>
    have hsome : (flag s threadId).isSome = true := by
      rw [flag, hthread]
      rfl
    dsimp only
    split
    · refine ensures_bind (ensures_attempt (fun a s₁ h => ?_) fun e h => ?_)
      · obtain ⟨old, hold, hs₁⟩ := updateThread_eq_ok h
        dsimp only at hs₁
        subst hs₁
        refine ensures_quiet (each_bind (quiet_emit _) fun _ => each_read _ quiet_refl)
          (.read rfl hsome (fun t => ?_) rfl)
        rw [flag_insert]
      · rw [updateThread, hthread] at h
        cases h
    · rename_i hread
      refine ensures_quiet (each_read _ quiet_refl) (.read rfl hsome (fun t => ?_) rfl)
      split
      · rename_i ht
        rw [ht, flag, hthread, Option.map_some, Bool.eq_false_of_not_eq_true hread]
      · rfl

/-- **What every call does** to the flags and the messages. -/
theorem handle_wrote (env : Env) (c : Call) (s : State) :
    (handle env c).Ensures s fun _ s' => Wrote c s s' := by
  cases c with
  | openOrGetCustomerThread now id userId =>
    exact ensures_discard (openOrGetCustomerThread_wrote now id userId)
  | openGuestThread now id guestId name email =>
    exact ensures_discard (openGuestThread_wrote now id guestId name email)
  | postCustomerMessage now id userId threadId body =>
    exact ensures_discard (postCustomerMessage_wrote now id userId threadId body)
  | postCustomerAttachment now id objectId userId threadId caption file =>
    exact ensures_discard
      (postCustomerAttachment_wrote now id objectId userId threadId caption file)
  | markAdminMessagesRead now userId threadId =>
    exact ensures_discard (markAdminMessagesRead_wrote now userId threadId)
  | postGuestMessage now id threadId body =>
    exact ensures_discard (postGuestMessage_wrote now id threadId body)
  | listAdminMessages threadId => exact ensures_discard (listAdminMessages_wrote threadId)
  | postAdminMessage now id adminUserId threadId body =>
    exact ensures_discard (postAdminMessage_wrote now id adminUserId threadId body)
  | postAdminAttachment now id objectId adminUserId threadId caption file =>
    exact ensures_discard
      (postAdminAttachment_wrote now id objectId adminUserId threadId caption file)
  | closeThread now threadId closedByUserId =>
    exact ensures_discard (updateThread_ensures (by simp) (fun _ => rfl) fun _ =>
      each_bind (quiet_emit _) fun _ => each_pure _)
  | reopenThread threadId =>
    exact updateThread_ensures (by simp) (fun _ => rfl) fun _ => each_pure _

end Programs

/-! ## Messages that wait -/

/-- The call puts a message into the thread. -/
def Puts (threadId : Uuid) (x : Step State Call) (m : SupportMessage) : Prop :=
  ∃ id, x.pre.messages.lookup id = none ∧ x.post.messages.lookup id = some m ∧
    m.threadId = threadId

/-- A customer or a guest writes. -/
def Asks (threadId : Uuid) (x : Step State Call) : Prop :=
  ∃ m, Puts threadId x m ∧ m.senderRole ≠ .admin

/-- The staff writes. -/
def Answers (threadId : Uuid) (x : Step State Call) : Prop :=
  ∃ m, Puts threadId x m ∧ m.senderRole = .admin

/-- The staff opens the thread. -/
def Opens (threadId : Uuid) (x : Step State Call) : Prop :=
  x.call = .listAdminMessages threadId ∧ (x.pre.threads.lookup threadId).isSome = true

/-- There is a message of a customer or a guest later than the last message of the staff and the
last time that the staff opened the thread. -/
def Awaits (threadId : Uuid) (tr : List (Step State Call)) : Prop :=
  ∃ late x early, tr = late ++ x :: early ∧ Asks threadId x ∧
    ∀ y ∈ late, ¬ Answers threadId y ∧ ¬ Opens threadId y

/-- Somebody has written in the thread, or the staff has opened it. -/
def Touched (threadId : Uuid) (tr : List (Step State Call)) : Prop :=
  ∃ x ∈ tr, Asks threadId x ∨ Answers threadId x ∨ Opens threadId x

section Turns

variable {t : Uuid} {x : Step State Call} {tr : List (Step State Call)}

/-- What a call does to one thread. -/
inductive Turn (t : Uuid) (x : Step State Call) : Prop
  | other (hflag : flag x.post t = flag x.pre t) (hasks : ¬ Asks t x) (hanswers : ¬ Answers t x)
      (hopens : ¬ Opens t x)
  | created (hnew : flag x.pre t = none) (hflag : flag x.post t = some true) (hasks : ¬ Asks t x)
      (hanswers : ¬ Answers t x) (hopens : ¬ Opens t x)
  | asked (hflag : flag x.post t = some true) (hasks : Asks t x) (hanswers : ¬ Answers t x)
      (hopens : ¬ Opens t x)
  | cleared (hflag : flag x.post t = some false) (hasks : ¬ Asks t x)
      (hstaff : Answers t x ∨ Opens t x)

theorem not_puts_of_old (hold : ∀ id, x.pre.messages.lookup id = none →
    x.post.messages.lookup id = none) {m : SupportMessage} : ¬ Puts t x m := by
  rintro ⟨id, hnone, hsome, -⟩
  rw [hold id hnone] at hsome
  cases hsome

/-- The message that a call puts is the new one. -/
theorem puts_insert {id : Uuid} {m m' : SupportMessage} (hnew : x.pre.messages.lookup id = none)
    (hmessages : x.post.messages = x.pre.messages.insert id m) :
    Puts t x m' ↔ m' = m ∧ m.threadId = t := by
  constructor
  · rintro ⟨id', hnone, hsome, hthread⟩
    rw [hmessages, Table.lookup_insert_ite] at hsome
    split at hsome
    · obtain rfl := Option.some.inj hsome
      exact ⟨rfl, hthread⟩
    · rw [hnone] at hsome
      cases hsome
  · rintro ⟨rfl, hthread⟩
    exact ⟨id, hnew, by rw [hmessages, AList.lookup_insert], hthread⟩

theorem not_opens (hc : ∀ t, x.call ≠ .listAdminMessages t) : ¬ Opens t x := fun h => hc t h.1

theorem Wrote.turn (h : Wrote x.call x.pre x.post) (t : Uuid) : Turn t x := by
  cases h with
  | idle hflag hmessages hc =>
    refine .other (hflag t) (fun ⟨m, hputs, _⟩ => not_puts_of_old hmessages hputs)
      (fun ⟨m, hputs, _⟩ => not_puts_of_old hmessages hputs) ?_
    rintro ⟨hcall, hsome⟩
    rw [flag_eq_none.1 (hc t hcall)] at hsome
    cases hsome
  | @opened id hnew hflag hmessages hc =>
    have hold : ∀ id, x.pre.messages.lookup id = none → x.post.messages.lookup id = none :=
      fun id hnone => by rw [hmessages, hnone]
    have hasks : ¬ Asks t x := fun ⟨m, hputs, _⟩ => not_puts_of_old hold hputs
    have hanswers : ¬ Answers t x := fun ⟨m, hputs, _⟩ => not_puts_of_old hold hputs
    by_cases ht : t = id
    · exact .created (ht ▸ hnew) (by rw [hflag, if_pos ht]) hasks hanswers (not_opens hc)
    · exact .other (by rw [hflag, if_neg ht]) hasks hanswers (not_opens hc)
  | @posted id m hnew hmessages hthread hflag hc =>
    by_cases ht : t = m.threadId
    · have hputs : Puts t x m := (puts_insert hnew hmessages).2 ⟨rfl, ht.symm⟩
      by_cases hrole : m.senderRole = .admin
      · refine .cleared (by rw [hflag, if_pos ht, hrole]; rfl) ?_ (.inl ⟨m, hputs, hrole⟩)
        rintro ⟨m', hputs', hrole'⟩
        rw [((puts_insert hnew hmessages).1 hputs').1] at hrole'
        exact hrole' hrole
      · refine .asked (by rw [hflag, if_pos ht, decide_eq_true hrole]) ⟨m, hputs, hrole⟩ ?_
          (not_opens hc)
        rintro ⟨m', hputs', hrole'⟩
        rw [((puts_insert hnew hmessages).1 hputs').1] at hrole'
        exact hrole hrole'
    · have hnone : ∀ m', ¬ Puts t x m' := fun m' hputs =>
        ht ((puts_insert hnew hmessages).1 hputs).2.symm
      exact .other (by rw [hflag, if_neg ht]) (fun ⟨m', hputs, _⟩ => hnone m' hputs)
        (fun ⟨m', hputs, _⟩ => hnone m' hputs) (not_opens hc)
  | @read id hc hthread hflag hmessages =>
    have hold : ∀ id, x.pre.messages.lookup id = none → x.post.messages.lookup id = none :=
      fun id hnone => by rw [hmessages, hnone]
    have hasks : ¬ Asks t x := fun ⟨m, hputs, _⟩ => not_puts_of_old hold hputs
    by_cases ht : t = id
    · subst ht
      refine .cleared (by rw [hflag, if_pos rfl]) hasks (.inr ⟨hc, ?_⟩)
      rwa [flag, Option.isSome_map] at hthread
    · refine .other (by rw [hflag, if_neg ht]) hasks
        (fun ⟨m, hputs, _⟩ => not_puts_of_old hold hputs) ?_
      rintro ⟨hcall, -⟩
      exact ht (Call.listAdminMessages.inj (hcall.symm.trans hc))

/-! ### One more step -/

theorem touched_cons :
    Touched t (x :: tr) ↔ (Asks t x ∨ Answers t x ∨ Opens t x) ∨ Touched t tr := by
  simp [Touched]

theorem awaits_cons :
    Awaits t (x :: tr) ↔ Asks t x ∨ (¬ Answers t x ∧ ¬ Opens t x ∧ Awaits t tr) := by
  constructor
  · rintro ⟨late, y, early, heq, hasks, hlate⟩
    cases late with
    | nil =>
      obtain ⟨rfl, rfl⟩ := List.cons.inj heq
      exact .inl hasks
    | cons z late =>
      obtain ⟨rfl, rfl⟩ := List.cons.inj heq
      have hx := hlate x List.mem_cons_self
      exact .inr ⟨hx.1, hx.2, late, y, early, rfl, hasks,
        fun w hw => hlate w (List.mem_cons_of_mem _ hw)⟩
  · rintro (hasks | ⟨hanswers, hopens, late, y, early, rfl, hasks, hlate⟩)
    · exact ⟨[], x, tr, rfl, hasks, by simp⟩
    · refine ⟨x :: late, y, early, rfl, hasks, fun w hw => ?_⟩
      rcases List.mem_cons.1 hw with rfl | hw
      · exact ⟨hanswers, hopens⟩
      · exact hlate w hw

theorem Awaits.touched (h : Awaits t tr) : Touched t tr := by
  obtain ⟨late, x, early, rfl, hasks, -⟩ := h
  exact ⟨x, by simp, .inl hasks⟩

/-- What the flag of a thread says of its past. -/
def Tells (t : Uuid) (tr : List (Step State Call)) : Option Bool → Prop
  | none => ¬ Touched t tr
  | some b => (Touched t tr → (b = true ↔ Awaits t tr)) ∧ (¬ Touched t tr → b = true)

theorem Turn.tells (h : Turn t x) (hpre : Tells t tr (flag x.pre t)) :
    Tells t (x :: tr) (flag x.post t) := by
  cases h with
  | other hflag hasks hanswers hopens =>
    have htouched : Touched t (x :: tr) ↔ Touched t tr := by
      rw [touched_cons]
      simp [hasks, hanswers, hopens]
    have hawaits : Awaits t (x :: tr) ↔ Awaits t tr := by
      rw [awaits_cons]
      simp [hasks, hanswers, hopens]
    rw [hflag]
    cases hf : flag x.pre t with
    | none =>
      rw [hf] at hpre
      exact fun h => hpre (htouched.1 h)
    | some b =>
      rw [hf] at hpre
      exact ⟨fun h => (hpre.1 (htouched.1 h)).trans hawaits.symm,
        fun h => hpre.2 fun h' => h (htouched.2 h')⟩
  | created hnew hflag hasks hanswers hopens =>
    have huntouched : ¬ Touched t (x :: tr) := by
      rw [hnew] at hpre
      rw [touched_cons]
      simp only [hasks, hanswers, hopens, false_or]
      exact hpre
    rw [hflag]
    exact ⟨fun h => absurd h huntouched, fun _ => rfl⟩
  | asked hflag hasks =>
    have hawaits : Awaits t (x :: tr) := awaits_cons.2 (.inl hasks)
    rw [hflag]
    exact ⟨fun _ => ⟨fun _ => hawaits, fun _ => rfl⟩, fun _ => rfl⟩
  | cleared hflag hasks hstaff =>
    have htouched : Touched t (x :: tr) := touched_cons.2 (.inl (.inr hstaff))
    have hnot : ¬ Awaits t (x :: tr) := by
      rw [awaits_cons]
      rintro (h | ⟨hanswers, hopens, -⟩)
      · exact hasks h
      · exact hstaff.elim hanswers hopens
    rw [hflag]
    exact ⟨fun _ => ⟨fun h => (by cases h), fun h => absurd h hnot⟩, fun h => absurd htouched h⟩

end Turns

section Runs

variable {env : Env} {s₀ s : State} {tr : List (Step State Call)}

theorem tells_of_serial (hthreads : s₀.threads = ∅) (hseq : Serial (handle env) s₀ tr s) (t : Uuid) :
    Tells t tr (flag s t) := by
  induction hseq with
  | start =>
    rw [flag, hthreads]
    rintro ⟨x, hx, -⟩
    cases hx
  | @call tr s c seq ih =>
    have hwrote : Wrote c s ((handle env c).run s).2 := handle_wrote env c s
    exact (Wrote.turn (x := ⟨0, c, s, ((handle env c).run s).2⟩) hwrote t).tells ih

/-- **The flag tells what waits once the thread is touched**: after any sequence of calls, the flag
of a thread is set exactly when a message of a customer or a guest waits for the staff, if and only
if somebody has written in the thread or the staff has opened it. -/
theorem unread_iff_awaits (env : Env) (s₀ s : State) (tr : List (Step State Call))
    (hthreads : s₀.threads = ∅) (hseq : Serial (handle env) s₀ tr s) (threadId : Uuid)
    (thread : SupportThread) (hthread : s.threads.lookup threadId = some thread) :
    (thread.unreadForAdmins = true ↔ Awaits threadId tr) ↔ Touched threadId tr := by
  have htells := tells_of_serial hthreads hseq threadId
  rw [flag, hthread] at htells
  refine ⟨fun haccurate => ?_, htells.1⟩
  by_contra huntouched
  exact huntouched (haccurate.1 (htells.2 huntouched)).touched

end Runs

/-! ## A new thread -/

/-- The settings, without an image library. -/
def sampleEnv : Env where
  maxBytes := 10 * 1024 * 1024
  toLowerCase s := String.ofList (s.toList.map Char.toLower)
  metadata _ := none
  png _ := none
  jpeg _ := none

def emptyState : State := ⟨∅, ∅, [], []⟩

/-- The run of calls from the empty chat. -/
def sampleChat (cs : List Call) : List (Step State Call) × State :=
  serially (handle sampleEnv) emptyState cs

/-- A customer writes in a new thread, the staff opens it, and a guest opens another one. -/
def sampleCalls : List Call :=
  [.openOrGetCustomerThread 0 1 7, .postCustomerMessage 10 101 7 1 " Hello ", .listAdminMessages 1,
    .openGuestThread 20 2 90 "Guest" "guest@example.com"]

/-- The thread of the customer, after them. -/
def sampleThread : SupportThread := {
  userId := some 7
  status := .opened
  lastMessageAt := some 10
  unreadForAdmins := false
  createdAt := 0 }

theorem unread_iff_awaits_sample :
    (false = true ↔ Awaits 1 (sampleChat sampleCalls).1) ∧
    (sampleChat sampleCalls).2.threads.lookup 1 =
      some sampleThread := by
  have hthread : (sampleChat sampleCalls).2.threads.lookup 1 =
      some sampleThread := by
    decide +kernel
  have hopened : ∃ x ∈ (sampleChat sampleCalls).1, x.call = .listAdminMessages 1 ∧
      (x.pre.threads.lookup 1).isSome = true := by
    decide +kernel
  obtain ⟨x, hx, hopens⟩ := hopened
  exact ⟨(unread_iff_awaits sampleEnv emptyState _ _ rfl (serially_serial _ sampleCalls) 1 _
    hthread).2 ⟨x, hx, .inr (.inr hopens)⟩, hthread⟩

/-- A thread in which nobody has written is unread. -/
theorem new_thread_unread : ¬ ∀ (env : Env) (s₀ s : State) (tr : List (Step State Call)),
    s₀.threads = ∅ → Serial (handle env) s₀ tr s → ∀ threadId thread,
      s.threads.lookup threadId = some thread →
        (thread.unreadForAdmins = true ↔ Awaits threadId tr) := by
  intro h
  have hthread : (sampleChat [.openOrGetCustomerThread 0 1 7]).2.threads.lookup 1 =
      some { userId := some 7, status := .opened, createdAt := 0 } := by
    decide +kernel
  have hawaits := (h sampleEnv emptyState _ _ rfl (serially_serial _ _) 1 _ hthread).1 rfl
  have hsteps : ∀ x ∈ (sampleChat [.openOrGetCustomerThread 0 1 7]).1,
      x.post.messages.entries = [] ∧ x.call ≠ .listAdminMessages 1 := by
    decide +kernel
  have hputs : ∀ x ∈ (sampleChat [.openOrGetCustomerThread 0 1 7]).1, ∀ m, ¬ Puts 1 x m := by
    rintro x hx m ⟨id, -, hid, -⟩
    rw [show x.post.messages = ∅ from AList.ext (hsteps x hx).1] at hid
    cases hid
  obtain ⟨x, hx, ⟨m, hm, -⟩ | ⟨m, hm, -⟩ | hopens⟩ := hawaits.touched
  · exact hputs x hx m hm
  · exact hputs x hx m hm
  · exact (hsteps x hx).2 hopens.1

end BankDemo.Support
