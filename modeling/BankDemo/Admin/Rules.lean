import BankDemo.Admin.Desk

/-!
# What the operations do to the queues

Whatever moves a transfer into the review queue or out of it emits exactly its change, so the badge
of the reviews is as far behind after an operation as before (`Level`). A deletion that goes through
found none of the rows that are in its way (`Restricted`).
-/

namespace BankDemo.Admin

open Ledger Transfers

/-! ## The review queue -/

/-- How far the badge of the reviews is behind the queue. -/
def reviewLag (w : World) : ℤ := reviewPending w.db - reviewBadge w.events

/-- Run alone from `w`, the service leaves the badge of the reviews as far behind as it was. -/
def Level {α : Type} (p : Service α) (w : World) : Prop :=
  p.Ensures w fun _ w' => reviewLag w' = reviewLag w

/-- No action of the service changes how far the badge of the reviews is behind. -/
def Steady {α : Type} (p : Service α) : Prop := p.Each fun w w' => reviewLag w' = reviewLag w

theorem reviewLag_emit (w : World) (e : Event) :
    reviewLag { w with events := w.events ++ [e] } = reviewLag w - reviewDelta e := by
  simp only [reviewLag, reviewBadge, List.map_append, List.map_cons, List.map_nil, List.sum_append,
    List.sum_cons, List.sum_nil]
  ring

theorem reviewLag_db (w : World) (db : Db) :
    reviewLag { w with db } = reviewLag w + (reviewPending db - reviewPending w.db) := by
  simp only [reviewLag]
  ring

section Steady

variable {α β : Type} {me : ℕ}

theorem Steady.level {p : Service α} (hp : Steady p) (w : World) : Level p w :=
  Prog.Each.run hp (fun _ => rfl) (fun h h' => h'.trans h) w

theorem steady_of_reads {p : Service α} (hp : Reads p) : Steady p :=
  Prog.Each.imp hp fun _ _ h => by rw [h]

theorem steady_pure (a : α) : Steady (pure a : Service α) := Prog.each_pure a

theorem steady_throw (e : Error) : Steady (throw e : Service α) := Prog.each_throw e

theorem steady_query (f : Db → α) : Steady (query f) := Prog.each_read _ fun _ => rfl

theorem steady_bind {p : Service α} {k : α → Service β} (hp : Steady p) (hk : ∀ a, Steady (k a)) :
    Steady (p >>= k) :=
  Prog.each_bind hp hk

theorem steady_tryCatch {p : Service α} {k : Error → Service α} (hp : Steady p)
    (hk : ∀ e, Steady (k e)) : Steady (tryCatch p k) :=
  Prog.each_tryCatch hp hk

theorem steady_onQueue (f : Table Uuid Job → Table Uuid Job) : Steady (onQueue f) :=
  Prog.each_modify fun _ => rfl

theorem steady_emit {e : Event} (he : reviewDelta e = 0) : Steady (emit e) :=
  Prog.each_modify fun w => by rw [reviewLag_emit, he, sub_zero]

theorem steady_transaction {rows : List Uuid} {body : Tx α}
    (hbody : ∀ db r, body db = .ok r → reviewPending r.2 = reviewPending db) :
    Steady (transaction me rows body) := by
  refine transaction_each (fun _ => rfl) fun w r hr => ?_
  have hpending := hbody w.db r hr
  simp only [reviewLag_db]
  omega

/-! The settlement and the reversal leave the columns of the review as they are. -/

theorem steady_emitBalance (a : Uuid) : Steady (emitBalance a) := by
  refine steady_bind (steady_query _) fun account => ?_
  cases account with
  | none => exact steady_pure ()
  | some a => exact steady_emit rfl

theorem steady_announceReceived (c : ProcessCall) (t : Transfer) :
    Steady (announceReceived c t) := by
  unfold announceReceived
  cases destination t with
  | none => exact steady_pure ()
  | some a =>
    refine steady_bind (steady_query _) fun recipient => ?_
    cases recipient with
    | none => exact steady_pure ()
    | some r =>
      refine steady_bind (steady_emit rfl) fun _ => steady_bind (steady_emit rfl) fun _ => ?_
      exact steady_emit rfl

theorem steady_announceSettled (c : ProcessCall) (t : Transfer) : Steady (announceSettled c t) :=
  steady_bind (steady_emitBalance _) fun _ => steady_bind (steady_emit rfl) fun _ =>
    steady_bind (steady_announceReceived c t) fun _ => steady_emit rfl

theorem steady_process (c : ProcessCall) : Steady (process me c) := by
  refine steady_bind (steady_query _) fun t => ?_
  cases t with
  | none => exact steady_pure ()
  | some t =>
    simp only
    split
    · refine steady_bind (steady_transaction fun db r hr => ?_) fun _ => steady_announceSettled c t
      exact (settleTx_ok hr).transfers.count_eq fun _ => rfl
    · exact steady_pure ()

theorem steady_forceSettle (c : ForceSettleCall) : Steady (forceSettle me c) := by
  refine steady_bind (steady_query _) fun t => ?_
  cases t with
  | none => exact steady_throw _
  | some t =>
    refine steady_bind ?_ fun _ => ?_
    · unfold reopen
      split
      · exact steady_pure ()
      · refine steady_transaction fun db r hr => ?_
        obtain ⟨row, hrow, hr'⟩ := Tx.updateTransfer_ok hr
        have hupdated : Table.Updated c.transferId resetToPending db.transfers r.2.transfers :=
          ⟨row, hrow, by rw [hr']⟩
        exact hupdated.count_eq fun _ => rfl
    · unfold settleAgain
      split
      · exact steady_onQueue _
      · exact steady_process _

theorem steady_announceClosed (c : DecideCall) (t : Transfer) : Steady (announceClosed c t) := by
  unfold announceClosed
  split
  · exact steady_emit rfl
  · exact steady_pure ()

theorem announceClosed_neverFails (c : DecideCall) (t : Transfer) :
    (announceClosed c t).NeverFails := by
  unfold announceClosed
  split
  · exact Prog.neverFails_modify
  · exact Prog.neverFails_pure ()

theorem steady_afterReverse (c : ReverseCall) (t : Transfer) : Steady (afterReverse c t) := by
  refine steady_bind (steady_query _) fun fresh => ?_
  cases fresh with
  | none => exact steady_pure ()
  | some a =>
    refine steady_bind (steady_emit rfl) fun _ => steady_bind (steady_emit rfl) fun _ => ?_
    cases t.pendingTransactionId with
    | none => exact steady_emit rfl
    | some id => exact steady_bind (steady_emit rfl) fun _ => steady_emit rfl

theorem steady_reverseWire (c : ReverseCall) : Steady (reverseWire me c) := by
  refine steady_bind (steady_query _) fun t => ?_
  cases t with
  | none => exact steady_throw _
  | some t =>
    simp only
    split
    · exact steady_throw _
    · split
      · exact steady_throw _
      · refine steady_bind (steady_transaction fun db r hr => ?_) fun _ => steady_afterReverse c t
        exact (reverseTx_ok hr).transfers.count_eq fun _ => rfl

end Steady

section Level

variable {α β : Type} {me : ℕ} {w : World}

theorem level_bind {p : Service α} {k : α → Service β} (hp : p.Ensures w fun r w' => match r with
      | .ok a => (k a).Ensures w' fun _ w'' => reviewLag w'' = reviewLag w
      | .error _ => reviewLag w' = reviewLag w) : Level (p >>= k) w := by
  refine Prog.ensures_bind (hp.imp fun r w' h => ?_)
  cases r with
  | ok a => exact h
  | error e => exact h

/-- A steady service, then another. -/
theorem Steady.level_bind {p : Service α} {k : α → Service β} (hp : Steady p)
    (hk : ∀ a w', reviewLag w' = reviewLag w → Level (k a) w') : Level (p >>= k) w := by
  refine Admin.level_bind (hp.level w |>.imp fun r w' hlag => ?_)
  cases r with
  | ok a => exact (hk a w' hlag).imp fun _ _ h => h.trans hlag
  | error e => exact hlag

/-- A steady service that does not fail, then another. -/
theorem Steady.ensures_bind {p : Service α} {k : α → Service β} {Q : Except Error β → World → Prop}
    (hp : Steady p) (hnever : p.NeverFails)
    (hk : ∀ a w', reviewLag w' = reviewLag w → (k a).Ensures w' Q) : (p >>= k).Ensures w Q := by
  refine Prog.ensures_bind ?_
  have hlag := hp.level w
  obtain ⟨a, ha⟩ := hnever.run w
  unfold Level Prog.Ensures at hlag
  unfold Prog.Ensures
  rw [ha]
  exact hk a _ hlag

/-- A debit that goes through adds the transfer to the queue, if it waits for a review. -/
theorem debitSender_ensures {c : InitiateCall} {t : Transfer} {fromAccount : Account}
    {toAccount : Option (Uuid × Account)} {fx : Option FxConversion} {description : String} :
    (debitSender me c t fromAccount toAccount fx description).Ensures w fun r w' => match r with
      | .ok t' => t' = t ∧ reviewLag w' = reviewLag w + if waiting t then 1 else 0
      | .error _ => reviewLag w' = reviewLag w := by
  refine ensures_withLock (ensures_query ?_)
  split
  · exact Prog.ensures_throw rfl
  · split
    · exact Prog.ensures_throw rfl
    · refine ensures_transaction (fun t' db hpending => ?_) fun _ _ => rfl
      obtain ⟨rfl, hinitiated⟩ := pendingTx_ok hpending
      obtain ⟨hnew, hdb⟩ := hinitiated.transfers
      have hcount := Table.count_insert_new hnew t' fun _ t => waiting t
      rw [← hdb] at hcount
      refine ⟨rfl, ?_⟩
      simp only [reviewLag, reviewPending, hcount]
      ring

/-- The hand-over tells the reviewers of a transfer that waits for them. -/
theorem afterDebit_ensures {env : Env} {c : InitiateCall} {t : Transfer} {fx : Option FxConversion}
    (ht : waiting t = t.requiresReview) :
    (afterDebit env c t fx).Ensures w fun _ w' =>
      reviewLag w' = reviewLag w - if waiting t then 1 else 0 := by
  refine ensures_emit ?_
  unfold handOver
  rw [ht]
  split
  · refine ensures_emit (Prog.ensures_pure ?_)
    rw [reviewLag_emit, reviewLag_emit]
    simp [reviewDelta]
  · have hlag : reviewLag { w with events := w.events ++ [.transactionCreated c.userId
        t.fromAccountId c.pendingTxId (-(t.amountCents + t.feeCents)) .pending] } =
        reviewLag w := by
      rw [reviewLag_emit]
      simp [reviewDelta]
    rw [sub_zero, ← hlag]
    split
    · exact (steady_bind (steady_onQueue _) fun _ => steady_pure _).level _
    · exact (steady_pure _).level _

theorem initiatePriced_level {env : Env} {c : InitiateCall} {s fee : ℤ} {fx : Option FxConversion} :
    Level (initiatePriced env me c s fx fee) w := by
  refine (steady_of_reads (reads_wireGate env _)).level_bind fun _ w₁ _ => ?_
  refine (steady_of_reads (reads_sourceAccount _ _)).level_bind fun a w₂ _ => ?_
  refine (steady_of_reads (reads_internalDestination _ _)).level_bind fun toAccount w₃ _ => ?_
  split
  · exact (steady_throw _).level _
  · refine (steady_of_reads (reads_describeTransfer env _ _ _)).level_bind fun d w₄ _ => ?_
    refine level_bind (debitSender_ensures.imp fun r w₅ hr => ?_)
    cases r with
    | error e => exact hr
    | ok t =>
      obtain ⟨rfl, hlag⟩ := hr
      refine (afterDebit_ensures (by simp [waiting, newTransfer])).imp fun _ w₆ hlag' => ?_
      rw [hlag', hlag]
      ring

theorem initiate_level (env : Env) (c : InitiateCall) (w : World) :
    Level (initiate env me c) w := by
  unfold initiate
  split
  · exact (steady_throw _).level w
  · refine (steady_query _).level_bind fun user w₁ _ => ?_
    split
    · exact (steady_throw _).level _
    · refine (steady_query _).level_bind fun replay w₂ _ => ?_
      cases replay with
      | some r =>
        simp only [replayed]
        split
        · exact (steady_throw _).level _
        · exact (steady_pure _).level _
      | none =>
        have hlift : Steady (.lift (resolveSettlement env c)) := Prog.each_lift _
        refine hlift.level_bind fun r w₃ _ => ?_
        simp only
        split
        · exact (steady_throw _).level _
        · exact initiatePriced_level

/-- The review of a transfer that waits for it takes it out of the queue. -/
theorem reviewPending_reviewed {id : Uuid} {f : Transfer → Transfer} {t : Transfer} {db db' : Db}
    (h : Table.UpdatedMany id f db.transfers db'.transfers)
    (ht : db.transfers.lookup id = some t) (hwaiting : waiting t = true)
    (hreviewed : waiting (f t) = false) : (reviewPending db' : ℤ) = reviewPending db - 1 := by
  have hcount := (h.replaced ht).count waiting
  simp only [hwaiting, hreviewed, if_true, Bool.false_eq_true, if_false, add_zero] at hcount
  exact hcount

theorem waiting_iff {t : Transfer} :
    waiting t = true ↔ t.requiresReview = true ∧ ¬ t.reviewedAt.isSome = true := by
  simp [waiting]

/-- An approval that is committed takes the transfer out of the queue. -/
theorem approval_ensures {id : Uuid} {t : Transfer} {actorUserId : Uuid} {reason : Option String}
    {now : Instant} (ht : w.db.transfers.lookup id = some t) (hwaiting : waiting t = true) :
    (transaction me [] (Tx.executeUpdateTransfer id (stampApproved actorUserId reason now))).Ensures
      w fun r w' => match r with
        | .ok _ => reviewLag w' = reviewLag w - 1
        | .error _ => reviewLag w' = reviewLag w := by
  refine ensures_transaction (fun _ db hdb => ?_) fun _ _ => rfl
  obtain ⟨T, hT, hupdated⟩ := Tx.executeUpdateTransfer_ok hdb
  have hpending : (reviewPending db : ℤ) = reviewPending w.db - 1 := by
    refine reviewPending_reviewed (f := stampApproved actorUserId reason now) ?_ ht hwaiting ?_
    · rw [show db = _ from hT]
      exact hupdated
    · simp [waiting, stampApproved]
  rw [reviewLag_db, hpending]
  ring

theorem decideTransfer_level (c : DecideCall) (w : World) : Level (decideTransfer me c) w := by
  unfold decideTransfer
  split
  · exact (steady_throw _).level w
  · refine ensures_query ?_
    cases ht : w.db.transfers.lookup c.transferId with
    | none => exact (steady_throw _).level w
    | some t =>
      simp only
      split
      · exact (steady_throw _).level w
      · rename_i hflag
        split
        · exact (steady_throw _).level w
        · rename_i hreviewed
          have hwaiting : waiting t = true := waiting_iff.2 ⟨by simpa using hflag, hreviewed⟩
          unfold decideReviewable
          split
          · refine level_bind ((approval_ensures ht hwaiting).imp fun r w₁ hr => ?_)
            cases r with
            | error e => exact hr
            | ok _ =>
              refine ensures_emit ?_
              have hsettled : Steady (tryCatch (forceSettle me c.settle) fun _ => pure ()) :=
                steady_tryCatch (steady_forceSettle _) fun _ => steady_pure ()
              refine (hsettled.level _).imp fun _ w₂ hlag => ?_
              rw [hlag, reviewLag_emit, hr]
              simp [reviewDelta]
          · refine level_bind (ensures_transaction (fun _ db hdb => ?_) fun _ _ => rfl)
            have hpending : (reviewPending db : ℤ) = reviewPending w.db - 1 :=
              reviewPending_reviewed (rejectTx_ok hdb).transfers ht hwaiting
                (by simp [waiting, stampRejected])
            have hlag : reviewLag { w with db } = reviewLag w - 1 := by
              rw [reviewLag_db, hpending]
              ring
            refine (steady_emitBalance _).ensures_bind (emitBalance_neverFails _) fun _ w₁ hlag₁ => ?_
            refine (steady_announceClosed c t).ensures_bind (announceClosed_neverFails c t)
              fun _ w₂ hlag₂ => ?_
            show reviewLag { w₂ with events := w₂.events ++ [.adminQueueChanged (-1)] } = reviewLag w
            rw [reviewLag_emit, hlag₂, hlag₁, hlag]
            simp [reviewDelta]

theorem approveWire_level (c : ApproveCall) (w : World) : Level (approveWire me c) w := by
  refine ensures_query ?_
  cases ht : w.db.transfers.lookup c.transferId with
  | none => exact (steady_throw _).level w
  | some t =>
    simp only
    split
    · exact (steady_throw _).level w
    · split
      · exact (steady_throw _).level w
      · rename_i hflag
        split
        · exact (steady_throw _).level w
        · rename_i hreviewed
          have hwaiting : waiting t = true := waiting_iff.2 ⟨by simpa using hflag, hreviewed⟩
          refine level_bind ((approval_ensures ht hwaiting).imp fun r w₁ hr => ?_)
          cases r with
          | error e => exact hr
          | ok _ =>
            -- the failure of the settlement is swallowed, so the event is emitted in any case
            refine Steady.ensures_bind
              (steady_tryCatch (steady_forceSettle _) fun _ => steady_pure ())
              (Prog.neverFails_catch fun _ => Prog.neverFails_pure ()) fun _ w₂ hlag => ?_
            show reviewLag { w₂ with events := w₂.events ++ [.adminQueueChanged (-1)] } = reviewLag w
            rw [reviewLag_emit, hlag, hr]
            simp [reviewDelta]

end Level

/-! ## Deletions that go through -/

/-- A row that `hardDelete` does not take forbids it: a password reset of the user. -/
def Restricted (userId : Uuid) (db : Db) : Prop :=
  ∃ id c, db.passwordResets.lookup id = some c ∧ c.userId = userId

theorem unrestricted_of_hardDeleteTx {userId : Uuid} {email : String} {accountIds : List Uuid}
    {db : Db} {r : DeletedCounts × Db} (h : hardDeleteTx userId email accountIds db = .ok r) :
    ¬ Restricted userId db := by
  rintro ⟨id, c, hc, howner⟩
  exact (hardDeleteTx_ok h).2.2 id c hc howner

end BankDemo.Admin
