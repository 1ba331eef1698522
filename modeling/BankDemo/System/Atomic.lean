import BankDemo.System.Changes

/-!
# Calls one at a time

A sequence of calls, each taken as one atomic step (`Sequence`). What a call on transfers does as
one step is said by the relations below, on the database before and after it: `SettleStep`,
`ForceStep`, `ApproveStep`, `RejectStep`, `ReverseStep`, `FailStep`, `JobStep` and `InitiateStep`.
`Atomic` puts them together, and every step of a sequence is one (`Sequence.induct`).
-/

namespace BankDemo

open Ledger Transfers Admin

/-- The sequences of calls from `w₀`: the steps, newest first, and the world reached. -/
inductive Sequence (env : Env) (ok : Call → Prop) (w₀ : World) :
    List (Step World Call) → World → Prop
  | start : Sequence env ok w₀ [] w₀
  | call {tr : List (Step World Call)} {w : World} {c : Call} (seq : Sequence env ok w₀ tr w)
      (hc : ok c) : Sequence env ok w₀ (⟨0, c, w, ((program env 0 c).run w).2⟩ :: tr)
        ((program env 0 c).run w).2

/-! ## Running a service alone -/

/-- Run alone from `w`, the service leaves a database with the property `E`. -/
def Leaves {α : Type} (w : World) (p : Service α) (E : Db → Prop) : Prop := E (p.run w).2.db

section Leaves

variable {α β : Type} {i : ℕ} {w : World} {E : Db → Prop}

theorem run_transaction {rows : List Uuid} {body : Tx α} (w : World) :
    (transaction i rows body).run w = match body w.db with
      | .ok r => (.ok r.1, { w with db := r.2 })
      | .error e => (.error e, w) := by
  unfold transaction
  rw [Prog.run_attempt]
  cases body w.db <;> rfl

theorem Quiet.leaves {p : Service α} (hp : Quiet p) (hE : E w.db) : Leaves w p E := by
  unfold Leaves
  rw [hp.run w]
  exact hE

theorem leaves_query {f : Db → α} {k : α → Service β} (hk : Leaves w (k (f w.db)) E) :
    Leaves w (query f >>= k) E := hk

theorem leaves_emit {e : Event} {k : Unit → Service β}
    (hk : ∀ w', w'.db = w.db → Leaves w' (k ()) E) : Leaves w (emit e >>= k) E :=
  hk { w with events := w.events ++ [e] } rfl

theorem leaves_bind {p : Service α} {k : α → Service β}
    (hp : Leaves w p fun db => E db ∧ ∀ a w', w'.db = db → Leaves w' (k a) E) :
    Leaves w (p >>= k) E := by
  unfold Leaves at hp ⊢
  rw [Prog.run_bind]
  cases hr : p.run w with
  | mk r w' =>
    rw [hr] at hp
    cases r with
    | ok a => exact hp.2 a w' rfl
    | error e => exact hp.1

theorem leaves_tryCatch {p : Service α} {k : Error → Service α}
    (hp : Leaves w p fun db => E db ∧ ∀ e w', w'.db = db → Leaves w' (k e) E) :
    Leaves w (tryCatch p k) E := by
  unfold Leaves at hp ⊢
  rw [Prog.run_tryCatch]
  cases hr : p.run w with
  | mk r w' =>
    rw [hr] at hp
    cases r with
    | ok a => exact hp.1
    | error e => exact hp.2 e w' rfl

theorem leaves_transaction {rows : List Uuid} {body : Tx α}
    (herr : ∀ e, body w.db = .error e → E w.db) (hok : ∀ r, body w.db = .ok r → E r.2) :
    Leaves w (transaction i rows body) E := by
  unfold Leaves
  rw [run_transaction]
  cases hb : body w.db with
  | ok r => exact hok r hb
  | error e => exact herr e hb

theorem leaves_transaction_bind {rows : List Uuid} {body : Tx α} {k : α → Service β}
    (herr : ∀ e, body w.db = .error e → E w.db)
    (hok : ∀ r, body w.db = .ok r → Leaves { w with db := r.2 } (k r.1) E) :
    Leaves w (transaction i rows body >>= k) E := by
  unfold Leaves
  rw [Prog.run_bind, run_transaction]
  cases hb : body w.db with
  | ok r => exact hok r hb
  | error e => exact herr e hb

/-- A service, then a quiet one. -/
theorem Leaves.bind_quiet {p : Service α} {k : α → Service β} (hp : Leaves w p E)
    (hk : ∀ a, Quiet (k a)) : Leaves w (p >>= k) E := by
  refine leaves_bind ?_
  refine ⟨hp, fun a w' hw' => (hk a).leaves ?_⟩
  rw [hw']
  exact hp

/-- A service whose errors are ignored. -/
theorem Leaves.tryCatch_quiet {p : Service α} {k : Error → Service α} (hp : Leaves w p E)
    (hk : ∀ e, Quiet (k e)) : Leaves w (tryCatch p k) E := by
  refine leaves_tryCatch ?_
  refine ⟨hp, fun e w' hw' => (hk e).leaves ?_⟩
  rw [hw']
  exact hp

/-- A quiet service, then another. -/
theorem Quiet.leaves_bind {p : Service α} {k : α → Service β} (hp : Quiet p) (hE : E w.db)
    (hk : ∀ a w', w'.db = w.db → Leaves w' (k a) E) : Leaves w (p >>= k) E :=
  BankDemo.leaves_bind (hp.leaves ⟨hE, hk⟩)

/-! The lock and its release do not touch the database. -/

theorem leaves_lock {a : Uuid} {k : Unit → Service β}
    (hk : ∀ w', w'.db = w.db → Leaves w' (k ()) E) : Leaves w (lockAccount i a >>= k) E :=
  hk { w with locks := Function.update w.locks a (some i) } rfl

theorem leaves_unlock {a : Uuid} {k : Unit → Service β}
    (hk : ∀ w', w'.db = w.db → Leaves w' (k ()) E) : Leaves w (unlockAccount a >>= k) E :=
  hk { w with locks := Function.update w.locks a none } rfl

theorem leaves_withLock {a : Uuid} {body : Service α}
    (hbody : ∀ w', w'.db = w.db → Leaves w' body E) : Leaves w (withLock i a body) E := by
  have hreturn : ∀ (r : α) w', E w'.db →
      Leaves w' (unlockAccount a >>= fun _ => (pure r : Service α)) E := by
    intro r w' hE
    refine leaves_unlock fun w'' hw'' => (quiet_pure r).leaves ?_
    rw [hw'']
    exact hE
  refine leaves_lock fun w₁ hw₁ => leaves_bind (leaves_tryCatch ?_)
  have hE := hbody w₁ hw₁
  refine ⟨⟨hE, fun r w' hw' => hreturn r w' ?_⟩, fun e w' hw' => leaves_unlock fun w'' hw'' => ?_⟩
  · rw [hw']
    exact hE
  · have hE' : E w''.db := by
      rw [hw'', hw']
      exact hE
    refine (quiet_throw e).leaves ⟨hE', fun r w₃ hw₃ => hreturn r w₃ ?_⟩
    rw [hw₃]
    exact hE'

end Leaves

/-- Run alone from `w`, the service ends as `E` says of its outcome and the database it leaves. -/
def Yields {α : Type} (w : World) (p : Service α) (E : Except Error α → Db → Prop) : Prop :=
  E (p.run w).1 (p.run w).2.db

section Yields

variable {α β : Type} {i : ℕ} {w : World}

theorem yields_pure {E : Except Error α → Db → Prop} {a : α} (h : E (.ok a) w.db) :
    Yields w (pure a) E := h

theorem yields_throw {E : Except Error α → Db → Prop} {e : Error} (h : E (.error e) w.db) :
    Yields w (throw e) E := h

theorem yields_query {E : Except Error β → Db → Prop} {f : Db → α} {k : α → Service β}
    (hk : Yields w (k (f w.db)) E) : Yields w (query f >>= k) E := hk

theorem yields_bind {E : Except Error β → Db → Prop} {p : Service α} {k : α → Service β}
    (hp : Yields w p fun r db => match r with
      | .ok a => ∀ w', w'.db = db → Yields w' (k a) E
      | .error e => E (.error e) db) : Yields w (p >>= k) E := by
  unfold Yields at hp ⊢
  rw [Prog.run_bind]
  cases hr : p.run w with
  | mk r w' =>
    rw [hr] at hp
    cases r with
    | ok a => exact hp w' rfl
    | error e => exact hp

theorem yields_tryCatch {E : Except Error α → Db → Prop} {p : Service α} {k : Error → Service α}
    (hp : Yields w p fun r db => match r with
      | .ok a => E (.ok a) db
      | .error e => ∀ w', w'.db = db → Yields w' (k e) E) : Yields w (tryCatch p k) E := by
  unfold Yields at hp ⊢
  rw [Prog.run_tryCatch]
  cases hr : p.run w with
  | mk r w' =>
    rw [hr] at hp
    cases r with
    | ok a => exact hp
    | error e => exact hp w' rfl

theorem Yields.imp {E E' : Except Error α → Db → Prop} {p : Service α} (hp : Yields w p E)
    (hE : ∀ r db, E r db → E' r db) : Yields w p E' := hE _ _ hp

theorem Quiet.yields {E : Except Error α → Db → Prop} {p : Service α} (hp : Quiet p)
    (hE : ∀ r, E r w.db) : Yields w p E := by
  unfold Yields
  rw [hp.run w]
  exact hE _

/-- A quiet service, then another. -/
theorem Quiet.yields_bind {E : Except Error β → Db → Prop} {p : Service α} {k : α → Service β}
    (hp : Quiet p) (hok : ∀ a w', w'.db = w.db → Yields w' (k a) E)
    (herr : ∀ e, E (.error e) w.db) : Yields w (p >>= k) E := by
  refine BankDemo.yields_bind (hp.yields fun r => ?_)
  cases r with
  | ok a => exact hok a
  | error e => exact herr e

/-- A quiet service that does not fail. -/
theorem Quiet.yields_ok {E : Except Error α → Db → Prop} {p : Service α} (hp : Quiet p)
    (hnever : p.NeverFails) (hE : ∀ a, E (.ok a) w.db) : Yields w p E := by
  obtain ⟨a, ha⟩ := hnever.run w
  unfold Yields
  rw [hp.run w, ha]
  exact hE a

theorem yields_transaction {E : Except Error α → Db → Prop} {rows : List Uuid} {body : Tx α}
    (herr : ∀ e, body w.db = .error e → E (.error e) w.db)
    (hok : ∀ r, body w.db = .ok r → E (.ok r.1) r.2) : Yields w (transaction i rows body) E := by
  unfold Yields
  rw [run_transaction]
  cases hb : body w.db with
  | ok r => exact hok r hb
  | error e => exact herr e hb

theorem yields_withLock {E : Except Error α → Db → Prop} {a : Uuid} {body : Service α}
    (hbody : ∀ w', w'.db = w.db → Yields w' body E) : Yields w (withLock i a body) E := by
  refine yields_bind (p := lockAccount i a) ?_
  rintro w₁ hw₁
  refine yields_bind (yields_tryCatch ((hbody w₁ hw₁).imp fun r db hE => ?_))
  cases r with
  | ok x =>
    rintro w₂ rfl
    exact hE
  | error e =>
    rintro w₂ rfl
    exact hE

end Yields

/-! ## The services, each as one step -/

/-- A run of the worker: the transfer, if it may settle, is settled, or nothing happens. -/
def SettleStep (pc : ProcessCall) (db db' : Db) : Prop :=
  db' = db ∨ ∃ t, db.transfers.lookup pc.transferId = some t ∧ settleable t = true ∧
    Settled pc t db db'

/-- A transfer that is not pending is moved back to pending. -/
def ReopenStep (id : Uuid) (db db' : Db) : Prop :=
  ((∀ t, db.transfers.lookup id = some t → t.status = .pending) ∧ db' = db) ∨
    ∃ t, db.transfers.lookup id = some t ∧ t.status ≠ .pending ∧
      Restamped id resetToPending db db'

/-- `forceSettle`. -/
def ForceStep (fc : ForceSettleCall) (db db' : Db) : Prop :=
  ∃ db₁, ReopenStep fc.transferId db db₁ ∧ SettleStep fc.worker db₁ db'

/-- An approval: a transfer that is under review is stamped and settled, or nothing happens. -/
def ApproveStep (fc : ForceSettleCall) (f : Transfer → Transfer) (db db' : Db) : Prop :=
  db' = db ∨ ∃ t db₁, db.transfers.lookup fc.transferId = some t ∧ t.requiresReview = true ∧
    t.reviewedAt = none ∧ Restamped fc.transferId f db db₁ ∧ ForceStep fc db₁ db'

/-- A rejection: a transfer that is under review is refunded, or nothing happens. -/
def RejectStep (dc : DecideCall) (db db' : Db) : Prop :=
  db' = db ∨ ∃ t, db.transfers.lookup dc.transferId = some t ∧ t.requiresReview = true ∧
    t.reviewedAt = none ∧ Rejected dc t db db'

/-- A reversal: a wire that is not reversed is refunded, or nothing happens. -/
def ReverseStep (rc : ReverseCall) (db db' : Db) : Prop :=
  db' = db ∨ ∃ t, db.transfers.lookup rc.transferId = some t ∧ t.kind = .wireOut ∧
    t.status ≠ .reversed ∧ Reversed rc t db db'

/-- A transfer is marked as failed, or nothing happens. -/
def FailStep (id : Uuid) (db db' : Db) : Prop :=
  db' = db ∨ ∃ reason now, Restamped id (stampFailed reason now) db db'

/-- An attempt of the queue: a run of the worker, or a failure of a transfer that may settle. -/
def JobStep (pc : ProcessCall) (db db' : Db) : Prop :=
  SettleStep pc db db' ∨ ((∃ t, db.transfers.lookup pc.transferId = some t ∧
    settleable t = true) ∧ FailStep pc.transferId db db')

/-- `initiate`: a transfer is created, or nothing happens. -/
def InitiateStep (env : Env) (ic : InitiateCall) (db db' : Db) : Prop :=
  db' = db ∨ ∃ t, Admitted env ic t ∧ t.amountCents + t.feeCents ≤ db.balance t.fromAccountId ∧
    Initiated ic t db db'

section Services

variable {env : Env} {i : ℕ}

theorem process_leaves (pc : ProcessCall) (w : World) :
    Leaves w (process i pc) (SettleStep pc w.db) := by
  refine leaves_query ?_
  cases ht : w.db.transfers.lookup pc.transferId with
  | none => exact (quiet_pure ()).leaves (.inl rfl)
  | some t =>
    simp only
    split
    · rename_i hs
      refine Leaves.bind_quiet ?_ fun _ => quiet_announceSettled pc t
      exact leaves_transaction (fun _ _ => .inl rfl) fun r hb => .inr ⟨t, ht, hs, settleTx_ok hb⟩
    · exact (quiet_pure ()).leaves (.inl rfl)

/-- The worker throws on transfers that may settle only, and then nothing has happened. -/
theorem process_error {pc : ProcessCall} {w w' : World} {e : Error}
    (h : (process i pc).run w = (.error e, w')) : w' = w ∧
      ∃ t, w.db.transfers.lookup pc.transferId = some t ∧ settleable t = true := by
  simp only [process, query, Prog.run_bind, Prog.run_read] at h
  cases ht : w.db.transfers.lookup pc.transferId with
  | none => simp [ht] at h
  | some t =>
    simp only [ht] at h
    split at h
    · rename_i hs
      rw [Prog.run_bind, run_transaction] at h
      cases hb : settleTx pc t w.db with
      | ok r =>
        simp only [hb] at h
        obtain ⟨a, ha⟩ := (announceSettled_neverFails pc t).run { w with db := r.2 }
        rw [h] at ha
        cases ha
      | error e' =>
        simp only [hb, Prod.mk.injEq] at h
        exact ⟨h.2.symm, t, rfl, hs⟩
    · simp at h

theorem markFailed_leaves (id : Uuid) (reason : String) (now : Instant) (w : World) :
    Leaves w (markFailed i id reason now) (FailStep id w.db) :=
  leaves_transaction (fun _ _ => .inl rfl) fun _ hb => .inr ⟨reason, now, restamped_of_update hb⟩

/-- An attempt fails only when the worker throws. -/
theorem jobCompleted_error {pc : ProcessCall} {w w' : World} {e : Error}
    (h : (jobCompleted i pc).run w = (.error e, w')) :
    (process i pc).run w = (.error e, w') := by
  unfold jobCompleted at h
  rw [Prog.run_bind] at h
  cases hr : (process i pc).run w with
  | mk r w₁ =>
    rw [hr] at h
    cases r with
    | ok a => simp [onQueue] at h
    | error e' => exact h

theorem jobFailed_leaves {pc : ProcessCall} {job : Job} {e : Error} (w : World) :
    Leaves w (jobFailed i pc job e) (FailStep pc.transferId w.db) := by
  refine Quiet.leaves_bind (quiet_onQueue _) (.inl rfl) fun _ w' hw' => ?_
  unfold onFailed
  split
  · refine Leaves.tryCatch_quiet ?_ fun _ => quiet_pure ()
    rw [← hw']
    exact markFailed_leaves _ _ _ w'
  · exact (quiet_pure ()).leaves (.inl hw')

theorem runJob_leaves (pc : ProcessCall) (w : World) :
    Leaves w (runJob i pc) (JobStep pc w.db) := by
  refine Quiet.leaves_bind (Prog.each_read _ fun _ => ⟨rfl, rfl⟩) (.inl (.inl rfl))
    fun job w₁ hw₁ => ?_
  cases job with
  | none => exact (quiet_pure ()).leaves (.inl (.inl hw₁))
  | some job =>
    simp only
    split
    · exact (quiet_pure ()).leaves (.inl (.inl hw₁))
    · unfold Leaves
      rw [← hw₁, Prog.run_tryCatch]
      have hcompleted : Leaves w₁ (jobCompleted i pc) (SettleStep pc w₁.db) :=
        (process_leaves pc w₁).bind_quiet fun _ => quiet_onQueue _
      cases hr : (jobCompleted i pc).run w₁ with
      | mk r w₂ =>
        cases r with
        | ok a =>
          unfold Leaves at hcompleted
          rw [hr] at hcompleted
          exact .inl hcompleted
        | error e =>
          obtain ⟨rfl, hsettleable⟩ := process_error (jobCompleted_error hr)
          exact .inr ⟨hsettleable, jobFailed_leaves w₂⟩

theorem forceSettle_leaves (fc : ForceSettleCall) (w : World) :
    Leaves w (forceSettle i fc) (ForceStep fc w.db) := by
  have hagain : ∀ w', Leaves w' (settleAgain i fc) (SettleStep fc.worker w'.db) := by
    intro w'
    unfold settleAgain
    split
    · exact (quiet_onQueue _).leaves (.inl rfl)
    · exact process_leaves fc.worker w'
  refine leaves_query ?_
  cases ht : w.db.transfers.lookup fc.transferId with
  | none =>
    refine (quiet_throw _).leaves ⟨w.db, .inl ⟨fun t ht' => ?_, rfl⟩, .inl rfl⟩
    rw [ht] at ht'
    cases ht'
  | some t =>
    refine leaves_bind ?_
    have hrest : ∀ db₁, ReopenStep fc.transferId w.db db₁ → ForceStep fc w.db db₁ ∧
        ∀ (a : Unit) w', w'.db = db₁ → Leaves w' (settleAgain i fc) (ForceStep fc w.db) := by
      intro db₁ hreopen
      refine ⟨⟨db₁, hreopen, .inl rfl⟩, fun a w' hw' => ?_⟩
      subst hw'
      exact ⟨w'.db, hreopen, hagain w'⟩
    unfold reopen
    split
    · rename_i hpending
      refine (quiet_pure ()).leaves (hrest w.db (.inl ⟨fun t' ht' => ?_, rfl⟩))
      rw [ht] at ht'
      cases ht'
      exact hpending
    · rename_i hstatus
      refine leaves_transaction (fun e hb => ?_) fun r hb => ?_
      · simp [Tx.updateTransfer, ht] at hb
      · exact hrest r.2 (.inr ⟨t, ht, hstatus, restamped_of_update hb⟩)

theorem approval_leaves {fc : ForceSettleCall} {f : Transfer → Transfer} {t : Transfer} {w : World}
    {k : Unit → Service Unit} (ht : w.db.transfers.lookup fc.transferId = some t)
    (hreview : t.requiresReview = true) (hnew : t.reviewedAt = none)
    (hk : ∀ a w', Leaves w' (k a) (ForceStep fc w'.db)) :
    Leaves w (transaction i [] (Tx.executeUpdateTransfer fc.transferId f) >>= k)
      (ApproveStep fc f w.db) := by
  refine leaves_transaction_bind (fun e _ => .inl rfl) fun r hb => ?_
  have hstamp : Restamped fc.transferId f w.db r.2 := Tx.executeUpdateTransfer_ok hb
  exact .inr ⟨t, r.2, ht, hreview, hnew, hstamp, hk r.1 { w with db := r.2 }⟩

theorem decideTransfer_leaves (dc : DecideCall) (w : World) :
    Leaves w (decideTransfer i dc) fun db' => match dc.decision with
      | .approved => ApproveStep dc.settle (stampApproved dc.actorUserId dc.reason dc.now) w.db db'
      | .rejected => RejectStep dc w.db db' := by
  have hnothing : (match dc.decision with
      | .approved => ApproveStep dc.settle (stampApproved dc.actorUserId dc.reason dc.now) w.db w.db
      | .rejected => RejectStep dc w.db w.db) := by
    cases dc.decision <;> exact .inl rfl
  unfold decideTransfer
  split
  · exact (quiet_throw _).leaves hnothing
  · refine leaves_query ?_
    cases ht : w.db.transfers.lookup dc.transferId with
    | none => exact (quiet_throw _).leaves hnothing
    | some t =>
      simp only
      split
      · exact (quiet_throw _).leaves hnothing
      · rename_i hreview
        split
        · exact (quiet_throw _).leaves hnothing
        · rename_i hnew
          simp only [Bool.not_eq_true', Bool.not_eq_false] at hreview
          simp only [Option.isSome_iff_ne_none, not_not] at hnew
          unfold decideReviewable
          cases hd : dc.decision with
          | approved =>
            refine approval_leaves ht hreview hnew fun _ w' => ?_
            refine leaves_emit fun w'' hw'' => Leaves.tryCatch_quiet ?_ fun _ => quiet_pure ()
            rw [← hw'']
            exact forceSettle_leaves dc.settle w''
          | rejected =>
            refine Leaves.bind_quiet ?_ fun _ => quiet_announceRejected dc t
            exact leaves_transaction (fun _ _ => .inl rfl) fun r hb =>
              .inr ⟨t, ht, hreview, hnew, rejectTx_ok hb⟩

theorem approveWire_leaves (ac : ApproveCall) (w : World) : Leaves w (approveWire i ac)
    (ApproveStep ac.settle (stampApproved ac.actorUserId ac.reason ac.now) w.db) := by
  refine leaves_query ?_
  cases ht : w.db.transfers.lookup ac.transferId with
  | none => exact (quiet_throw _).leaves (.inl rfl)
  | some t =>
    simp only
    split
    · exact (quiet_throw _).leaves (.inl rfl)
    · split
      · exact (quiet_throw _).leaves (.inl rfl)
      · rename_i hreview
        split
        · exact (quiet_throw _).leaves (.inl rfl)
        · rename_i hnew
          simp only [Bool.not_eq_true', Bool.not_eq_false] at hreview
          simp only [Option.isSome_iff_ne_none, not_not] at hnew
          refine approval_leaves ht hreview hnew fun _ w' => ?_
          refine Leaves.bind_quiet ?_ fun _ => quiet_emit _
          exact (forceSettle_leaves ac.settle w').tryCatch_quiet fun _ => quiet_pure ()

theorem reverseWire_leaves (rc : ReverseCall) (w : World) :
    Leaves w (reverseWire i rc) (ReverseStep rc w.db) := by
  refine leaves_query ?_
  cases ht : w.db.transfers.lookup rc.transferId with
  | none => exact (quiet_throw _).leaves (.inl rfl)
  | some t =>
    simp only
    split
    · exact (quiet_throw _).leaves (.inl rfl)
    · rename_i hkind
      split
      · exact (quiet_throw _).leaves (.inl rfl)
      · rename_i hstatus
        refine Leaves.bind_quiet ?_ fun _ => quiet_afterReverse rc t
        exact leaves_transaction (fun _ _ => .inl rfl) fun r hb =>
          .inr ⟨t, ht, not_not.1 hkind, hstatus, reverseTx_ok hb⟩

/-! `initiate`. -/

theorem debitSender_leaves {ic : InitiateCall} {t : Transfer} {fromAccount : Account}
    {toAccount : Option (Uuid × Account)} {fx : Option FxConversion} {description : String}
    (hadmitted : Admitted env ic t) (w : World) :
    Leaves w (debitSender i ic t fromAccount toAccount fx description)
      (InitiateStep env ic w.db) := by
  refine leaves_withLock fun w' hw' => leaves_query ?_
  rw [← hw']
  cases hacct : w'.db.accounts.lookup t.fromAccountId with
  | none => exact (quiet_throw _).leaves (.inl rfl)
  | some a =>
    simp only
    split
    · exact (quiet_throw _).leaves (.inl rfl)
    · rename_i hfunds
      refine leaves_transaction (fun _ _ => .inl rfl) fun r hb => .inr ⟨t, hadmitted, ?_, ?_⟩
      · rw [Db.balance, hacct]
        exact not_lt.1 hfunds
      · exact (pendingTx_ok hb).2

theorem initiatePriced_leaves {ic : InitiateCall} {s fee : ℤ} {fx : Option FxConversion}
    (hadmitted : ∀ toAccount, Admitted env ic (newTransfer env ic s fee toAccount)) (w : World) :
    Leaves w (initiatePriced env i ic s fx fee) (InitiateStep env ic w.db) := by
  refine Quiet.leaves_bind (quiet_wireGate env _) (.inl rfl) fun _ w₁ hw₁ => ?_
  rw [← hw₁]
  refine Quiet.leaves_bind (quiet_sourceAccount _ _) (.inl rfl) fun a w₂ hw₂ => ?_
  rw [← hw₂]
  refine Quiet.leaves_bind (quiet_internalDestination _ _) (.inl rfl) fun toAccount w₃ hw₃ => ?_
  rw [← hw₃]
  split
  · exact (quiet_throw _).leaves (.inl rfl)
  · refine Quiet.leaves_bind (quiet_describeTransfer env _ _ _) (.inl rfl) fun d w₄ hw₄ => ?_
    rw [← hw₄]
    exact Leaves.bind_quiet (debitSender_leaves (hadmitted toAccount) w₄) fun t =>
      quiet_afterDebit env ic t fx

theorem initiate_leaves (ic : InitiateCall) (w : World) :
    Leaves w (initiate env i ic) (InitiateStep env ic w.db) := by
  unfold initiate
  split
  · exact (quiet_throw _).leaves (.inl rfl)
  · rename_i hkey
    refine leaves_query ?_
    split
    · exact (quiet_throw _).leaves (.inl rfl)
    · refine leaves_query ?_
      cases findByIdempotencyKey w.db ic.idempotencyKey with
      | some r =>
        simp only [replayed]
        split
        · exact (quiet_throw _).leaves (.inl rfl)
        · exact (quiet_pure _).leaves (.inl rfl)
      | none =>
        simp only [initiateNew]
        cases hs : resolveSettlement env ic with
        | error e => exact (quiet_throw e).leaves (.inl rfl)
        | ok r =>
          obtain ⟨s, fx⟩ := r
          refine show Leaves w (if _ then _ else _) _ from ?_
          split
          · exact (quiet_throw _).leaves (.inl rfl)
          · rename_i hvalid
            simp only [Bool.not_eq_true', Bool.not_eq_false] at hvalid
            exact initiatePriced_leaves
              (fun toAccount => ⟨hkey, s, fx, toAccount, hs, hvalid, rfl⟩) w

theorem debitSender_yields {ic : InitiateCall} {t : Transfer} {fromAccount : Account}
    {toAccount : Option (Uuid × Account)} {fx : Option FxConversion} {description : String}
    (w : World) : Yields w (debitSender i ic t fromAccount toAccount fx description) fun r db' =>
      match r with
      | .error _ => db' = w.db
      | .ok t' => t' = t ∧ Initiated ic t w.db db' := by
  refine yields_withLock fun w' hw' => yields_query ?_
  rw [← hw']
  cases w'.db.accounts.lookup t.fromAccountId with
  | none => exact yields_throw rfl
  | some a =>
    simp only
    split
    · exact yields_throw rfl
    · exact yields_transaction (fun _ _ => rfl) fun r hb => pendingTx_ok hb

/-- What `initiate` makes under a key that was not used: a transfer that is what the request says,
to the account that the request says. -/
def Creates (env : Env) (ic : InitiateCall) (db : Db) (r : Except Error InitiateResult)
    (db' : Db) : Prop :=
  match r with
  | .error _ => db' = db
  | .ok _ => ∃ t, Admitted env ic t ∧ t.toAccountId = ic.dto.toAccountId ∧ Initiated ic t db db'

theorem internalDestination_yields {ic : InitiateCall} (w : World) :
    Yields w (internalDestination ic.userId ic.dto) fun r db => db = w.db ∧
      ∀ toAccount, r = .ok toAccount → ∀ x ∈ toAccount, ic.dto.toAccountId = some x.1 := by
  unfold internalDestination
  split
  · split
    · refine yields_throw ⟨rfl, fun toAccount h => ?_⟩
      cases h
    · rename_i id hid
      refine yields_query ?_
      cases w.db.accounts.lookup id with
      | none =>
        refine yields_throw ⟨rfl, fun toAccount h => ?_⟩
        cases h
      | some a =>
        simp only
        split
        · refine yields_throw ⟨rfl, fun toAccount h => ?_⟩
          cases h
        · refine yields_pure ⟨rfl, fun toAccount h x hx => ?_⟩
          cases h
          obtain rfl := Option.some.inj hx
          exact hid
  · refine yields_pure ⟨rfl, fun toAccount h x hx => ?_⟩
    cases h
    cases hx

theorem newTransfer_toAccountId {ic : InitiateCall} {s fee : ℤ}
    {toAccount : Option (Uuid × Account)} (h : ∀ x ∈ toAccount, ic.dto.toAccountId = some x.1) :
    (newTransfer env ic s fee toAccount).toAccountId = ic.dto.toAccountId := by
  cases toAccount with
  | none => rfl
  | some x => exact (h x rfl).symm

theorem initiatePriced_creates {ic : InitiateCall} {s fee : ℤ} {fx : Option FxConversion}
    (hadmitted : ∀ toAccount, Admitted env ic (newTransfer env ic s fee toAccount)) (w : World) :
    Yields w (initiatePriced env i ic s fx fee) (Creates env ic w.db) := by
  refine Quiet.yields_bind (quiet_wireGate env _) (fun _ w₁ hw₁ => ?_) fun _ => rfl
  rw [← hw₁]
  refine Quiet.yields_bind (quiet_sourceAccount _ _) (fun a w₂ hw₂ => ?_) fun _ => rfl
  rw [← hw₂]
  refine yields_bind ((internalDestination_yields w₂).imp fun r db hr => ?_)
  obtain ⟨rfl, hto⟩ := hr
  cases r with
  | error e => rfl
  | ok toAccount =>
    intro w₃ hw₃
    rw [← hw₃]
    split
    · exact yields_throw rfl
    · refine Quiet.yields_bind (quiet_describeTransfer env _ _ _) (fun d w₄ hw₄ => ?_) fun _ => rfl
      rw [← hw₄]
      refine yields_bind ((debitSender_yields w₄).imp fun r db hr => ?_)
      cases r with
      | error e => exact hr
      | ok t =>
        obtain ⟨rfl, hinitiated⟩ := hr
        rintro w₅ rfl
        exact (quiet_afterDebit env ic _ fx).yields_ok (afterDebit_neverFails env ic _ fx) fun _ =>
          ⟨_, hadmitted toAccount, newTransfer_toAccountId (hto toAccount rfl), hinitiated⟩

theorem initiateNew_creates {ic : InitiateCall} (hkey : ic.idempotencyKey ≠ "") (w : World) :
    Yields w (initiateNew env i ic) (Creates env ic w.db) := by
  unfold initiateNew
  cases hs : resolveSettlement env ic with
  | error e => exact yields_throw rfl
  | ok r =>
    obtain ⟨s, fx⟩ := r
    refine show Yields w (if _ then _ else _) _ from ?_
    split
    · exact yields_throw rfl
    · rename_i hvalid
      simp only [Bool.not_eq_true', Bool.not_eq_false] at hvalid
      exact initiatePriced_creates
        (fun toAccount => ⟨hkey, s, fx, toAccount, hs, hvalid, rfl⟩) w

/-- What `initiate` answers and leaves: an error leaves everything, and an answer is that of the
transfer that is there under the key or of the one created. -/
def Answers (env : Env) (ic : InitiateCall) (db : Db) (r : Except Error InitiateResult)
    (db' : Db) : Prop :=
  match r with
  | .error _ => db' = db
  | .ok _ => (db' = db ∧ ∃ id t, findByIdempotencyKey db ic.idempotencyKey = some (id, t) ∧
      t.initiatedByUserId = ic.userId) ∨ ∃ t, Admitted env ic t ∧ Initiated ic t db db'

theorem initiate_yields (ic : InitiateCall) (w : World) :
    Yields w (initiate env i ic) (Answers env ic w.db) := by
  unfold initiate
  split
  · exact yields_throw rfl
  · rename_i hkey
    refine yields_query ?_
    split
    · exact yields_throw rfl
    · refine yields_query ?_
      cases hreplay : findByIdempotencyKey w.db ic.idempotencyKey with
      | some r =>
        simp only [replayed]
        split
        · exact yields_throw rfl
        · rename_i huser
          exact yields_pure (.inl ⟨rfl, r.1, r.2, hreplay, not_not.1 huser⟩)
      | none =>
        refine (initiateNew_creates hkey w).imp fun r db' hcreates => ?_
        cases r with
        | error e => exact hcreates
        | ok res =>
          obtain ⟨t, hadmitted, -, hinitiated⟩ := hcreates
          exact .inr ⟨t, hadmitted, hinitiated⟩

end Services

/-! ## Sequences of calls -/

/-- What a call on transfers does to the database, as one step. -/
def Atomic (env : Env) (db db' : Db) : Call → Prop
  | .initiate ic => InitiateStep env ic db db'
  | .process pc => SettleStep pc db db'
  | .runJob pc => JobStep pc db db'
  | .forceSettle fc => ForceStep fc db db'
  | .decide dc => match dc.decision with
    | .approved => ApproveStep dc.settle (stampApproved dc.actorUserId dc.reason dc.now) db db'
    | .rejected => RejectStep dc db db'
  | .approve ac => ApproveStep ac.settle (stampApproved ac.actorUserId ac.reason ac.now) db db'
  | .reverse rc => ReverseStep rc db db'
  | .markFailed id _ _ => FailStep id db db'
  | _ => True

theorem program_leaves (env : Env) (i : ℕ) (c : Call) (w : World) :
    Leaves w (program env i c) fun db' => Atomic env w.db db' c := by
  have hdone : ∀ {α β : Type} {p : Service α} {f : α → β} {E : Db → Prop}, Leaves w p E →
      Leaves w (p >>= fun a => pure (f a)) E := fun hp => hp.bind_quiet fun _ => quiet_pure _
  cases c with
  | initiate ic => exact hdone (initiate_leaves ic w)
  | process pc => exact hdone (process_leaves pc w)
  | runJob pc => exact hdone (runJob_leaves pc w)
  | forceSettle fc => exact hdone (forceSettle_leaves fc w)
  | decide dc => exact hdone (decideTransfer_leaves dc w)
  | approve ac => exact hdone (approveWire_leaves ac w)
  | reverse rc => exact hdone (reverseWire_leaves rc w)
  | markFailed id reason now => exact hdone (markFailed_leaves id reason now w)
  | _ => trivial

/-- The induction rule for sequences: every step is what its call does as one step, from the state
the steps before it left. -/
theorem Sequence.induct {env : Env} {ok : Call → Prop} {w₀ : World}
    {I : List (Step World Call) → World → Prop} (hstart : I [] w₀)
    (hstep : ∀ tr w c w', I tr w → ok c → Atomic env w.db w'.db c →
      I (⟨0, c, w, w'⟩ :: tr) w') {tr : List (Step World Call)} {w : World}
    (hseq : Sequence env ok w₀ tr w) : I tr w := by
  induction hseq with
  | start => exact hstart
  | call _ hc ih => exact hstep _ _ _ _ ih hc (program_leaves env 0 _ _)

/-- Calls taken one after the other. -/
def oneAtATime (env : Env) (w₀ : World) (cs : List Call) : List (Step World Call) × World :=
  cs.foldl (fun s c => (⟨0, c, s.2, ((program env 0 c).run s.2).2⟩ :: s.1,
    ((program env 0 c).run s.2).2)) ([], w₀)

theorem oneAtATime_sequence {env : Env} {ok : Call → Prop} {w₀ : World} (cs : List Call)
    (hok : ∀ c ∈ cs, ok c) :
    Sequence env ok w₀ (oneAtATime env w₀ cs).1 (oneAtATime env w₀ cs).2 := by
  unfold oneAtATime
  suffices h : ∀ s : List (Step World Call) × World, Sequence env ok w₀ s.1 s.2 →
      Sequence env ok w₀ (cs.foldl _ s).1 (cs.foldl _ s).2 from h _ .start
  induction cs with
  | nil => exact fun s hs => hs
  | cons c cs ih =>
    intro s hs
    exact ih (fun c' hc' => hok c' (List.mem_cons_of_mem _ hc')) _
      (.call hs (hok c List.mem_cons_self))

end BankDemo
