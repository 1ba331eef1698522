import BankDemo.Properties.Review

/-!
# Settling once

The worker reads the row, and later commits a transaction that neither reads the row again nor
makes its update conditional on the status. Two executions that have both read the row while it
was pending both settle it (`settles_twice`).

* `settle_once_iff`: a transfer is settled at most once exactly when every settlement finds the
  row still pending at its commit.
-/

namespace BankDemo

open Ledger Transfers Admin

/-- The step writes a settle entry of transfer `id`. -/
def WritesSettleEntry (id : Uuid) (x : Step World Call) : Prop :=
  x.post.db.entriesOf (.settle id) ≠ x.pre.db.entriesOf (.settle id)

/-- The step is one of an execution of the worker for transfer `id` and moves a balance. -/
def SettleCredits (id : Uuid) (x : Step World Call) : Prop :=
  (∃ pc, x.call.worker = some pc ∧ pc.transferId = id) ∧
    ∃ a, x.post.db.balance a ≠ x.pre.db.balance a

/-- The step moves transfer `id` from another status back to pending. -/
def ResetsStatus (id : Uuid) (x : Step World Call) : Prop :=
  x.pre.db.statusOf id ≠ none ∧ x.pre.db.statusOf id ≠ some .pending ∧
    x.post.db.statusOf id = some .pending

instance (id : Uuid) (x : Step World Call) : Decidable (WritesSettleEntry id x) :=
  inferInstanceAs (Decidable (_ ≠ _))

instance (id : Uuid) (x : Step World Call) : Decidable (ResetsStatus id x) :=
  inferInstanceAs (Decidable (_ ∧ _))

/-- The step, if it is the commit of a settlement of transfer `id`, finds the transfer pending. -/
def FindsPending (id : Uuid) (x : Step World Call) : Prop :=
  WritesSettleEntry id x → x.pre.db.statusOf id = some .pending

instance (id : Uuid) (x : Step World Call) : Decidable (FindsPending id x) :=
  inferInstanceAs (Decidable (_ → _))

/-- The call is an execution of the worker: by the queue, a timer or `forceSettle`. -/
def Call.settling : Call → Bool
  | .process _ | .forceSettle _ => true
  | _ => false

/-- At most one settle entry is written, and an account is credited at most once. -/
def SettledOnce (id : Uuid) (w₀ : World) (tr : List (Step World Call)) (w : World) : Prop :=
  (w.db.entriesOf (.settle id)).length ≤ (w₀.db.entriesOf (.settle id)).length + 1 ∧
    AtMostOnce (WritesSettleEntry id) tr ∧ AtMostOnce (SettleCredits id) tr

theorem statusOf_settled {pc : ProcessCall} {t : Transfer} {db db' : Db}
    (h : Settled pc t db db') : db'.statusOf pc.transferId = some .posted := by
  obtain ⟨row, hrow, hT⟩ := h.transfers
  simp [Db.statusOf, hT, stampSettled]

theorem length_settled {pc : ProcessCall} {t : Transfer} {db db' : Db} (h : Settled pc t db db') :
    (db'.entriesOf (.settle pc.transferId)).length =
      (db.entriesOf (.settle pc.transferId)).length + 1 := by
  rw [h.booked.entriesOf, if_pos rfl]

/-- A credit by the worker comes with a settle entry. -/
theorem writes_of_credits {env : Env} {h : List World} {id : Uuid} {x : Step World Call}
    (hchange : Change env h x.pre.db x.post.db x.call) (hcredits : SettleCredits id x) :
    WritesSettleEntry id x := by
  obtain ⟨⟨pc, hc, rfl⟩, a, ha⟩ := hcredits
  obtain ⟨pc', t, -, hid, -, -, hsettled⟩ := hchange.settles_of_credit hc ha
  rw [← hid]
  exact hsettled.booked.entriesOf_self

theorem Call.failing_of_settling {c : Call} (h : c.settling = true) : c.failing = none := by
  cases c with
  | process | forceSettle => rfl
  | _ => cases h

/-- A transfer stays pending under the calls of the worker, unless one settles it. -/
theorem Change.stays_pending {env : Env} {h : List World} {db db' : Db} {c : Call} {id : Uuid}
    (hchange : Change env h db db' c) (hcall : c.subject = some id → c.settling = true)
    (hentries : db'.entriesOf (.settle id) = db.entriesOf (.settle id))
    (hpending : db.statusOf id = some .pending) : db'.statusOf id = some .pending := by
  obtain ⟨t, ht, hstatus⟩ := Option.map_eq_some_iff.1 hpending
  by_cases hid : c.subject = some id
  · have hsettling := hcall hid
    cases hchange with
    | quiet hdb => rw [hdb, hpending]
    | initiated => cases hid
    | settled hw _ _ hsettled =>
      rw [Call.subject_of_worker hw] at hid
      obtain rfl := Option.some.inj hid
      exact absurd hentries hsettled.booked.entriesOf_self
    | reopened hf _ _ hreset =>
      rw [Call.subject_of_force hf] at hid
      obtain rfl := Option.some.inj hid
      rw [Db.statusOf, hreset.lookup, if_pos rfl, ht]
      rfl
    | approved ha _ _ _ hstamp =>
      rw [Call.subject_of_approval ha] at hid
      obtain rfl := Option.some.inj hid
      obtain ⟨_, _, _, rfl⟩ := approval_stamp ha
      rw [Db.statusOf, hstamp.lookup, if_pos rfl, ht]
      exact congrArg some hstatus
    | rejected => cases hsettling
    | reversed => cases hsettling
    | failed hf _ =>
      rw [Call.failing_of_settling hsettling] at hf
      cases hf
    | adjusted _ hadj => rw [Db.statusOf, hadj.transfers, ← hpending, Db.statusOf]
  · rw [Db.statusOf, hchange.lookup_other hid ht]
    exact congrArg some hstatus

section Run

variable {env : Env} {w₀ : World} {tr : List (Step World Call)} {id : Uuid}

/-- The invariant of runs whose settlements find the transfer pending: it is not settled yet, or
it was once and is not pending any more. -/
theorem steps_settled_once (hsteps : (system env).Steps w₀ tr)
    (hresets : ∀ x ∈ tr, ¬ ResetsStatus id x) (hfinds : ∀ x ∈ tr, FindsPending id x)
    {w : World} {past : List World} (hw : visited w₀ tr = w :: past) :
    AtMostOnce (WritesSettleEntry id) tr ∧
      ((∀ x ∈ tr, ¬ WritesSettleEntry id x) ∧
          w.db.entriesOf (.settle id) = w₀.db.entriesOf (.settle id) ∨
        (∃ s, s ≠ .pending ∧ w.db.statusOf id = some s) ∧
          (w.db.entriesOf (.settle id)).length = (w₀.db.entriesOf (.settle id)).length + 1) := by
  refine steps_induct (I := fun tr w => AtMostOnce (WritesSettleEntry id) tr ∧
    ((∀ x ∈ tr, ¬ WritesSettleEntry id x) ∧
        w.db.entriesOf (.settle id) = w₀.db.entriesOf (.settle id) ∨
      (∃ s, s ≠ .pending ∧ w.db.statusOf id = some s) ∧
        (w.db.entriesOf (.settle id)).length = (w₀.db.entriesOf (.settle id)).length + 1))
    hsteps ⟨.nil, .inl ⟨by simp, rfl⟩⟩ ?_ w past hw
  rintro earlier x past' hx - - ⟨honce, hI⟩ hchange
  by_cases hwrites : WritesSettleEntry id x
  · obtain ⟨pc, t, -, rfl, -, -, hsettled⟩ := hchange.settles_of_entry hwrites
    rcases hI with ⟨hnone, hentries⟩ | ⟨⟨s, hs, hstatus⟩, -⟩
    · refine ⟨honce.cons fun _ => hnone, .inr ⟨⟨.posted, by simp, statusOf_settled hsettled⟩, ?_⟩⟩
      rw [length_settled hsettled, hentries]
    · have hpending := hfinds x hx hwrites
      rw [hstatus] at hpending
      exact absurd (Option.some.inj hpending) hs
  · have hsame := not_not.1 hwrites
    refine ⟨honce.cons fun h => absurd h hwrites, ?_⟩
    rw [hsame]
    refine hI.imp (fun hI => ⟨fun y hy => ?_, hI.2⟩) fun hI => ⟨?_, hI.2⟩
    · rcases List.mem_cons.1 hy with rfl | hy
      · exact hwrites
      · exact hI.1 y hy
    · -- nothing resets the status
      obtain ⟨s, hs, hstatus⟩ := hI.1
      obtain ⟨t, ht, rfl⟩ := Option.map_eq_some_iff.1 hstatus
      obtain ⟨t', ht', -⟩ := hchange.rowChange.keep ht
      have hstatus' : x.post.db.statusOf id = some t'.status := by rw [Db.statusOf, ht']; rfl
      refine ⟨t'.status, fun hpending => hresets x hx ⟨?_, ?_, ?_⟩, hstatus'⟩
      · rw [hstatus]
        simp
      · rw [hstatus]
        simpa using hs
      · rw [hstatus', hpending]

/-- A transfer that was seen pending and is not settled since is pending, when only the worker acts
on it. -/
theorem steps_stays_pending (hsteps : (system env).Steps w₀ tr)
    (hcalls : ∀ x ∈ tr, x.call.subject = some id → x.call.settling = true)
    (hnone : ∀ x ∈ tr, ¬ WritesSettleEntry id x) {t : Transfer} (ht : Seen (visited w₀ tr) id t)
    (hpending : t.status = .pending) {w : World} {past : List World}
    (hw : visited w₀ tr = w :: past) : w.db.statusOf id = some .pending := by
  have hinv : ∀ w past, visited w₀ tr = w :: past →
      Seen (visited w₀ tr) id t → w.db.statusOf id = some .pending := by
    refine steps_induct (I := fun tr w => Seen (visited w₀ tr) id t →
      w.db.statusOf id = some .pending) hsteps ?_ ?_
    · rintro ⟨w', hw', ht'⟩
      obtain rfl := List.mem_singleton.1 hw'
      rw [Db.statusOf, ht', ← hpending]
      rfl
    · rintro earlier x past' hx - - hI hchange ⟨w', hw', ht'⟩
      rcases List.mem_cons.1 hw' with rfl | hw'
      · rw [Db.statusOf, ht', ← hpending]
        rfl
      · exact hchange.stays_pending (hcalls x hx) (not_not.1 (hnone x hx)) (hI ⟨w', hw', ht'⟩)
  exact hinv w past hw ht

end Run

/-- **Settle at most once.** In every interleaving of the calls of the system in which no step
resets the status of a transfer: if every settlement of it finds the row still pending at its
commit, then at most one settle entry is written and an account is credited at most once. For
runs in which only executions of the worker act on the transfer, this is exactly when. -/
theorem settle_once_iff (env : Env) (w₀ : World) (id : Uuid) (tr : List (Step World Call))
    (P : Pool World Error Answer Call) (hrun : Run (program env) (fun _ => True) w₀ tr P)
    (hresets : ∀ x ∈ tr, ¬ ResetsStatus id x) :
    ((∀ x ∈ tr, FindsPending id x) → SettledOnce id w₀ tr P.state) ∧
      ((∀ x ∈ tr, x.call.subject = some id → x.call.settling = true) →
        SettledOnce id w₀ tr P.state → ∀ x ∈ tr, FindsPending id x) := by
  obtain ⟨past, hpast⟩ := hrun.visited_eq
  refine ⟨fun hfinds => ?_, fun hcalls honce x hx hwrites => ?_⟩
  · obtain ⟨honce, hcount⟩ := steps_settled_once hrun.steps hresets hfinds hpast
    refine ⟨?_, honce, honce.imp fun x hx hcredits => ?_⟩
    · rcases hcount with ⟨-, hcount⟩ | ⟨-, hcount⟩
      · rw [hcount]
        omega
      · omega
    · obtain ⟨past', -, hchange⟩ := step_change hrun.steps hx
      exact writes_of_credits hchange hcredits
  · obtain ⟨later, earlier, rfl⟩ := List.append_of_mem hx
    obtain ⟨hsteps, past', hpre, hchange⟩ := steps_split hrun.steps
    obtain ⟨pc, t, -, rfl, hseen, hs, -⟩ := hchange.settles_of_entry hwrites
    have htail := (List.pairwise_append.1 honce.2.1).2.1
    refine steps_stays_pending hsteps (fun y hy => hcalls y (by simp [hy])) (fun y hy => ?_) hseen
      (pending_of_settleable hs) hpre
    exact (List.pairwise_cons.1 htail).1 y hy hwrites

/-- A payment of 20.00 and two executions of the worker, the second after the first. -/
def sampleRedelivery : List (Choice Call) :=
  oneByOne [.initiate (samplePay .p2p 20 100 2000 false), .process (sampleSettle 100 200),
    .process (sampleSettle 100 300)]

theorem settle_once_redelivery :
    (exec (program sampleEnv) sampleWorld sampleRedelivery).2.state.db.balance 20 = 2000 ∧
      SettledOnce 100 sampleWorld (exec (program sampleEnv) sampleWorld sampleRedelivery).1
        (exec (program sampleEnv) sampleWorld sampleRedelivery).2.state :=
  ⟨by decide +kernel, (settle_once_iff sampleEnv sampleWorld 100 _ _
    (exec_run sampleRedelivery fun _ _ => trivial) (by decide +kernel)).1 (by decide +kernel)⟩

/-- A payment of 20.00 and two executions of the worker, both of which read the row before one of
them commits. -/
def sampleOverlap : List (Choice Call) :=
  oneByOne [.initiate (samplePay .p2p 20 100 2000 false)] ++
    [.call (.process (sampleSettle 100 200)), .call (.process (sampleSettle 100 300)),
      .step 1, .step 2, .step 1, .step 2]

/-- Two executions that overlap write two settle entries and credit Bob twice. -/
theorem settles_twice :
    ¬ ∀ (env : Env) (w₀ : World) (id : Uuid) (tr : List (Step World Call))
        (P : Pool World Error Answer Call),
        Run (program env) (fun c => c.subject = some id → c.settling = true) w₀ tr P →
        (∀ x ∈ tr, ¬ ResetsStatus id x) → SettledOnce id w₀ tr P.state := by
  intro h
  have hcalls : ∀ c, Choice.call c ∈ sampleOverlap → c.subject = some 100 → c.settling = true := by
    intro c hc hid
    rcases List.mem_append.1 hc with hc | hc
    · obtain rfl := List.mem_singleton.1 (mem_oneByOne hc)
      cases hid
    · simp only [List.mem_cons, List.not_mem_nil, or_false, Choice.call.injEq, reduceCtorEq] at hc
      rcases hc with rfl | rfl <;> rfl
  have hlast := (h sampleEnv sampleWorld 100 _ _ (exec_run sampleOverlap hcalls)
    (by decide +kernel)).1
  revert hlast
  decide +kernel

end BankDemo
