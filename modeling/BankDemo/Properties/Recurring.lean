import BankDemo.Properties.Idempotency
import BankDemo.Recurring.Rules
import BankDemo.RoundUps.Service

/-!
# Recurring transfers fire once per occurrence

The transfer of an occurrence is made under the key of the occurrence, which depends only on what the
scan read. So scans that overlap, stop between the transfer and the schedule, or read a schedule that
was changed since, find the transfer of the occurrence if there is one.

* `recurring_once`: there is at most one transfer for an occurrence, and exactly one from the moment a
  scan moves the schedule on.
-/

namespace BankDemo.Recurring

open Transfers Goals

/-- The step makes a transfer under the key. -/
def Initiates (k : String) (x : Step Schedules RecurringCall) : Prop :=
  ∃ id t, x.pre.world.db.transfers.lookup id = none ∧
    x.post.world.db.transfers.lookup id = some t ∧ t.idempotencyKey = k

/-- There is a transfer of the owner for the occurrence. -/
def HasFired (id : Uuid) (r : RecurringTransfer) (s : Schedules) : Prop :=
  ∃ x t, s.world.db.transfers.lookup x = some t ∧
    t.idempotencyKey = occurrenceKey id r.nextRunAt ∧ t.initiatedByUserId = r.userId

/-- There is exactly one transfer for the occurrence, and it is the owner's. -/
def FiredOnce (id : Uuid) (r : RecurringTransfer) (s : Schedules) : Prop :=
  HasFired id r s ∧ ∀ x x' t t', s.world.db.transfers.lookup x = some t →
    s.world.db.transfers.lookup x' = some t' →
    t.idempotencyKey = occurrenceKey id r.nextRunAt →
    t'.idempotencyKey = occurrenceKey id r.nextRunAt → x = x'

/-- What an action does to the transfers: a new one is of a call of the bank, or of an occurrence
that the scan read. -/
theorem RecurringChange.rowChange {env : Env} {s₁ : Schedules} {h : List World} {s s' : Schedules}
    {c : RecurringCall} (hchange : RecurringChange env s₁ h s s' c) :
    ∃ bc, RowChange env s.world.db.transfers s'.world.db.transfers bc ∧
      ∀ ic, bc = .initiate ic → c = .bank (.initiate ic) ∨
        ∃ sc id r, c = .scan sc ∧ (id, r) ∈ sc.due s₁.recurring ∧ ic = sc.transfer id r := by
  have hsame : ∀ {id : Uuid} {reason : String} {now : Instant},
      s'.world.db.transfers = s.world.db.transfers →
        RowChange env s.world.db.transfers s'.world.db.transfers (.markFailed id reason now) :=
    fun h => .same h
  cases hchange with
  | quiet hdb => exact ⟨.markFailed 0 "" 0, hsame (by rw [hdb]), by simp⟩
  | @banked bc hchange => exact ⟨bc, hchange.rowChange, fun ic hic => .inl (by rw [hic])⟩
  | edited _ hworld => exact ⟨.markFailed 0 "" 0, hsame (by rw [hworld]), by simp⟩
  | @fired sc id r hdue hchange =>
    refine ⟨_, hchange.rowChange, fun ic hic => .inr ⟨sc, id, r, rfl, hdue, ?_⟩⟩
    cases hic
    rfl
  | rescheduled _ _ hworld => exact ⟨.markFailed 0 "" 0, hsame (by rw [hworld]), by simp⟩

section Run

variable {env : Env} {s₀ : Schedules} {tr : List (Step Schedules RecurringCall)}
  {P : Pool Schedules Error RecurringAnswer RecurringCall} {ok : RecurringCall → Prop}

theorem recurring_steps (hrun : Run (recurringProgram env) ok s₀ tr P) :
    (recurrings env).Steps s₀ tr :=
  (hrun.follows (recurrings env) (fun i c h _ => (recurring_begins env i c h).follows)
    recurringRely_refl).1

/-- What a step of a run did, and what its thread had found when it began. -/
theorem recurring_step (hrun : Run (recurringProgram env) ok s₀ tr P)
    {later earlier : List (Step Schedules RecurringCall)} {x : Step Schedules RecurringCall}
    (hsplit : tr = later ++ x :: earlier) :
    ∃ s₁, begun x.tid (x :: earlier) = some s₁ ∧
      RecurringChange env s₁ (worlds (visited s₀ earlier)) x.pre x.post x.call := by
  have hbegins := (hrun.begins (recurrings env) (G := recurringGuar env) (fun hg => ⟨_, hg⟩)
    (fun i c h _ => recurring_begins env i c h) recurringRely_refl).1
  obtain ⟨s₁, hbegun, hguar⟩ := hbegins later x earlier hsplit
  have hsteps := recurring_steps hrun
  rw [hsplit] at hsteps
  obtain ⟨-, past, hpast, -⟩ := hsteps.split
  exact ⟨s₁, hbegun, (hguar _ _ hpast).1⟩

/-- In every state visited, the keys of the transfers are distinct. -/
theorem recurring_keysUnique (hsteps : (recurrings env).Steps s₀ tr)
    (hkeys : KeysUnique s₀.world.db) : ∀ s ∈ visited s₀ tr, KeysUnique s.world.db := by
  refine hsteps.invariant (I := fun h => ∀ s ∈ h, KeysUnique s.world.db) ?_ ?_
  · intro s hs
    obtain rfl := List.mem_singleton.1 hs
    exact hkeys
  · rintro x _ past _ hI ⟨s₁, hguar⟩
    obtain ⟨bc, hrows, -⟩ := (hguar _ _ rfl).1.rowChange
    exact List.forall_mem_cons.2 ⟨hrows.keysUnique (hI x.pre List.mem_cons_self), hI⟩

/-- A transfer that was seen in a run is there, on the same terms. -/
theorem recurring_lineage (hsteps : (recurrings env).Steps s₀ tr) :
    Lineage (worlds (visited s₀ tr)) := by
  refine hsteps.invariant (I := fun h => Lineage (worlds h)) (lineage_start s₀.world) ?_
  rintro x _ past _ hL ⟨s₁, hguar⟩
  obtain ⟨bc, hrows, -⟩ := (hguar _ _ rfl).1.rowChange
  exact hL.step hrows

/-- An occurrence that was handled in a run has fired. -/
theorem hasFired_of_handled (hsteps : (recurrings env).Steps s₀ tr) {id : Uuid}
    {r : RecurringTransfer} (hhandled : Handled (worlds (visited s₀ tr)) id r) {s : Schedules}
    {past : List Schedules} (hs : visited s₀ tr = s :: past) : HasFired id r s := by
  obtain ⟨x, t, hseen, hkey, huser⟩ := hhandled
  have hlineage := recurring_lineage hsteps
  rw [hs] at hlineage hseen
  obtain ⟨t', ht', hterms⟩ := hlineage s.world _ rfl x t hseen
  exact ⟨x, t', ht', (key_of_terms hterms).trans hkey, (user_of_terms hterms).trans huser⟩

/-- What has fired stays so. -/
theorem HasFired.step {s₁ s s' : Schedules} {h : List World} {c : RecurringCall} {id : Uuid}
    {r : RecurringTransfer} (hfired : HasFired id r s)
    (hchange : RecurringChange env s₁ h s s' c) : HasFired id r s' := by
  obtain ⟨x, t, ht, hkey, huser⟩ := hfired
  obtain ⟨bc, hrows, -⟩ := hchange.rowChange
  obtain ⟨t', ht', hterms⟩ := hrows.keep ht
  exact ⟨x, t', ht', (key_of_terms hterms).trans hkey, (user_of_terms hterms).trans huser⟩

/-- What has fired by a step has fired in every state from there on. -/
theorem hasFired_after (hrun : Run (recurringProgram env) ok s₀ tr P)
    {later earlier : List (Step Schedules RecurringCall)} {x : Step Schedules RecurringCall}
    (hsplit : tr = later ++ x :: earlier) {id : Uuid} {r : RecurringTransfer}
    (hfired : HasFired id r x.post) : ∀ s ∈ visited x.post later, HasFired id r s := by
  have hkeeps := hrun.keeps (I := HasFired id r) hsplit hfired fun late y mid hlater hy => ?_
  · intro s hs
    rcases List.mem_append.1 hs with hs | hs
    · obtain ⟨y, hy, rfl⟩ := List.mem_map.1 hs
      exact (hkeeps.1 y hy).2
    · obtain rfl := List.mem_singleton.1 hs
      exact hfired
  · have hy' : tr = late ++ y :: (mid ++ x :: earlier) := by
      rw [hsplit, hlater, List.append_assoc, List.cons_append]
    obtain ⟨s₁, -, hchange⟩ := recurring_step hrun hy'
    exact hy.step hchange

/-- There are not two transfers made under one key. -/
theorem initiates_once (hsteps : (recurrings env).Steps s₀ tr) (k : String) :
    AtMostOnce (Initiates k) tr := by
  induction hsteps with
  | nil => exact .nil
  | @cons tr y past steps hpre hy ih =>
    refine ih.cons fun ⟨id, t, hnone, ht, hkey⟩ x hx hfires => ?_
    obtain ⟨id', t', -, ht', hkey'⟩ := hfires
    obtain ⟨s₁, hguar⟩ := hy
    obtain ⟨bc, hrows, -⟩ := (hguar _ _ rfl).1.rowChange
    -- the earlier transfer is there when the later one is made
    have hseen : Seen (worlds (visited s₀ tr)) id' t' :=
      ⟨x.post.world, List.mem_map_of_mem (List.mem_append_left _ (List.mem_map_of_mem hx)), ht'⟩
    have hlineage := recurring_lineage steps
    rw [hpre] at hlineage hseen
    obtain ⟨t₂, ht₂, hterms⟩ := hlineage _ _ rfl id' t' hseen
    refine (hrows.new_row hnone ht).2 id' t₂ ht₂ ?_
    rw [key_of_terms hterms, hkey', hkey]

end Run

/-- **Recurring transfers fire once per occurrence.** In every interleaving of scans, of the calls of
owners and of the calls of the bank, where no caller but the scans uses the keys of occurrences:
* the keys tell occurrences apart;
* at most one transfer is ever made for an occurrence, and there is at most one in every state;
* it is made by a scan that read the occurrence as due;
* a step of a scan that changes the schedules moves on a schedule that the scan read, and from this
  step on there is exactly one transfer for the occurrence it read;
* when a scan answers that it moved on so many schedules, there is exactly one transfer for each of
  so many occurrences that were due. -/
theorem recurring_once (env : Env) (s₀ : Schedules) (hkeys : KeysUnique s₀.world.db)
    (tr : List (Step Schedules RecurringCall))
    (P : Pool Schedules Error RecurringAnswer RecurringCall)
    (hrun : Run (recurringProgram env) RecurringCall.KeyApart s₀ tr P) :
    (∀ id id' at_ at_', occurrenceKey id at_ = occurrenceKey id' at_' → id = id' ∧ at_ = at_') ∧
    (∀ id at_, AtMostOnce (Initiates (occurrenceKey id at_)) tr ∧
      ∀ s ∈ visited s₀ tr, ∀ x x' t t', s.world.db.transfers.lookup x = some t →
        s.world.db.transfers.lookup x' = some t' → t.idempotencyKey = occurrenceKey id at_ →
        t'.idempotencyKey = occurrenceKey id at_ → x = x') ∧
    (∀ later x earlier, tr = later ++ x :: earlier →
      ∀ id at_, Initiates (occurrenceKey id at_) x → ∃ c s₁ r, x.call = .scan c ∧
        begun x.tid (x :: earlier) = some s₁ ∧ (id, r) ∈ c.due s₁.recurring ∧ r.nextRunAt = at_) ∧
    (∀ later x earlier, tr = later ++ x :: earlier → ∀ c, x.call = .scan c →
      x.post.recurring ≠ x.pre.recurring → ∃ s₁ id r, begun x.tid (x :: earlier) = some s₁ ∧
        (id, r) ∈ c.due s₁.recurring ∧
        Table.Updated id (c.reschedule r) x.pre.recurring x.post.recurring ∧
        ∀ s ∈ visited x.post later, FiredOnce id r s) ∧
    ∀ (i : ℕ) c n, P.threads[i]? = some ⟨.scan c, .ret (.count n)⟩ →
      ∃ s ∈ visited s₀ tr, ∃ rows : List (Uuid × RecurringTransfer),
        rows.Sublist (c.due s.recurring) ∧ rows.length = n ∧
          ∀ e ∈ rows, FiredOnce e.1 e.2 P.state := by
  have hsteps := recurring_steps hrun
  have hunique := recurring_keysUnique hsteps hkeys
  have hone : ∀ s ∈ visited s₀ tr, ∀ k x x' t t', s.world.db.transfers.lookup x = some t →
      s.world.db.transfers.lookup x' = some t' → t.idempotencyKey = k → t'.idempotencyKey = k →
        x = x' :=
    fun s hs k x x' t t' ht ht' hk hk' => hunique s hs x x' t t' ht ht' (hk.trans hk'.symm)
  refine ⟨fun id id' at_ at_' h => occurrenceKey_injective h,
    fun id at_ => ⟨initiates_once hsteps _, fun s hs => hone s hs _⟩, ?_, ?_, ?_⟩
  · rintro later x earlier hsplit id at_ ⟨y, t, hnone, ht, hkey⟩
    obtain ⟨s₁, hbegun, hchange⟩ := recurring_step hrun hsplit
    obtain ⟨bc, hrows, hcall⟩ := hchange.rowChange
    obtain ⟨⟨ic, rfl, hadmitted⟩, -⟩ := hrows.new_row hnone ht
    have hic : ic.idempotencyKey = occurrenceKey id at_ := hadmitted.key_user.1.symm.trans hkey
    rcases hcall ic rfl with hbank | ⟨c, id', r, hc, hdue, rfl⟩
    · have happart := hrun.step_ok (x := x) (by rw [hsplit]; simp)
      rw [hbank] at happart
      exact absurd hic (happart id at_)
    · obtain ⟨rfl, htime⟩ := occurrenceKey_injective hic
      exact ⟨c, s₁, r, hc, hbegun, hdue, htime⟩
  · intro later x earlier hsplit c hc hne
    obtain ⟨s₁, hbegun, hchange⟩ := recurring_step hrun hsplit
    have hstep := hchange
    rw [hc] at hchange
    cases hchange with
    | quiet _ hrows => exact absurd hrows hne
    | edited hc' => cases hc'
    | fired _ _ hrows => exact absurd hrows hne
    | @rescheduled _ id r hdue hhandled hworld hrows =>
      have hsteps' := hsteps
      rw [hsplit] at hsteps'
      obtain ⟨hearlier, past, hpast, -⟩ := hsteps'.split
      have hfired := (hasFired_of_handled hearlier hhandled hpast).step hstep
      refine ⟨s₁, id, r, hbegun, hdue, hrows, fun s hs => ?_⟩
      refine ⟨hasFired_after hrun hsplit hfired s hs, hone s ?_ _⟩
      rw [hsplit, visited_from]
      exact List.mem_append_left _ hs
  · intro i c n hi
    obtain ⟨past, hpast⟩ := hrun.visited_eq
    obtain ⟨s, hs, rows, hsub, hlength, hhandled⟩ := hrun.outcome (recurrings env)
      (fun i c h _ => (recurring_begins env i c h).follows) recurringRely_refl hi c n rfl rfl
    refine ⟨s, hs, rows, hsub, hlength, fun e he => ?_⟩
    refine ⟨hasFired_of_handled hsteps (hhandled e he) hpast, hone P.state ?_ _⟩
    rw [hpast]
    exact List.mem_cons_self

/-- Ann puts 50.00 aside every Monday, and is due on 1 April 2026, at 10:00. -/
def sampleSchedules : Schedules where
  world := RoundUps.sampleSaver
  recurring := (∅ : Table Uuid RecurringTransfer).insert 70
    ⟨1, 10, 11, 5000, .weekly, 1, true, 1775037600000, none⟩

/-- A scan an hour later, which makes transfer `id`. -/
def sampleScan (id : Uuid) : ScanCall where
  now := 1775041200000
  drawn _ := RoundUps.sampleDrawn id
  order rows := rows
  order_perm _ := .refl _

/-- Two scans that read the schedule before any of them moves it on, step by step in turn. -/
def sampleOverlap : List (Choice RecurringCall) :=
  [.call (.scan (sampleScan 300)), .call (.scan (sampleScan 310))] ++
    (List.replicate 20 [Choice.step 0, Choice.step 1]).flatten

theorem recurring_once_overlap :
    (exec (recurringProgram sampleEnv) sampleSchedules sampleOverlap).2.state.world.db.balance 10 =
      495000 ∧
    AtMostOnce (Initiates (occurrenceKey 70 1775037600000))
      (exec (recurringProgram sampleEnv) sampleSchedules sampleOverlap).1 := by
  refine ⟨by decide +kernel, ?_⟩
  have hkeys : KeysUnique sampleSchedules.world.db := fun id _ t _ ht => by cases ht
  have hapart : ∀ c, Choice.call c ∈ sampleOverlap → c.KeyApart := by
    intro c hc
    rcases List.mem_append.1 hc with hc | hc
    · simp only [List.mem_cons, Choice.call.injEq, List.not_mem_nil, or_false] at hc
      rcases hc with rfl | rfl <;> trivial
    · simp at hc
  exact ((recurring_once sampleEnv sampleSchedules hkeys _ _
    (exec_run sampleOverlap hapart)).2.1 70 1775037600000).1

end BankDemo.Recurring
