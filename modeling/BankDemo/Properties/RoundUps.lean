import BankDemo.RoundUps.Service
import BankDemo.System.Frame

/-!
# The round-up sweep

A sweep sums the rows to apply when it begins, moves each user's sum under a key of the day, and in
the end marks whatever rows of the user are to be applied then. A row that comes in between is
marked and never moved, a second sweep on a day marks rows without moving them
(`round_up_marked_unswept`), and one that stops between the transfer and the mark leaves rows that
the next will move again.

`sweeps_sound`: where each sweep that moves the rows of a user goes on to mark them, marks them only
after a transfer of its own, and is alone with them from its beginning to the mark (`Unbroken`),
every row that is marked is in the sum of exactly one transfer, and every other row in none.
-/

namespace BankDemo

open Ledger Transfers Goals Autosave RoundUps

/-! ## The property -/

/-- The call is a sweep. -/
def RoundUps.RoundUpCall.isSweep : RoundUpCall → Bool
  | .daily _ => true
  | .settled _ => false

/-- The users and the transfers that a step makes for them. -/
def sweptBy (x : Step World RoundUpCall) : List (Uuid × Uuid) :=
  (x.post.db.transfers.entries.filter fun e => (x.pre.db.transfers.lookup e.1).isNone).map
    fun e => (e.2.initiatedByUserId, e.1)

/-- The users some of whose round-ups a step adds or marks. -/
def touchedBy (x : Step World RoundUpCall) : List Uuid :=
  (x.post.db.roundUps.entries.filter fun e => x.pre.db.roundUps.lookup e.1 ≠ some e.2).map
    fun e => e.2.userId

/-- The row is the user's and is to be applied. -/
def PendingRow (db : Db) (u r : Uuid) : Prop := (db.roundUps.lookup r).any (isPending u) = true

/-- The row is marked applied. -/
def AppliedRow (db : Db) (r : Uuid) : Prop :=
  (db.roundUps.lookup r).any (fun row => row.appliedAt.isSome) = true

/-- The step makes transfer `id`, of a sum with the row `r`: the row was to be applied when the
sweep began. -/
def IncludedBy (x : Step World RoundUpCall) (earlier : List (Step World RoundUpCall))
    (id r : Uuid) : Prop :=
  ∃ m ∈ sweptBy x, m.2 = id ∧ ∃ w ∈ begun x.tid (x :: earlier), PendingRow w.db m.1 r

/-- The row `r` is in the sum of the transfer `id`. -/
def Includes (tr : List (Step World RoundUpCall)) (id r : Uuid) : Prop :=
  ∃ later x earlier, tr = later ++ x :: earlier ∧ IncludedBy x earlier id r

/-- Rows and transfers agree. -/
structure SweepsSound (tr : List (Step World RoundUpCall)) (db : Db) : Prop where
  /-- A row that is marked is in exactly one transfer. -/
  applied : ∀ r, AppliedRow db r → ∃! id, Includes tr id r
  /-- A row that is not marked is in none. -/
  pending : ∀ r, ¬ AppliedRow db r → ∀ id, ¬ Includes tr id r
  /-- A transfer moves the sum of the rows that are in it. -/
  amounts : ∀ later x earlier, tr = later ++ x :: earlier → ∀ m ∈ sweptBy x,
    ∃ w t, begun x.tid (x :: earlier) = some w ∧ x.post.db.transfers.lookup m.2 = some t ∧
      t.amountCents = pendingSum w.db m.1

/-- The step of a sweep marks rows of the user. -/
def MarksRows (u : Uuid) (x : Step World RoundUpCall) : Prop :=
  x.call.isSweep = true ∧ u ∈ touchedBy x

/-- The step, after the steps `earlier` and before the steps `later`, is not of a broken sweep: when
it makes a transfer for a user, the sweep goes on to mark the user's rows; when it marks rows, the
sweep has made a transfer for the user, and nothing touched the user's rows since it began. -/
structure Unbroken (later : List (Step World RoundUpCall)) (x : Step World RoundUpCall)
    (earlier : List (Step World RoundUpCall)) : Prop where
  completed : ∀ m ∈ sweptBy x, ∃ y ∈ later, y.tid = x.tid ∧ MarksRows m.1 y
  own : x.call.isSweep = true → ∀ u ∈ touchedBy x,
    ∃ y ∈ earlier, y.tid = x.tid ∧ ∃ m ∈ sweptBy y, m.1 = u
  alone : x.call.isSweep = true → ∀ u ∈ touchedBy x,
    ∀ y ∈ sinceBegun x.tid earlier, u ∉ touchedBy y

section Decidable

variable (db : Db) (x : Step World RoundUpCall) (u r : Uuid)

instance : Decidable (PendingRow db u r) := inferInstanceAs (Decidable (_ = true))

instance : Decidable (AppliedRow db r) := inferInstanceAs (Decidable (_ = true))

instance : Decidable (MarksRows u x) := inferInstanceAs (Decidable (_ ∧ _))

instance (later earlier : List (Step World RoundUpCall)) : Decidable (Unbroken later x earlier) :=
  decidable_of_iff (_ ∧ _ ∧ _)
    ⟨fun h => ⟨h.1, h.2.1, h.2.2⟩, fun h => ⟨h.completed, h.own, h.alone⟩⟩

end Decidable

/-! ## What a step can do -/

/-- An action moves nothing but money, or writes nothing but goals, or nothing but round-ups. -/
def RoundUpFrame (w w' : World) : Prop :=
  (∃ made, Framed [] made w.db w'.db) ∨ (∃ G, w'.db = { w.db with goals := G }) ∨
    ∃ R, w'.db = { w.db with roundUps := R }

section Frame

variable {α : Type} {env : Env} {i : ℕ}

theorem roundUpFrame_refl (w : World) : RoundUpFrame w w := .inl ⟨[], .refl _⟩

theorem roundUpFrame_quiet {p : Service α} (hp : Quiet p) : p.Each RoundUpFrame := by
  refine Prog.Each.imp hp fun w w' h => .inl ⟨[], ?_⟩
  rw [h.1]
  exact .refl _

theorem roundUpFrame_statement {body : Tx α}
    (hbody : ∀ w r, body w.db = .ok r → RoundUpFrame w { w with db := r.2 }) :
    (transaction i [] body).Each RoundUpFrame :=
  transaction_each roundUpFrame_refl hbody

theorem roundUpFrame_addToGoals (shares : List Allocation) :
    (addToGoals i shares).Each RoundUpFrame := by
  induction shares with
  | nil => exact Prog.each_pure _
  | cons a shares ih =>
    refine Prog.each_bind (roundUpFrame_statement fun w r hr => ?_) fun _ => ih
    obtain ⟨G, hG, -⟩ := incrementGoal_ok hr
    exact .inr (.inl ⟨G, hG⟩)

theorem roundUpFrame_tryInitiate (ic : InitiateCall) :
    (tryInitiate env i ic).Each RoundUpFrame := by
  have hconfined : Confined [] [ic.pendingTxId] (initiate env i ic) :=
    initiate_confined env ic (List.mem_singleton.2 rfl)
  have hinit : (initiate env i ic).Each RoundUpFrame :=
    Prog.Each.imp hconfined fun w w' h => .inl ⟨_, h⟩
  exact Prog.each_tryCatch (Prog.each_bind hinit fun _ => Prog.each_pure _)
    fun _ => Prog.each_pure _

theorem roundUpFrame_applyForUser (c : SweepCall) (u : Uuid) (total : ℤ) :
    (applyForUser env i c u total).Each RoundUpFrame := by
  have hmark : (do
      transaction i [] (markApplied u (c.appliedAt u))
      return true : Service Bool).Each RoundUpFrame := by
    refine Prog.each_bind (roundUpFrame_statement fun w r hr => ?_) fun _ => Prog.each_pure _
    cases hr
    exact .inr (.inr ⟨_, rfl⟩)
  refine Prog.each_bind (roundUpFrame_quiet (quiet_query _)) fun config => ?_
  cases config with
  | none => exact Prog.each_pure _
  | some config =>
    simp only
    split
    · exact Prog.each_pure _
    · refine Prog.each_bind (roundUpFrame_quiet (quiet_savingsRoute u config)) fun route => ?_
      cases route with
      | none => exact Prog.each_pure _
      | some route =>
        refine Prog.each_bind (roundUpFrame_tryInitiate _) fun moved => ?_
        split
        · exact Prog.each_pure _
        · split
          · exact hmark
          · exact Prog.each_bind (roundUpFrame_addToGoals _) fun _ => hmark

theorem roundUpProgram_frames (env : Env) (i : ℕ) (c : RoundUpCall) :
    (roundUpProgram env i c).Each RoundUpFrame := by
  cases c with
  | settled c =>
    refine Prog.each_bind (Prog.each_tryCatch ?_ fun _ => Prog.each_pure _)
      fun _ => Prog.each_pure _
    refine Prog.each_bind (roundUpFrame_quiet (quiet_query _)) fun tx => ?_
    cases tx with
    | none => exact Prog.each_pure _
    | some tx =>
      simp only
      split
      · exact Prog.each_pure _
      · refine Prog.each_bind (roundUpFrame_quiet (quiet_query _)) fun config => ?_
        split
        · exact Prog.each_pure _
        · refine roundUpFrame_statement fun w r hr => ?_
          obtain ⟨R, hR, -⟩ := createRoundUp_ok hr
          exact .inr (.inr ⟨R, hR⟩)
  | daily c =>
    refine Prog.each_bind ?_ fun _ => Prog.each_pure _
    refine Prog.each_bind (roundUpFrame_quiet (quiet_query _)) fun groups => ?_
    -- one sweep after the other
    have hgroups : ∀ (groups : List (Uuid × ℤ)) (done : ℕ × ℤ),
        (applyGroups env i c groups done).Each RoundUpFrame := by
      intro groups
      induction groups with
      | nil => exact fun _ => Prog.each_pure _
      | cons g groups ih =>
        intro done
        unfold applyGroups
        split
        · exact ih done
        · exact Prog.each_bind (roundUpFrame_applyForUser c _ _) fun _ => ih _
    exact hgroups groups _

end Frame

/-- What a step does to the rows: nothing, a new row to apply, or the mark on all rows of a user
that are to be applied. -/
inductive RowStep (x : Step World RoundUpCall) : Prop
  | idle (hrows : x.post.db.roundUps = x.pre.db.roundUps)
  | recorded {r : Uuid} {row : RoundUp} (hsettled : x.call.isSweep = false)
      (hrow : row.appliedAt = none)
      (hcreated : Table.Created r row x.pre.db.roundUps x.post.db.roundUps)
  | marked {u : Uuid} {now : Instant} (hsweep : x.call.isSweep = true)
      (hrows : x.post.db.roundUps = RoundUps.applied u now x.pre.db.roundUps)

section Rows

variable {env : Env} {x : Step World RoundUpCall} {w₁ : World} {u r : Uuid}

theorem rowStep_of_change (hchange : RoundUpChange env w₁ x.pre.db x.post.db x.call)
    (hframe : RoundUpFrame x.pre x.post) : RowStep x := by
  generalize hcall : x.call = c at hchange
  cases hchange with
  | quiet hdb => exact .idle (by rw [hdb])
  | @recorded c row R hrow hdb hcreated =>
    have hrows : Table.Created c.rowId row x.pre.db.roundUps x.post.db.roundUps := by
      rw [hdb]
      exact hcreated
    exact .recorded (by rw [hcall]; rfl) hrow hrows
  | @debited c u source savings t _ hinitiated =>
    have hcreated : Table.Created (c.drawn u).transferId t _ _ := hinitiated.transfers
    rcases hframe with ⟨made, hframed⟩ | ⟨G, hdb⟩ | ⟨R, hdb⟩
    · exact .idle hframed.roundUps
    · exact .idle (by rw [hdb])
    · -- a transfer was made, so something beside the rows was written
      have hlookup := hcreated.lookup (c.drawn u).transferId
      rw [if_pos rfl, hdb] at hlookup
      have hnone := hcreated.1
      rw [hlookup] at hnone
      cases hnone
  | raised hraised =>
    obtain ⟨G, hdb, -⟩ := hraised
    exact .idle (by rw [hdb])
  | marked hdb => exact .marked (by rw [hcall]; rfl) (by rw [hdb])

theorem pendingRow_iff {db : Db} : PendingRow db u r ↔
    ∃ row, db.roundUps.lookup r = some row ∧ row.userId = u ∧ row.appliedAt = none := by
  rw [PendingRow, Option.any_eq_true]
  simp [isPending]

theorem appliedRow_iff {db : Db} : AppliedRow db r ↔
    ∃ row, db.roundUps.lookup r = some row ∧ row.appliedAt ≠ none := by
  rw [AppliedRow, Option.any_eq_true]
  simp [Option.isSome_iff_ne_none]

theorem PendingRow.not_applied {db : Db} (h : PendingRow db u r) : ¬ AppliedRow db r := by
  obtain ⟨row, hrow, -, hnone⟩ := pendingRow_iff.1 h
  intro happlied
  obtain ⟨row', hrow', hsome⟩ := appliedRow_iff.1 happlied
  obtain rfl := Option.some.inj (hrow.symm.trans hrow')
  exact hsome hnone

theorem mem_touchedBy : u ∈ touchedBy x ↔ ∃ r row, x.post.db.roundUps.lookup r = some row ∧
    x.pre.db.roundUps.lookup r ≠ some row ∧ row.userId = u := by
  simp only [touchedBy, List.mem_map, List.mem_filter, decide_eq_true_eq]
  constructor
  · rintro ⟨⟨r, row⟩, ⟨hmem, hne⟩, hu⟩
    exact ⟨r, row, Table.mem_entries_iff.1 hmem, hne, hu⟩
  · rintro ⟨r, row, hrow, hne, hu⟩
    exact ⟨⟨r, row⟩, ⟨Table.mem_entries_iff.2 hrow, hne⟩, hu⟩

theorem lookup_applied (v : Uuid) (now : Instant) (rows : Table Uuid RoundUp) (r : Uuid) :
    (RoundUps.applied v now rows).lookup r = (rows.lookup r).map fun row =>
      if isPending v row then { row with appliedAt := some now } else row :=
  Table.lookup_updateMany _ _ _ r

/-- A row stays, with its user, and stays marked. -/
theorem RowStep.row (hstep : RowStep x) {row : RoundUp}
    (hrow : x.pre.db.roundUps.lookup r = some row) :
    ∃ row', x.post.db.roundUps.lookup r = some row' ∧ row'.userId = row.userId ∧
      (row.appliedAt ≠ none → row'.appliedAt ≠ none) := by
  cases hstep with
  | idle hrows =>
    rw [hrows]
    exact ⟨row, hrow, rfl, id⟩
  | recorded _ _ hcreated => exact ⟨row, hcreated.lookup_old hrow, rfl, id⟩
  | @marked v now _ hrows =>
    rw [hrows, lookup_applied, hrow, Option.map_some]
    refine ⟨_, rfl, ?_, ?_⟩
    · split <;> rfl
    · split
      · simp
      · exact id

theorem RowStep.applied (hstep : RowStep x) (h : AppliedRow x.pre.db r) :
    AppliedRow x.post.db r := by
  obtain ⟨row, hrow, hsome⟩ := appliedRow_iff.1 h
  obtain ⟨row', hrow', -, hsome'⟩ := hstep.row hrow
  exact appliedRow_iff.2 ⟨row', hrow', hsome' hsome⟩

/-- A row that is found marked after a step was marked before it, or is one of those that the step,
of a sweep, marks. -/
theorem RowStep.origin (hstep : RowStep x) (h : AppliedRow x.post.db r) :
    AppliedRow x.pre.db r ∨ ∃ u, PendingRow x.pre.db u r ∧ MarksRows u x := by
  obtain ⟨row', hrow', hsome⟩ := appliedRow_iff.1 h
  cases hstep with
  | idle hrows =>
    rw [hrows] at hrow'
    exact .inl (appliedRow_iff.2 ⟨row', hrow', hsome⟩)
  | recorded _ hrow hcreated =>
    rw [hcreated.lookup] at hrow'
    split at hrow'
    · obtain rfl := Option.some.inj hrow'
      exact absurd hrow hsome
    · exact .inl (appliedRow_iff.2 ⟨row', hrow', hsome⟩)
  | @marked v now hsweep hrows =>
    have hlookup := hrow'
    rw [hrows, lookup_applied] at hlookup
    obtain ⟨row, hrow, hnew⟩ := Option.map_eq_some_iff.1 hlookup
    split at hnew
    · rename_i hp
      simp only [isPending, Bool.decide_and, Bool.and_eq_true, decide_eq_true_eq] at hp
      have hne : x.pre.db.roundUps.lookup r ≠ some row' := by
        intro hsame
        obtain rfl := Option.some.inj (hrow.symm.trans hsame)
        exact hsome hp.2
      refine .inr ⟨v, pendingRow_iff.2 ⟨row, hrow, hp⟩, hsweep, ?_⟩
      refine mem_touchedBy.2 ⟨r, row', hrow', hne, ?_⟩
      rw [← hnew]
      exact hp.1
    · rw [hnew] at hrow
      exact .inl (appliedRow_iff.2 ⟨row', hrow, hsome⟩)

/-- The rows to apply of a user whose rows a step does not touch are the same after it. -/
theorem RowStep.untouched (hstep : RowStep x) (hu : u ∉ touchedBy x) :
    PendingRow x.pre.db u r ↔ PendingRow x.post.db u r := by
  rw [mem_touchedBy] at hu
  constructor
  · intro hpending
    obtain ⟨row, hrow, huser, hnone⟩ := pendingRow_iff.1 hpending
    obtain ⟨row', hrow', huser', -⟩ := hstep.row hrow
    have hsame : x.pre.db.roundUps.lookup r = some row' := by
      by_contra hne
      exact hu ⟨r, row', hrow', hne, huser'.trans huser⟩
    obtain rfl := Option.some.inj (hrow.symm.trans hsame)
    exact pendingRow_iff.2 ⟨row, hrow', huser, hnone⟩
  · intro hpending
    obtain ⟨row, hrow, huser, hnone⟩ := pendingRow_iff.1 hpending
    have hsame : x.pre.db.roundUps.lookup r = some row := by
      by_contra hne
      exact hu ⟨r, row, hrow, hne, huser⟩
    exact pendingRow_iff.2 ⟨row, hsame, huser, hnone⟩

/-- A mark is on all rows of the user that are to be applied. -/
theorem RowStep.marks (hstep : RowStep x) (hmarks : MarksRows u x)
    (hpending : PendingRow x.pre.db u r) : AppliedRow x.post.db r := by
  obtain ⟨hsweep, htouched⟩ := hmarks
  obtain ⟨r', row', hrow', hne, huser'⟩ := mem_touchedBy.1 htouched
  obtain ⟨row, hrow, huser, hnone⟩ := pendingRow_iff.1 hpending
  cases hstep with
  | idle hrows =>
    rw [hrows] at hrow'
    exact absurd hrow' hne
  | recorded hsettled _ _ =>
    rw [hsettled] at hsweep
    cases hsweep
  | @marked v now _ hrows =>
    -- the row that was touched tells whose rows were marked
    have hv : v = u := by
      rw [hrows, lookup_applied] at hrow'
      obtain ⟨old, hold, hnew⟩ := Option.map_eq_some_iff.1 hrow'
      split at hnew
      · rename_i hp
        simp only [isPending, Bool.decide_and, Bool.and_eq_true, decide_eq_true_eq] at hp
        rw [← hp.1, ← huser', ← hnew]
      · rw [hnew] at hold
        exact absurd hold hne
    subst hv
    refine appliedRow_iff.2 ⟨{ row with appliedAt := some now }, ?_, by simp⟩
    rw [hrows, lookup_applied, hrow, Option.map_some, if_pos]
    simp [isPending, huser, hnone]

end Rows

/-! ## Transfers -/

theorem mem_sweptBy {x : Step World RoundUpCall} {m : Uuid × Uuid} : m ∈ sweptBy x ↔
    ∃ t, x.post.db.transfers.lookup m.2 = some t ∧ x.pre.db.transfers.lookup m.2 = none ∧
      t.initiatedByUserId = m.1 := by
  simp only [sweptBy, List.mem_map, List.mem_filter, Option.isNone_iff_eq_none]
  constructor
  · rintro ⟨⟨id, t⟩, ⟨hmem, hnone⟩, rfl⟩
    exact ⟨t, Table.mem_entries_iff.1 hmem, hnone, rfl⟩
  · rintro ⟨t, ht, hnone, hu⟩
    exact ⟨⟨m.2, t⟩, ⟨Table.mem_entries_iff.2 ht, hnone⟩, Prod.ext hu rfl⟩

/-- A step that makes a transfer for a user is of a sweep, and moves what was to be applied for the
user when the sweep began, under the id drawn for the user. -/
theorem swept_of_change {env : Env} {w₁ : World} {x : Step World RoundUpCall} {m : Uuid × Uuid}
    (hchange : RoundUpChange env w₁ x.pre.db x.post.db x.call) (hm : m ∈ sweptBy x) :
    ∃ c t, x.call = .daily c ∧ m.2 = (c.drawn m.1).transferId ∧
      x.post.db.transfers.lookup m.2 = some t ∧ t.amountCents = pendingSum w₁.db m.1 := by
  obtain ⟨t, ht, hnone, huser⟩ := mem_sweptBy.1 hm
  have hsame : x.post.db.transfers ≠ x.pre.db.transfers := by
    intro h
    rw [h, hnone] at ht
    cases ht
  generalize hcall : x.call = c at hchange
  cases hchange with
  | quiet hdb => exact absurd (by rw [hdb]) hsame
  | recorded _ hdb _ => exact absurd (by rw [hdb]) hsame
  | raised hraised =>
    obtain ⟨G, hdb, -⟩ := hraised
    exact absurd (by rw [hdb]) hsame
  | marked hdb => exact absurd (by rw [hdb]) hsame
  | @debited c u source savings t' hadmitted hinitiated =>
    have hcreated : Table.Created (c.drawn u).transferId t' x.pre.db.transfers
        x.post.db.transfers := hinitiated.transfers
    have hlookup := hcreated.lookup m.2
    split at hlookup
    · rename_i hid
      rw [ht] at hlookup
      obtain rfl := Option.some.inj hlookup
      obtain ⟨s, fx, toAccount, hs, -, htransfer⟩ := hadmitted.row
      simp only [resolveSettlement, sweepTransfer, putAside, pure, Except.pure, Except.ok.injEq,
        Prod.mk.injEq] at hs
      have hu : u = m.1 := by
        rw [← huser, htransfer]
        rfl
      subst hu
      refine ⟨c, t, rfl, hid, ht, ?_⟩
      rw [htransfer, hs.1]
      rfl
    · rw [ht, hnone] at hlookup
      cases hlookup

/-! ## Rows over a run -/

section Run

variable {env : Env} {w₀ : World} {tr : List (Step World RoundUpCall)}
  {P : Pool World Error Answer RoundUpCall}

theorem roundUp_steps (hrun : Run (roundUpProgram env) (fun _ => True) w₀ tr P) :
    (RoundUps.roundUps env).Steps w₀ tr :=
  (hrun.follows (RoundUps.roundUps env) (fun i c h _ => (roundUp_begins env i c h).follows)
    rely_refl).1

theorem roundUp_rowSteps (hrun : Run (roundUpProgram env) (fun _ => True) w₀ tr P) :
    ∀ x ∈ tr, RowStep x := by
  intro x hx
  have hframe := (hrun.each (Q := fun _ => RoundUpFrame)
    fun i c _ => roundUpProgram_frames env i c).1 x hx
  obtain ⟨later, earlier, rfl⟩ := List.append_of_mem hx
  obtain ⟨-, past, hpast, w₁, hguar⟩ := (roundUp_steps hrun).split
  exact rowStep_of_change (hguar _ _ hpast).1 hframe

/-- What a sweep moves, over a run. -/
theorem roundUp_swept (hrun : Run (roundUpProgram env) (fun _ => True) w₀ tr P)
    {later earlier : List (Step World RoundUpCall)} {x : Step World RoundUpCall}
    (hsplit : tr = later ++ x :: earlier) {m : Uuid × Uuid} (hm : m ∈ sweptBy x) :
    ∃ c t w₁, x.call = .daily c ∧ m.2 = (c.drawn m.1).transferId ∧
      begun x.tid (x :: earlier) = some w₁ ∧ x.post.db.transfers.lookup m.2 = some t ∧
      t.amountCents = pendingSum w₁.db m.1 := by
  have hbegins := (hrun.begins (RoundUps.roundUps env) (G := roundUpGuar env)
    (fun hg => ⟨_, hg⟩) (fun i c h _ => roundUp_begins env i c h) rely_refl).1
  obtain ⟨w₁, hbegun, hguar⟩ := hbegins later x earlier hsplit
  have hsteps := roundUp_steps hrun
  rw [hsplit] at hsteps
  obtain ⟨-, past, hpast, -⟩ := hsteps.split
  obtain ⟨c, t, hc, hid, ht, hamount⟩ := swept_of_change (hguar _ _ hpast).1 hm
  exact ⟨c, t, w₁, hc, hid, hbegun, ht, hamount⟩

variable (hsteps : (RoundUps.roundUps env).Steps w₀ tr) (hrows : ∀ x ∈ tr, RowStep x)

include hsteps hrows in
/-- A row that is marked after a step stays so. -/
theorem applied_after {later earlier : List (Step World RoundUpCall)} {x : Step World RoundUpCall}
    (hsplit : tr = later ++ x :: earlier) {r : Uuid} (h : AppliedRow x.post.db r) :
    (∀ y ∈ later, AppliedRow y.pre.db r) ∧
      ∀ w past, visited w₀ tr = w :: past → AppliedRow w.db r := by
  subst hsplit
  obtain ⟨hpre, hlast⟩ := hsteps.after (I := fun w => AppliedRow w.db r) h
    fun y mid past hy _ _ _ _ hI => (hrows y (List.mem_append_left _ hy)).applied hI
  refine ⟨hpre, fun w past hw => ?_⟩
  rw [visited_from] at hw
  cases hvisited : visited x.post later with
  | nil => simp [visited] at hvisited
  | cons w' past' =>
    rw [hvisited, List.cons_append] at hw
    obtain ⟨rfl, -⟩ := List.cons.inj hw
    exact hlast w' past' hvisited

include hsteps hrows in
/-- A row that is marked in the end, and was not at first, was marked by a step of a sweep. -/
theorem marked_at {r : Uuid} (hstart : ¬ AppliedRow w₀.db r) {w : World} {past : List World}
    (hw : visited w₀ tr = w :: past) (h : AppliedRow w.db r) :
    ∃ later x earlier u, tr = later ++ x :: earlier ∧ PendingRow x.pre.db u r ∧ MarksRows u x := by
  refine hsteps.induct (I := fun tr w => AppliedRow w.db r → ∃ later x earlier u,
    tr = later ++ x :: earlier ∧ PendingRow x.pre.db u r ∧ MarksRows u x)
    (fun h => absurd h hstart) ?_ w past hw h
  intro earlier x past' hx _ _ ih _ happlied
  rcases (hrows x hx).origin happlied with hbefore | ⟨u, hpending, hmarks⟩
  · obtain ⟨later, y, before, u, rfl, hy⟩ := ih hbefore
    exact ⟨x :: later, y, before, u, rfl, hy⟩
  · exact ⟨[], x, earlier, u, rfl, hpending, hmarks⟩

include hsteps hrows in
/-- The rows to apply of a user are those that a thread found when it began, if nothing touched them
since. -/
theorem pending_since {i : ℕ} {u r : Uuid} {w₁ w : World} {past : List World}
    (hw : visited w₀ tr = w :: past) (hbegun : begun i tr = some w₁)
    (halone : ∀ y ∈ sinceBegun i tr, u ∉ touchedBy y) :
    PendingRow w₁.db u r ↔ PendingRow w.db u r := by
  refine hsteps.induct (I := fun tr w => ∀ w₁, begun i tr = some w₁ →
    (∀ y ∈ sinceBegun i tr, u ∉ touchedBy y) → (PendingRow w₁.db u r ↔ PendingRow w.db u r))
    (fun w₁ h => by cases h) ?_ w past hw w₁ hbegun halone
  intro earlier x past' hx _ _ ih _ w₁ hbegun halone
  have hsince : sinceBegun i (x :: earlier) = x :: sinceBegun i earlier := by
    rw [sinceBegun, if_pos (by rw [hbegun]; rfl)]
  rw [hsince] at halone
  have hstep := (hrows x hx).untouched (r := r) (halone x List.mem_cons_self)
  cases hearlier : begun i earlier with
  | some w' =>
    rw [begun_cons_of_some hearlier] at hbegun
    obtain rfl := Option.some.inj hbegun
    exact (ih w' hearlier fun y hy => halone y (List.mem_cons_of_mem _ hy)).trans hstep
  | none =>
    simp only [begun, hearlier] at hbegun
    split at hbegun
    · obtain rfl := Option.some.inj hbegun
      exact hstep
    · cases hbegun

include hsteps hrows in
/-- A row is marked by one step only. -/
theorem marked_once {l₁ l₂ e₁ e₂ : List (Step World RoundUpCall)} {x z : Step World RoundUpCall}
    {r : Uuid} (hx : tr = l₁ ++ x :: e₁) (hz : tr = l₂ ++ z :: e₂)
    (hxpre : ¬ AppliedRow x.pre.db r) (hxpost : AppliedRow x.post.db r)
    (hzpre : ¬ AppliedRow z.pre.db r) (hzpost : AppliedRow z.post.db r) : x = z := by
  have hxafter := (applied_after hsteps hrows hx hxpost).1
  have hzafter := (applied_after hsteps hrows hz hzpost).1
  rcases List.append_eq_append_iff.1 (hx.symm.trans hz) with ⟨mid, rfl, hmid⟩ | ⟨mid, rfl, hmid⟩
  · cases mid with
    | nil => exact (List.cons.inj hmid).1
    | cons y mid =>
      -- `x` comes after `z`, so the row was marked before it
      obtain ⟨rfl, -⟩ := List.cons.inj hmid
      exact absurd (hzafter x (by simp)) hxpre
  · cases mid with
    | nil => exact (List.cons.inj hmid).1.symm
    | cons y mid =>
      obtain ⟨rfl, -⟩ := List.cons.inj hmid
      exact absurd (hxafter z (by simp)) hzpre

include hsteps hrows in
/-- When a sweep marks rows of a user, these are the rows it found when it began. -/
theorem pending_at_mark (hunbroken : EachStep Unbroken [] tr)
    {later earlier : List (Step World RoundUpCall)} {x : Step World RoundUpCall}
    (hsplit : tr = later ++ x :: earlier) {u : Uuid} (hmarks : MarksRows u x) {w₁ : World}
    (hbegun : begun x.tid earlier = some w₁) (r : Uuid) :
    PendingRow w₁.db u r ↔ PendingRow x.pre.db u r := by
  subst hsplit
  have hclear : Unbroken later x earlier := hunbroken.split
  obtain ⟨hbefore, past, hpast, -⟩ := hsteps.split
  exact pending_since hbefore
    (fun y hy => hrows y (List.mem_append_right _ (List.mem_cons_of_mem _ hy))) hpast hbegun
    (hclear.alone hmarks.1 u hmarks.2)

include hsteps hrows in
/-- A row that is in the sum of a transfer is marked by the sweep that made the transfer. -/
theorem marked_of_included (hunbroken : EachStep Unbroken [] tr)
    {later earlier : List (Step World RoundUpCall)} {y : Step World RoundUpCall}
    (hsplit : tr = later ++ y :: earlier) {m : Uuid × Uuid} (hm : m ∈ sweptBy y) {w₁ : World}
    (hbegun : begun y.tid (y :: earlier) = some w₁) {r : Uuid} (hpending : PendingRow w₁.db m.1 r) :
    ∃ l z e, tr = l ++ z :: e ∧ z.tid = y.tid ∧ PendingRow z.pre.db m.1 r ∧
      AppliedRow z.post.db r := by
  have hy : Unbroken later y earlier := EachStep.split (hsplit ▸ hunbroken)
  obtain ⟨z, hz, htid, hmarks⟩ := hy.completed m hm
  obtain ⟨l, mid, rfl⟩ := List.append_of_mem hz
  have hzsplit : tr = l ++ z :: (mid ++ y :: earlier) := by
    rw [hsplit, List.append_assoc, List.cons_append]
  have hzbegun : begun z.tid (mid ++ y :: earlier) = some w₁ := by
    rw [htid]
    exact begun_append hbegun mid
  have hzpending := (pending_at_mark hsteps hrows hunbroken hzsplit hmarks hzbegun r).1 hpending
  have hzrow : RowStep z := hrows z (by rw [hzsplit]; simp)
  exact ⟨l, z, _, hzsplit, htid, hzpending, hzrow.marks hmarks hzpending⟩

/-- A row that a sweep marks is in the sum of the transfer that the sweep made for the user. -/
theorem included_of_marked (hrun : Run (roundUpProgram env) (fun _ => True) w₀ tr P)
    (hunbroken : EachStep Unbroken [] tr)
    {later earlier : List (Step World RoundUpCall)} {x : Step World RoundUpCall}
    (hsplit : tr = later ++ x :: earlier) {u r : Uuid} (hmarks : MarksRows u x)
    (hpending : PendingRow x.pre.db u r) :
    ∃ c, x.call = .daily c ∧ Includes tr (c.drawn u).transferId r := by
  have hclear : Unbroken later x earlier := EachStep.split (hsplit ▸ hunbroken)
  obtain ⟨y, hy, htid, m, hm, rfl⟩ := hclear.own hmarks.1 u hmarks.2
  obtain ⟨mid, before, rfl⟩ := List.append_of_mem hy
  have hysplit : tr = (later ++ x :: mid) ++ y :: before := by
    rw [hsplit, List.append_assoc, List.cons_append]
  obtain ⟨c, t, w₁, hc, hid, hbegun, -, -⟩ := roundUp_swept hrun hysplit hm
  have hcall : x.call = y.call := hrun.call_eq (by rw [hsplit]; simp) (by rw [hysplit]; simp)
    htid.symm
  have hxbegun : begun x.tid (mid ++ y :: before) = some w₁ := by
    rw [← htid]
    exact begun_append hbegun mid
  have hfound := (pending_at_mark (roundUp_steps hrun) (roundUp_rowSteps hrun) hunbroken hsplit
    hmarks hxbegun r).2 hpending
  exact ⟨c, hcall.trans hc, _, y, before, hysplit, m, hm, hid, w₁, hbegun, hfound⟩

end Run

/-- **The round-up sweep.** In every interleaving of recorded round-ups and sweeps, with calls cut
off anywhere, from a state in which no row is marked applied: where no sweep is broken (`Unbroken`),
every row that is marked is in the sum of exactly one transfer, and every other row in none. -/
theorem sweeps_sound (env : Env) (w₀ : World) (hstart : ∀ r, ¬ AppliedRow w₀.db r)
    (tr : List (Step World RoundUpCall)) (P : Pool World Error Answer RoundUpCall)
    (hrun : Run (roundUpProgram env) (fun _ => True) w₀ tr P)
    (hunbroken : EachStep Unbroken [] tr) : SweepsSound tr P.state.db := by
  have hsteps := roundUp_steps hrun
  have hrows := roundUp_rowSteps hrun
  obtain ⟨past, hlast⟩ := hrun.visited_eq
  refine ⟨fun r happlied => ?_, fun r hnot id hincludes => ?_, ?_⟩
  · obtain ⟨later, x, earlier, u, hx, hpending, hmarks⟩ :=
      marked_at hsteps hrows (hstart r) hlast happlied
    obtain ⟨c, hc, hincludes⟩ := included_of_marked hrun hunbroken hx hmarks hpending
    have hxpost := (hrows x (by rw [hx]; simp)).marks hmarks hpending
    refine ⟨_, hincludes, ?_⟩
    -- another transfer with the row would be of the sweep that marked it
    rintro id' ⟨later', y, earlier', hy, m, hm, rfl, w₁, hbegun, hfound⟩
    obtain ⟨l, z, e, hz, htid, hzpending, hzpost⟩ :=
      marked_of_included hsteps hrows hunbroken hy hm hbegun hfound
    obtain rfl := marked_once hsteps hrows hx hz hpending.not_applied hxpost
      hzpending.not_applied hzpost
    have huser : m.1 = u := by
      obtain ⟨row, hrow, hu, -⟩ := pendingRow_iff.1 hpending
      obtain ⟨row', hrow', hu', -⟩ := pendingRow_iff.1 hzpending
      obtain rfl := Option.some.inj (hrow.symm.trans hrow')
      exact hu'.symm.trans hu
    obtain ⟨c', t, w', hc', hid, -⟩ := roundUp_swept hrun hy hm
    have hcall : x.call = y.call := hrun.call_eq (by rw [hx]; simp) (by rw [hy]; simp) htid
    rw [hc, hc', RoundUpCall.daily.injEq] at hcall
    rw [hid, huser, hcall]
  · obtain ⟨later, y, earlier, hy, m, hm, rfl, w₁, hbegun, hfound⟩ := hincludes
    obtain ⟨l, z, e, hz, -, -, hzpost⟩ :=
      marked_of_included hsteps hrows hunbroken hy hm hbegun hfound
    exact hnot ((applied_after hsteps hrows hz hzpost).2 _ _ hlast)
  · intro later x earlier hx m hm
    obtain ⟨c, t, w₁, -, -, hbegun, ht, hamount⟩ := roundUp_swept hrun hx hm
    exact ⟨w₁, t, hbegun, ht, hamount⟩

/-- A sweep of Ann's round-ups, with a purchase of hers recorded after it. -/
def sampleSwept : List (Choice RoundUpCall) :=
  .call (.settled ⟨1, 900, 96⟩) :: .step 0 :: .call (.daily (sampleSweep 130)) ::
    List.replicate 24 (.step 1) ++ List.replicate 4 (.step 0)

theorem sampleSaver_pending (r : Uuid) : ¬ AppliedRow sampleSaver.db r := by
  intro h
  obtain ⟨row, hrow, hsome⟩ := appliedRow_iff.1 h
  have hnone : ∀ e ∈ sampleSaver.db.roundUps.entries, e.2.appliedAt = none := by decide
  exact hsome (hnone ⟨r, row⟩ (Table.mem_entries_iff.2 hrow))

theorem sweeps_sound_sample :
    AppliedRow (exec (roundUpProgram sampleEnv) sampleSaver sampleSwept).2.state.db 90 ∧
      PendingRow (exec (roundUpProgram sampleEnv) sampleSaver sampleSwept).2.state.db 1 96 ∧
      SweepsSound (exec (roundUpProgram sampleEnv) sampleSaver sampleSwept).1
        (exec (roundUpProgram sampleEnv) sampleSaver sampleSwept).2.state.db :=
  ⟨by decide +kernel, by decide +kernel, sweeps_sound sampleEnv sampleSaver sampleSaver_pending _ _
    (exec_run sampleSwept fun _ _ => trivial) (by decide +kernel)⟩

theorem not_includes {tr : List (Step World RoundUpCall)} {r : Uuid}
    (h : EachStep (fun _ x earlier => ∀ m ∈ sweptBy x, ∀ w ∈ begun x.tid (x :: earlier),
      ¬ PendingRow w.db m.1 r) [] tr) (id : Uuid) : ¬ Includes tr id r := by
  rintro ⟨later, x, earlier, rfl, m, hm, -, w, hw, hpending⟩
  exact h.split m hm w hw hpending

/-- Another sweep on the same day. -/
def sampleSweptTwice : List (Choice RoundUpCall) :=
  sampleSwept ++ .call (.daily (sampleSweep 140)) :: List.replicate 24 (.step 2)

/-- The purchase that is recorded after the sweep is marked by a second one on the same day, whose
transfer is that of the first. -/
theorem round_up_marked_unswept :
    ¬ ∀ (env : Env) (w₀ : World), (∀ r, ¬ AppliedRow w₀.db r) →
        ∀ (tr : List (Step World RoundUpCall)) (P : Pool World Error Answer RoundUpCall),
        Run (roundUpProgram env) (fun _ => True) w₀ tr P → SweepsSound tr P.state.db := by
  intro h
  have hsound := h sampleEnv sampleSaver sampleSaver_pending _ _
    (exec_run sampleSweptTwice fun _ _ => trivial)
  have happlied : AppliedRow
      (exec (roundUpProgram sampleEnv) sampleSaver sampleSweptTwice).2.state.db 96 := by
    decide +kernel
  obtain ⟨id, hincludes, -⟩ := hsound.applied 96 happlied
  exact not_includes (by decide +kernel) id hincludes

end BankDemo
