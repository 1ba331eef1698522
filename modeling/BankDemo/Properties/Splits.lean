import BankDemo.Autosave.Splits

/-!
# Splits lose no cent

`splits_allocated`: an amount is split over the goals of a configuration to the cent, whatever the
percentages are, unless all are zero; then nothing is assigned.
-/

namespace BankDemo.Autosave

open Goals

/-- **Splits lose no cent**, unless every percentage is zero. -/
theorem splits_allocated {splits : List GoalSplit} (hnonneg : ∀ s ∈ splits, 0 ≤ s.percent)
    {amountCents : ℤ} (hamount : 0 ≤ amountCents) :
    (normalizeSplits splits = [] ↔ ∀ s ∈ splits, s.percent = 0) ∧
      ((¬ ∀ s ∈ splits, s.percent = 0) → Normalized splits (normalizeSplits splits) ∧
        Allocated amountCents (normalizeSplits splits)
          (allocateCents amountCents (normalizeSplits splits)) ∧
        (normalizeSplits splits).length ≤ splits.length) ∧
      ((∀ s ∈ splits, s.percent = 0) →
        allocateCents amountCents (normalizeSplits splits) = []) := by
  have hzero := positive_eq_nil hnonneg
  have hnil : positive splits = [] → normalizeSplits splits = [] :=
    fun h => normalizeSplitsBy_nil h
  refine ⟨⟨fun h => ?_, fun h => hnil (hzero.2 h)⟩, fun h => ?_, fun h => ?_⟩
  · by_contra hsome
    have hsum := (normalizeSplits_normalized (fun hpositive => hsome (hzero.1 hpositive))).sum
    rw [h] at hsum
    cases hsum
  · have hnormalized := normalizeSplits_normalized (fun hpositive => h (hzero.1 hpositive))
    refine ⟨hnormalized, allocateCents_allocated hamount hnormalized.nonneg hnormalized.sum, ?_⟩
    have hlength := hnormalized.goals.length_eq
    rw [List.length_map, List.length_map] at hlength
    rw [hlength]
    exact List.length_filter_le _ _
  · rw [hnil (hzero.2 h)]
    simp [allocateCents]

/-- Two goals of one id, and one that does not count. -/
def sampleSplits : List GoalSplit := [⟨1, 30⟩, ⟨2, 0⟩, ⟨1, 70⟩, ⟨3, 100⟩]

theorem sampleSplits_allocated : Normalized sampleSplits (normalizeSplits sampleSplits) ∧
    Allocated 101 (normalizeSplits sampleSplits)
      (allocateCents 101 (normalizeSplits sampleSplits)) ∧
    (normalizeSplits sampleSplits).length ≤ sampleSplits.length :=
  (splits_allocated (by decide) (by decide)).2.1 (by decide)

/-- Where no goal counts, a cent is not assigned. -/
theorem zeroSplits_unassigned : shareSum (allocateCents 1 (normalizeSplits [⟨1, 0⟩])) ≠ 1 := by
  decide

end BankDemo.Autosave
