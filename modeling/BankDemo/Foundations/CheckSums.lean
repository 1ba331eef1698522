import Mathlib.Algebra.BigOperators.Group.List.Basic
import Mathlib.Algebra.Group.Basic
import Mathlib.Data.Set.Function
import Mathlib.Tactic.Abel

/-!
# Check sums

Words over an alphabet whose entries are weighed by their place, counted from the right, and
added up. When the weights of every place tell the entries of the alphabet apart, no change of a
single entry keeps the sum (`checksum_set_ne`).
-/

namespace BankDemo.CheckSums

variable {α M N : Type*}

/-- The sum of the weights of a word: `w place a` is what `a` counts with `place` entries on its
right. -/
def checksum [Add M] [Zero M] (w : ℕ → α → M) : List α → M
  | [] => 0
  | a :: l => w l.length a + checksum w l

section Monoid

variable [AddCommMonoid M] [AddCommMonoid N] (w : ℕ → α → M)

@[simp]
theorem checksum_nil : checksum w [] = 0 := rfl

@[simp]
theorem checksum_cons (a : α) (l : List α) : checksum w (a :: l) = w l.length a + checksum w l :=
  rfl

/-- The places of the first part of a word are those left of the second part. -/
theorem checksum_append (l m : List α) :
    checksum w (l ++ m) = checksum (fun place => w (place + m.length)) l + checksum w m := by
  induction l with
  | nil => simp
  | cons a l ih => simp only [List.cons_append, checksum_cons, List.length_append, ih, add_assoc]

/-- A check entry at the end stands at place 0 and moves the others by one. -/
theorem checksum_concat (l : List α) (a : α) :
    checksum w (l ++ [a]) = checksum (fun place => w (place + 1)) l + w 0 a := by
  simp [checksum_append]

/-- The sum taken from right to left, with the places as indices. -/
theorem sum_zipIdx_reverse (l : List α) :
    (l.reverse.zipIdx.map fun x => w x.2 x.1).sum = checksum w l := by
  induction l with
  | nil => rfl
  | cons a l ih =>
    rw [List.reverse_cons, List.zipIdx_append, List.map_append, List.sum_append, ih]
    simp [add_comm]

theorem map_checksum (f : M →+ N) (l : List α) :
    f (checksum w l) = checksum (fun place a => f (w place a)) l := by
  induction l with
  | nil => exact f.map_zero
  | cons a l ih => rw [checksum_cons, map_add, ih, checksum_cons]

theorem checksum_congr {w w' : ℕ → α → M} {l : List α}
    (h : ∀ a ∈ l, ∀ place, w place a = w' place a) : checksum w l = checksum w' l := by
  induction l with
  | nil => rfl
  | cons a l ih =>
    rw [checksum_cons, checksum_cons, h a (by simp), ih fun b hb => h b (List.mem_cons_of_mem a hb)]

end Monoid

section Group

variable [AddCommGroup M] (w : ℕ → α → M)

/-- What a change of one entry does to the sum. -/
theorem checksum_set {l : List α} {i : ℕ} (hi : i < l.length) (b : α) :
    checksum w (l.set i b) + w (l.length - 1 - i) l[i] =
      checksum w l + w (l.length - 1 - i) b := by
  induction l generalizing i with
  | nil => exact absurd hi (Nat.not_lt_zero i)
  | cons a l ih =>
    cases i with
    | zero =>
      simp only [List.set_cons_zero, checksum_cons, List.length_cons, List.getElem_cons_zero,
        Nat.add_sub_cancel, Nat.sub_zero]
      abel
    | succ i =>
      have hplace : l.length + 1 - 1 - (i + 1) = l.length - 1 - i := by omega
      have h := ih (Nat.lt_of_succ_lt_succ hi)
      simp only [List.set_cons_succ, checksum_cons, List.length_set, List.length_cons,
        List.getElem_cons_succ, hplace, add_assoc, h]

/-- **A single change shows.** -/
theorem checksum_set_ne {alphabet : Set α} (hw : ∀ place, Set.InjOn (w place) alphabet)
    {l : List α} (hl : ∀ a ∈ l, a ∈ alphabet) {i : ℕ} (hi : i < l.length) {b : α}
    (hb : b ∈ alphabet) (hne : l[i] ≠ b) : checksum w (l.set i b) ≠ checksum w l := by
  intro heq
  have h := checksum_set w hi b
  rw [heq] at h
  exact hne (hw _ (hl _ (List.getElem_mem hi)) hb (add_left_cancel h))

end Group

end BankDemo.CheckSums
