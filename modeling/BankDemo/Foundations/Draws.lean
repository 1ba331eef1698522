import Mathlib.Data.Fintype.BigOperators

/-!
# Words drawn letter by letter

A letter is drawn by a function of an element of a finite type, and a word by one element for each of its
letters. A word is then drawn in as many ways as the product over its letters says (`card_words`): where
every letter is drawn in the same number of ways, so is every word (`card_words_const`).
-/

namespace BankDemo.Draws

open Finset

variable {α β : Type*} [Fintype α] [DecidableEq β] {n : ℕ} (letter : α → β)

/-- The draws of a word are the draws of its letters. -/
theorem card_words (word : Fin n → β) :
    #{d : Fin n → α | ∀ i, letter (d i) = word i} = ∏ i, #{a | letter a = word i} := by
  classical
  rw [← Fintype.card_piFinset]
  congr 1
  ext d
  simp [Fintype.mem_piFinset]

/-- Every word is drawn in as many ways as the others. -/
theorem card_words_const {m : ℕ} (word : Fin n → β) (hm : ∀ i, #{a | letter a = word i} = m) :
    #{d : Fin n → α | ∀ i, letter (d i) = word i} = m ^ n := by
  rw [card_words, prod_congr rfl fun i _ => hm i, prod_const, card_univ, Fintype.card_fin]

end BankDemo.Draws
