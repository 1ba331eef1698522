import Mathlib.Data.List.Basic

/-!
# Scanning a list into blocks

A `while` loop as its round, iterated (`loop`), with the rule for total correctness: an invariant
that every round keeps and a measure that every round lowers (`loop_total`).

The blocks that a scan cuts a list into, each fitting between what stands before it and what comes
after (`Segments`), and the maximal runs of entries of a kind (`MaximalRun`).
-/

namespace BankDemo.Scanning

/-! ## Loops -/

section Loops

variable {σ : Type*}

/-- A loop within a number of rounds, none if it takes more: `round` gives the state after one
round, and none when the loop is over. -/
def loop (round : σ → Option σ) : ℕ → σ → Option σ
  | 0, _ => none
  | fuel + 1, s =>
    match round s with
    | none => some s
    | some s' => loop round fuel s'

/-- **Total correctness of a loop.** It ends, in a state with the invariant, after as many rounds as
the measure allows. -/
theorem loop_total {round : σ → Option σ} {inv : σ → Prop} {measure : σ → ℕ}
    (hround : ∀ {s s'}, inv s → round s = some s' → inv s' ∧ measure s' < measure s) {s : σ}
    (hs : inv s) :
    ∃ s', inv s' ∧ round s' = none ∧ ∀ fuel, measure s < fuel → loop round fuel s = some s' := by
  induction hm : measure s using Nat.strongRecOn generalizing s with
  | ind m ih =>
    subst hm
    cases hnext : round s with
    | none =>
      refine ⟨s, hs, hnext, fun fuel hfuel => ?_⟩
      obtain ⟨k, rfl⟩ : ∃ k, fuel = k + 1 := ⟨fuel - 1, by omega⟩
      rw [loop, hnext]
    | some t =>
      obtain ⟨ht, hlt⟩ := hround hs hnext
      obtain ⟨s', hs', hend, hloop⟩ := ih _ hlt ht rfl
      refine ⟨s', hs', hend, fun fuel hfuel => ?_⟩
      obtain ⟨k, rfl⟩ : ∃ k, fuel = k + 1 := ⟨fuel - 1, by omega⟩
      rw [loop, hnext]
      exact hloop k (by omega)

end Loops

/-! ## Blocks -/

section Blocks

variable {α β : Type*} {entries : β → List α} {fits : List α → β → List α → Prop}

/-- Every block fits between the entries of those before it and the entries of those after it,
with a rest behind the last. -/
def AllFit (entries : β → List α) (fits : List α → β → List α → Prop) (blocks : List β)
    (rest : List α) : Prop :=
  ∀ before block after, blocks = before ++ block :: after →
    fits (before.flatMap entries) block (after.flatMap entries ++ rest)

theorem allFit_nil (rest : List α) : AllFit entries fits [] rest := by
  intro before block after h
  simp at h

/-- The next block takes its entries from the rest. -/
theorem AllFit.concat {blocks : List β} {block : β} {rest : List α}
    (h : AllFit entries fits blocks (entries block ++ rest))
    (hblock : fits (blocks.flatMap entries) block rest) :
    AllFit entries fits (blocks ++ [block]) rest := by
  intro before b after heq
  rcases List.eq_nil_or_concat after with rfl | ⟨init, last, rfl⟩
  · obtain ⟨rfl, hlast⟩ := List.append_inj' heq rfl
    obtain rfl : block = b := by simpa using hlast
    exact hblock
  · have hassoc : before ++ b :: (init ++ [last]) = (before ++ b :: init) ++ [last] := by simp
    rw [List.concat_eq_append, hassoc] at heq
    obtain ⟨hblocks, hlast⟩ := List.append_inj' heq rfl
    obtain rfl : block = last := by simpa using hlast
    have hfit := h before b init hblocks
    simpa using hfit

/-- The blocks are the entries of a list, in order, and each fits. -/
structure Segments (entries : β → List α) (fits : List α → β → List α → Prop) (list : List α)
    (blocks : List β) : Prop where
  partition : blocks.flatMap entries = list
  fits : AllFit entries fits blocks []

end Blocks

/-! ## Runs -/

section Runs

variable {α : Type*} {p : α → Bool} {before run rest : List α}

/-- Entries of a kind with none of it directly before them and none directly behind. -/
structure MaximalRun (p : α → Bool) (before run rest : List α) : Prop where
  nonempty : run ≠ []
  all : ∀ a ∈ run, p a = true
  begins : ∀ a ∈ before.getLast?, p a = false
  ends : ∀ a ∈ rest.head?, p a = false

/-- A run that is being gathered. When nothing is gathered yet, the rest begins with an entry of the
kind. -/
structure Gathering (p : α → Bool) (before run rest : List α) : Prop where
  all : ∀ a ∈ run, p a = true
  begins : ∀ a ∈ before.getLast?, p a = false
  starts : run = [] → ∃ a ∈ rest.head?, p a = true

theorem Gathering.enter {a : α} (ha : p a = true) (hbegins : ∀ a ∈ before.getLast?, p a = false) :
    Gathering p before [] (a :: rest) :=
  ⟨by simp, hbegins, fun _ => ⟨a, rfl, ha⟩⟩

theorem Gathering.push {a : α} (h : Gathering p before run (a :: rest)) (ha : p a = true) :
    Gathering p before (run ++ [a]) rest := by
  refine ⟨fun b hb => ?_, h.begins, by simp⟩
  rcases List.mem_append.1 hb with hb | hb
  · exact h.all b hb
  · rw [List.mem_singleton.1 hb, ha]

theorem Gathering.nonempty (h : Gathering p before run rest)
    (hends : ∀ a ∈ rest.head?, p a = false) : run ≠ [] := by
  intro hrun
  obtain ⟨a, ha, hp⟩ := h.starts hrun
  rw [hends a ha] at hp
  exact Bool.false_ne_true hp

theorem Gathering.close (h : Gathering p before run rest)
    (hends : ∀ a ∈ rest.head?, p a = false) : MaximalRun p before run rest :=
  ⟨h.nonempty hends, h.all, h.begins, hends⟩

end Runs

end BankDemo.Scanning
