import BankDemo.Foundations.Table

/-!
# Maps filled in a loop

A map is filled entry by entry: `setAll`, where the last entry under a key stays, and `fill`, where
an entry is only set under a key that is free.
-/

namespace BankDemo.Table

variable {κ ρ : Type} [DecidableEq κ] {t : Table κ ρ} {l : List (κ × ρ)} {k : κ} {r : ρ}

/-- The entries set one after the other. -/
def setAll (t : Table κ ρ) (l : List (κ × ρ)) : Table κ ρ :=
  l.foldl (fun t e => t.insert e.1 e.2) t

/-- The entries whose keys are free set one after the other. -/
def fill (t : Table κ ρ) (l : List (κ × ρ)) : Table κ ρ :=
  l.foldl (fun t e => if (t.lookup e.1).isNone then t.insert e.1 e.2 else t) t

/-- The last entry under a key. -/
def Last (l : List (κ × ρ)) (k : κ) (r : ρ) : Prop :=
  ∃ before after, l = before ++ (k, r) :: after ∧ ∀ e ∈ after, e.1 ≠ k

omit [DecidableEq κ] in
theorem Last.mem (h : Last l k r) : (k, r) ∈ l := by
  obtain ⟨before, after, rfl, -⟩ := h
  simp

omit [DecidableEq κ] in
theorem last_cons {e : κ × ρ} :
    Last (e :: l) k r ↔ Last l k r ∨ (e = (k, r) ∧ ∀ x ∈ l, x.1 ≠ k) := by
  constructor
  · rintro ⟨before, after, heq, hafter⟩
    cases before with
    | nil =>
      obtain ⟨rfl, rfl⟩ := List.cons.inj heq
      exact .inr ⟨rfl, hafter⟩
    | cons x before =>
      obtain ⟨rfl, rfl⟩ := List.cons.inj heq
      exact .inl ⟨before, after, rfl, hafter⟩
  · rintro (⟨before, after, rfl, hafter⟩ | ⟨rfl, hfree⟩)
    · exact ⟨e :: before, after, rfl, hafter⟩
    · exact ⟨[], l, rfl, hfree⟩

omit [DecidableEq κ] in
/-- The last entry among those that a list gives rise to. -/
theorem last_filterMap {α : Type} {f : α → Option (κ × ρ)} {xs : List α} :
    Last (xs.filterMap f) k r ↔ ∃ before x after, xs = before ++ x :: after ∧ f x = some (k, r) ∧
      ∀ y ∈ after, ∀ e, f y = some e → e.1 ≠ k := by
  induction xs with
  | nil => simp [Last]
  | cons x xs ih =>
    have hcons : (∃ before y after, x :: xs = before ++ y :: after ∧ f y = some (k, r) ∧
        ∀ z ∈ after, ∀ e, f z = some e → e.1 ≠ k) ↔
        Last (xs.filterMap f) k r ∨
          (f x = some (k, r) ∧ ∀ z ∈ xs, ∀ e, f z = some e → e.1 ≠ k) := by
      rw [ih]
      constructor
      · rintro ⟨before, y, after, heq, hy, hafter⟩
        cases before with
        | nil =>
          obtain ⟨rfl, rfl⟩ := List.cons.inj heq
          exact .inr ⟨hy, hafter⟩
        | cons b before =>
          obtain ⟨rfl, rfl⟩ := List.cons.inj heq
          exact .inl ⟨before, y, after, rfl, hy, hafter⟩
      · rintro (⟨before, y, after, rfl, hy, hafter⟩ | ⟨hx, hafter⟩)
        · exact ⟨x :: before, y, after, rfl, hy, hafter⟩
        · exact ⟨[], x, xs, rfl, hx, hafter⟩
    have hfree : (∀ e ∈ xs.filterMap f, e.1 ≠ k) ↔ ∀ z ∈ xs, ∀ e, f z = some e → e.1 ≠ k := by
      simp only [List.mem_filterMap]
      exact ⟨fun h z hz e he => h e ⟨z, hz, he⟩, fun h e ⟨z, hz, he⟩ => h z hz e he⟩
    rw [hcons, ← hfree]
    cases hx : f x with
    | none => simp [hx]
    | some e => rw [List.filterMap_cons_some hx, last_cons, Option.some.injEq]

theorem lookup_setAll : (setAll t l).lookup k = some r ↔
    Last l k r ∨ ((∀ e ∈ l, e.1 ≠ k) ∧ t.lookup k = some r) := by
  induction l generalizing t with
  | nil => simp [setAll, Last]
  | cons e l ih =>
    have hstep : setAll t (e :: l) = setAll (t.insert e.1 e.2) l := rfl
    rw [hstep, ih, lookup_insert_ite, last_cons, List.forall_mem_cons]
    by_cases hk : k = e.1
    · subst hk
      have hpair : e = (e.1, r) ↔ e.2 = r := by
        simp [Prod.ext_iff]
      simp [hpair, and_comm]
    · have hne : e ≠ (k, r) := by
        rintro rfl
        exact hk rfl
      simp [hk, hne, Ne.symm hk]

/-- A map that is empty at first has the entries it is given. -/
theorem lookup_setAll_empty : (setAll ∅ l).lookup k = some r ↔ Last l k r := by
  simp [lookup_setAll]

omit [DecidableEq κ] in
/-- The last entry under a key is there if any is. -/
theorem exists_last (h : ∃ r, (k, r) ∈ l) : ∃ r, Last l k r := by
  induction l with
  | nil => simp at h
  | cons e l ih =>
    by_cases hlater : ∃ r, (k, r) ∈ l
    · obtain ⟨r, hr⟩ := ih hlater
      exact ⟨r, last_cons.2 (.inl hr)⟩
    · obtain ⟨r, hr⟩ := h
      have he : e = (k, r) := by
        rcases List.mem_cons.1 hr with he | hr
        · exact he.symm
        · exact absurd ⟨r, hr⟩ hlater
      refine ⟨r, last_cons.2 (.inr ⟨he, ?_⟩)⟩
      rintro x hx rfl
      exact hlater ⟨x.2, hx⟩

theorem isSome_setAll_empty : ((setAll ∅ l).lookup k).isSome ↔ ∃ r, (k, r) ∈ l := by
  rw [Option.isSome_iff_exists]
  constructor
  · rintro ⟨r, hr⟩
    exact ⟨r, (lookup_setAll_empty.1 hr).mem⟩
  · intro h
    obtain ⟨r, hr⟩ := exists_last h
    exact ⟨r, lookup_setAll_empty.2 hr⟩

/-- Filling with entries that are one to a key. -/
theorem lookup_fill (hone : ∀ a b, (k, a) ∈ l → (k, b) ∈ l → a = b) :
    (fill t l).lookup k = some r ↔
      t.lookup k = some r ∨ (t.lookup k = none ∧ (k, r) ∈ l) := by
  induction l generalizing t with
  | nil => simp [fill]
  | cons e l ih =>
    have hstep : fill t (e :: l) =
        fill (if (t.lookup e.1).isNone then t.insert e.1 e.2 else t) l := rfl
    have hrest : ∀ a b, (k, a) ∈ l → (k, b) ∈ l → a = b := fun a b ha hb =>
      hone a b (List.mem_cons_of_mem e ha) (List.mem_cons_of_mem e hb)
    rw [hstep, ih hrest, List.mem_cons]
    cases hfree : t.lookup e.1 with
    | some old =>
      simp only [Option.isNone_some, Bool.false_eq_true, if_false]
      by_cases hk : k = e.1
      · subst hk
        simp [hfree]
      · have hne : (k, r) ≠ e := by
          rintro rfl
          exact hk rfl
        simp [hne]
    | none =>
      simp only [Option.isNone_none, if_true]
      rw [lookup_insert_ite]
      by_cases hk : k = e.1
      · subst hk
        have hpair : (e.1, r) = e ↔ e.2 = r := by
          rw [Prod.ext_iff]
          simp [eq_comm]
        have hsame : (e.1, r) ∈ l → e.2 = r := fun hr =>
          hone e.2 r List.mem_cons_self (List.mem_cons_of_mem e hr)
        simp only [if_true, Option.some.injEq, reduceCtorEq, false_and, or_false, hfree, hpair,
          true_and, false_or]
        exact ⟨.inl, fun h => h.elim id hsame⟩
      · have hne : (k, r) ≠ e := by
          rintro rfl
          exact hk rfl
        simp [hk, hne]

end BankDemo.Table
