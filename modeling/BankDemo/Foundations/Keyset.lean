import Mathlib.Data.List.Pairwise
import Mathlib.Data.List.Sort
import Mathlib.Order.Basic

/-!
# Keyset pagination

A list with descending keys is read in pages. A page begins after the element that the cursor
stands for, which is found again by its key alone, and its own cursor is its last element's. Read
until no cursor comes back, the pages are the list (`exists_pages`); what is dropped from a page
after its cursor was taken (`out`) makes no difference to that.
-/

namespace BankDemo.Keyset

/-- The pages that are read from a cursor on, until no cursor comes back. -/
inductive Pages {ε β γ : Type} (read : Option γ → Except ε (List β × Option γ)) :
    Option γ → List (List β) → Prop
  | last {c : Option γ} {page : List β} (h : read c = .ok (page, none)) : Pages read c [page]
  | more {c : Option γ} {page : List β} {c' : γ} {pages : List (List β)}
      (h : read c = .ok (page, some c')) (hmore : Pages read (some c') pages) :
      Pages read c (page :: pages)

section Pages

variable {ε β γ : Type} {read : Option γ → Except ε (List β × Option γ)}

/-- There is one way to read. -/
theorem Pages.unique {c : Option γ} {ps qs : List (List β)} (hp : Pages read c ps)
    (hq : Pages read c qs) : ps = qs := by
  induction hp generalizing qs with
  | last h =>
    cases hq with
    | last h' =>
      rw [h] at h'
      cases h'
      rfl
    | more h' _ =>
      rw [h] at h'
      cases h'
  | more h _ ih =>
    cases hq with
    | last h' =>
      rw [h] at h'
      cases h'
    | more h' hmore =>
      rw [h] at h'
      cases h'
      rw [ih hmore]

end Pages

variable {α κ : Type} [LinearOrder κ] (key : α → κ)

/-- Elements in descending order of their keys. -/
def Descending (l : List α) : Prop := l.Pairwise fun a b => key b < key a

/-- What comes after a cursor. -/
def rest (l : List α) : Option α → List α
  | none => l
  | some x => l.filter fun a => key a < key x

/-- The last element of a page, if there is more after it. -/
def next (l : List α) (n : ℕ) : Option α := if n < l.length then (l.take n).getLast? else none

variable {key}

theorem Descending.filter {l : List α} (h : Descending key l) (p : α → Bool) :
    Descending key (l.filter p) := List.Pairwise.filter p h

/-- In a descending list, being in order is being in order wherever the keys are. -/
theorem Descending.pairwise_iff {l : List α} (h : Descending key l) {S : α → α → Prop} :
    l.Pairwise S ↔ ∀ a ∈ l, ∀ b ∈ l, key b < key a → S a b := by
  constructor
  · intro hS
    let T := fun a b => (key b < key a → S a b) ∧ (key a < key b → S b a)
    have hpair : l.Pairwise T := by
      refine (List.Pairwise.and h hS).imp fun {a b} hab => ⟨fun _ => hab.2, fun hlt => ?_⟩
      exact absurd hlt (lt_asymm hab.1)
    have hsymm : Std.Symm T := ⟨fun _ _ hT => ⟨hT.2, hT.1⟩⟩
    intro a ha b hb hlt
    have hne : a ≠ b := by
      rintro rfl
      exact lt_irrefl _ hlt
    exact (hpair.forall ha hb hne).1 hlt
  · intro hall
    exact List.Pairwise.imp_of_mem (fun {a b} ha hb hlt => hall a ha b hb hlt) h

theorem rest_descending {l : List α} (h : Descending key l) (c : Option α) :
    Descending key (rest key l c) := by
  cases c with
  | none => exact h
  | some x => exact h.filter _

theorem mem_of_mem_rest {l : List α} {c : Option α} {a : α} (h : a ∈ rest key l c) : a ∈ l := by
  cases c with
  | none => exact h
  | some x => exact List.mem_of_mem_filter h

/-- In a descending list, what has a smaller key than an element is what comes after it. -/
theorem filter_after {l : List α} (h : Descending key l) {pre post : List α} {x : α}
    (hl : l = pre ++ x :: post) : (l.filter fun a => key a < key x) = post := by
  subst hl
  obtain ⟨-, hpost, hpre⟩ := List.pairwise_append.mp h
  have hbefore : (pre.filter fun a => key a < key x) = [] := by
    refine List.filter_eq_nil_iff.mpr fun a ha => ?_
    simpa using (hpre a ha x (by simp)).le
  have hafter : (post.filter fun a => key a < key x) = post := by
    refine List.filter_eq_self.mpr fun a ha => ?_
    simpa using (List.pairwise_cons.mp hpost).1 a ha
  rw [List.filter_append, hbefore, List.filter_cons_of_neg (by simp), hafter, List.nil_append]

/-- A cursor among the elements after another leads on from there. -/
theorem rest_some {l : List α} {c : Option α} {x : α} (hx : x ∈ rest key l c) :
    rest key l (some x) = (rest key l c).filter fun a => key a < key x := by
  cases c with
  | none => rfl
  | some y =>
    have hlt : key x < key y := by simpa using (List.mem_filter.mp hx).2
    simp only [rest, List.filter_filter]
    refine List.filter_congr fun a _ => ?_
    by_cases ha : key a < key x
    · simp [ha, ha.trans hlt]
    · simp [ha]

/-- After a page there is what is left of it. -/
theorem rest_next {l : List α} (h : Descending key l) {c : Option α} {n : ℕ} {x : α}
    (hx : next (rest key l c) n = some x) :
    x ∈ rest key l c ∧ rest key l (some x) = (rest key l c).drop n := by
  unfold next at hx
  split at hx
  · obtain ⟨pre, hpre⟩ := List.getLast?_eq_some_iff.mp hx
    have hsplit : rest key l c = pre ++ x :: (rest key l c).drop n := by
      calc rest key l c = (rest key l c).take n ++ (rest key l c).drop n :=
            (List.take_append_drop n _).symm
        _ = pre ++ x :: (rest key l c).drop n := by rw [hpre]; simp
    have hmem : x ∈ rest key l c := by
      rw [hsplit]
      simp
    exact ⟨hmem, by rw [rest_some hmem, filter_after (rest_descending h c) hsplit]⟩
  · cases hx

/-- Without a cursor, a page is all that is left. -/
theorem take_of_next {l : List α} {n : ℕ} (hn : 1 ≤ n) (h : next l n = none) : l.take n = l := by
  unfold next at h
  split at h
  · rename_i hlt
    rw [List.getLast?_eq_none_iff, List.take_eq_nil_iff] at h
    rcases h with h | h
    · omega
    · rw [h] at hlt
      cases hlt
  · rename_i hle
    exact List.take_of_length_le (by omega)

/-- **Pages are the list.** Cursors are passed as texts; only those of elements are ever used. -/
theorem exists_pages {ε β γ : Type} {l : List α} (h : Descending key l) {n : ℕ} (hn : 1 ≤ n)
    (out : List α → List β) (enc : α → γ) {read : Option γ → Except ε (List β × Option γ)}
    (hread : ∀ c : Option α, (∀ x ∈ c, x ∈ l) → read (c.map enc) =
      .ok (out ((rest key l c).take n), (next (rest key l c) n).map enc)) :
    ∃ chunks : List (List α), chunks.flatten = l ∧ Pages read none (chunks.map out) := by
  suffices hfrom : ∀ m : ℕ, ∀ c : Option α, (∀ x ∈ c, x ∈ l) → (rest key l c).length ≤ m →
      ∃ chunks : List (List α), chunks.flatten = rest key l c ∧
        Pages read (c.map enc) (chunks.map out) from
    hfrom l.length none (fun x hx => by cases hx) le_rfl
  intro m
  induction m with
  | zero =>
    intro c hc hlen
    have hnil : rest key l c = [] := List.length_eq_zero_iff.mp (by omega)
    have hnext : next ([] : List α) n = none := if_neg (by simp)
    refine ⟨[[]], by rw [hnil]; rfl, .last ?_⟩
    rw [hread c hc, hnil, hnext, List.take_nil]
    rfl
  | succ m ih =>
    intro c hc hlen
    cases hnext : next (rest key l c) n with
    | none =>
      refine ⟨[rest key l c], by simp, .last ?_⟩
      rw [hread c hc, hnext, take_of_next hn hnext]
      rfl
    | some x =>
      obtain ⟨hmem, hafter⟩ := rest_next h hnext
      have hshorter : (rest key l (some x)).length ≤ m := by
        have hpos : 0 < (rest key l c).length := List.length_pos_of_mem hmem
        rw [hafter, List.length_drop]
        omega
      have hx : ∀ y ∈ some x, y ∈ l := fun y hy => by
        cases hy
        exact mem_of_mem_rest hmem
      obtain ⟨chunks, hflat, hpages⟩ := ih (some x) hx hshorter
      refine ⟨(rest key l c).take n :: chunks, ?_, .more ?_ hpages⟩
      · rw [List.flatten_cons, hflat, hafter, List.take_append_drop]
      · rw [hread c hc, hnext]
        rfl

end BankDemo.Keyset
