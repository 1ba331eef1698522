import Mathlib.Algebra.Order.Monoid.Defs
import Mathlib.Algebra.Order.Monoid.NatCast
import Mathlib.Algebra.Order.Group.Defs
import Mathlib.Algebra.Order.Field.Basic
import Mathlib.Algebra.Order.Floor.Semiring
import Mathlib.Order.Basic

/-!
# Rows on pages

Rows of one height are put below each other, and a row that would pass the limit of its page goes to
the top of the next page. Where the rows begin and what the limit leaves room for tells the place of
every row (`place_getElem?`); no row passes the limit (`fits_of_mem_place`), and none covers another
(`pairwise_place`).
-/

namespace BankDemo.PageRows

variable {α β : Type*}

/-- A place on the pages, from above. -/
structure Slot (α : Type*) where
  page : ℕ
  y : α
  deriving DecidableEq

/-- On an earlier page, or above on the same page. -/
def Slot.Before [LE α] (s t : Slot α) : Prop := s.page < t.page ∨ s.page = t.page ∧ s.y ≤ t.y

theorem Slot.Before.trans [Preorder α] {s t u : Slot α} (h : s.Before t) (h' : t.Before u) :
    s.Before u := by
  rcases h with h | ⟨h, hy⟩
  · rcases h' with h' | ⟨h', -⟩
    · exact .inl (h.trans h')
    · exact .inl (h'.symm ▸ h)
  · rcases h' with h' | ⟨h', hy'⟩
    · exact .inl (h ▸ h')
    · exact .inr ⟨h.trans h', hy.trans hy'⟩

/-- The pages for a table: the height of a row, where the rows of a new page begin and the limit. -/
structure Sheet (α : Type*) [Add α] [LE α] where
  rowH : α
  top : α
  limit : α
  /-- A new page has room for a row. -/
  top_fits : top + rowH ≤ limit

section Place

variable [Add α] [LE α] [LT α] [DecidableLT α] (S : Sheet α)

/-- Where the next row goes. -/
def Sheet.slot (s : Slot α) : Slot α := if S.limit < s.y + S.rowH then ⟨s.page + 1, S.top⟩ else s

/-- Below a row. -/
def Sheet.below (s : Slot α) : Slot α := ⟨s.page, s.y + S.rowH⟩

/-- The rows with their places. -/
def Sheet.place : Slot α → List β → List (Slot α × β)
  | _, [] => []
  | s, r :: rest => (S.slot s, r) :: Sheet.place (S.below (S.slot s)) rest

/-- Below a number of rows. -/
def Sheet.after : Slot α → ℕ → Slot α
  | s, 0 => s
  | s, n + 1 => Sheet.after (S.below (S.slot s)) n

/-- Every row has one place, in the order of the rows. -/
theorem map_snd_place (s : Slot α) (l : List β) : (S.place s l).map Prod.snd = l := by
  induction l generalizing s with
  | nil => rfl
  | cons r rest ih => rw [Sheet.place, List.map_cons, ih]

end Place

section Order

variable [AddCommMonoid α] [LinearOrder α] (S : Sheet α)

theorem slot_fits (s : Slot α) : (S.slot s).y + S.rowH ≤ S.limit := by
  unfold Sheet.slot
  split
  · exact S.top_fits
  · rename_i h
    exact not_lt.1 h

/-- No row passes the limit. -/
theorem fits_of_mem_place {s : Slot α} {l : List β} :
    ∀ x ∈ S.place s l, x.1.y + S.rowH ≤ S.limit := by
  induction l generalizing s with
  | nil => simp [Sheet.place]
  | cons r rest ih =>
    rw [Sheet.place]
    exact List.forall_mem_cons.2 ⟨slot_fits S s, ih⟩

/-! ## How many rows a page takes -/

/-- From `y` on, there is room for `n` rows and no more. -/
def Sheet.Room (y : α) (n : ℕ) : Prop := ∀ k : ℕ, y + (k + 1) • S.rowH ≤ S.limit ↔ k < n

theorem Sheet.Room.slot_of_zero {S : Sheet α} {s : Slot α} (h : S.Room s.y 0) :
    S.slot s = ⟨s.page + 1, S.top⟩ := by
  have hfull : ¬ s.y + S.rowH ≤ S.limit := by
    have hnone := h 0
    rw [zero_add, one_nsmul] at hnone
    rw [hnone]
    exact Nat.not_lt_zero 0
  exact if_pos (not_le.1 hfull)

theorem Sheet.Room.slot_of_succ {S : Sheet α} {s : Slot α} {n : ℕ} (h : S.Room s.y (n + 1)) :
    S.slot s = s := by
  have hfree : s.y + S.rowH ≤ S.limit := by
    have hsome := h 0
    rw [zero_add, one_nsmul] at hsome
    exact hsome.2 n.succ_pos
  exact if_neg (not_lt.2 hfree)

theorem Sheet.Room.below {S : Sheet α} {y : α} {n : ℕ} (h : S.Room y (n + 1)) :
    S.Room (y + S.rowH) n := by
  intro k
  rw [add_assoc, ← succ_nsmul', h]
  omega

/-- **The place of every row.** The first rows fill what is left of the first page, and then every
page takes `room + 1` of them. -/
theorem place_getElem? {S : Sheet α} {room left : ℕ} (hroom : S.Room S.top (room + 1)) {s : Slot α}
    (hleft : S.Room s.y left) (l : List β) (i : ℕ) : (S.place s l)[i]? = l[i]?.map fun r =>
      (if i < left then ⟨s.page, s.y + i • S.rowH⟩
        else ⟨s.page + 1 + (i - left) / (room + 1),
          S.top + ((i - left) % (room + 1)) • S.rowH⟩, r) := by
  induction l generalizing s left i with
  | nil => rfl
  | cons r rest ih =>
    rw [Sheet.place]
    cases left with
    | succ left =>
      rw [hleft.slot_of_succ]
      cases i with
      | zero => simp
      | succ i =>
        rw [List.getElem?_cons_succ, List.getElem?_cons_succ, ih (s := S.below s) hleft.below i]
        congr 1
        funext r
        simp only [Sheet.below, Nat.add_sub_add_right, Nat.add_lt_add_iff_right, succ_nsmul',
          add_assoc]
    | zero =>
      rw [hleft.slot_of_zero]
      cases i with
      | zero => simp
      | succ i =>
        rw [List.getElem?_cons_succ, List.getElem?_cons_succ,
          ih (s := S.below ⟨s.page + 1, S.top⟩) hroom.below i]
        congr 1
        funext r
        simp only [Sheet.below, Nat.not_lt_zero, if_false, Nat.sub_zero, Prod.mk.injEq, and_true]
        by_cases hi : i < room
        · have hsmall : i + 1 < room + 1 := by omega
          rw [if_pos hi, Nat.div_eq_of_lt hsmall, Nat.mod_eq_of_lt hsmall, succ_nsmul', add_assoc,
            Nat.add_zero]
        · -- a page further
          have hsplit : i + 1 = (i - room) + (room + 1) := by omega
          rw [if_neg hi, hsplit, Nat.add_div_right (i - room) (show 0 < room + 1 by omega),
            Nat.add_mod_right]
          generalize (i - room) / (room + 1) = pages
          congr 1
          omega

/-- The page that is reached below `n` rows. -/
theorem after_page {S : Sheet α} {room left : ℕ} (hroom : S.Room S.top (room + 1)) {s : Slot α}
    (hleft : S.Room s.y left) (n : ℕ) :
    (S.after s n).page = s.page + (n - left + room) / (room + 1) := by
  induction n generalizing s left with
  | zero => rw [Sheet.after, Nat.zero_sub, Nat.zero_add, Nat.div_eq_of_lt (by omega), Nat.add_zero]
  | succ n ih =>
    rw [Sheet.after]
    cases left with
    | succ left =>
      rw [hleft.slot_of_succ, ih (s := S.below s) hleft.below, Nat.add_sub_add_right]
      rfl
    | zero =>
      rw [hleft.slot_of_zero, ih (s := S.below ⟨s.page + 1, S.top⟩) hroom.below, Sheet.below]
      have hfull : n + 1 - 0 + room = n + (room + 1) := by omega
      have hpage : (n - room + room) / (room + 1) = n / (room + 1) := by
        by_cases hn : room ≤ n
        · rw [Nat.sub_add_cancel hn]
        · rw [Nat.div_eq_of_lt (by omega), Nat.div_eq_of_lt (by omega)]
      rw [hpage, hfull, Nat.add_div_right n (show 0 < room + 1 by omega)]
      exact Nat.add_right_comm ..

/-! ## Rows below each other -/

theorem before_slot (s : Slot α) : s.Before (S.slot s) := by
  unfold Sheet.slot
  split
  · exact .inl (Nat.lt_succ_self _)
  · exact .inr ⟨rfl, le_rfl⟩

variable [IsOrderedAddMonoid α]

theorem before_below (hrow : 0 ≤ S.rowH) (s : Slot α) : s.Before (S.below s) :=
  .inr ⟨rfl, le_add_of_nonneg_right hrow⟩

/-- A row is on the page where the rows begin, or below the top of a later one. -/
theorem top_of_mem_place (hrow : 0 ≤ S.rowH) {page : ℕ} {s : Slot α} {l : List β}
    (hs : s.page = page ∨ S.top ≤ s.y) : ∀ x ∈ S.place s l, x.1.page = page ∨ S.top ≤ x.1.y := by
  induction l generalizing s with
  | nil => simp [Sheet.place]
  | cons r rest ih =>
    have hslot : (S.slot s).page = page ∨ S.top ≤ (S.slot s).y := by
      unfold Sheet.slot
      split
      · exact .inr le_rfl
      · exact hs
    rw [Sheet.place]
    exact List.forall_mem_cons.2 ⟨hslot,
      ih (hslot.imp id fun htop => htop.trans (le_add_of_nonneg_right hrow))⟩

theorem before_of_mem_place (hrow : 0 ≤ S.rowH) {s : Slot α} {l : List β} :
    ∀ x ∈ S.place s l, s.Before x.1 := by
  induction l generalizing s with
  | nil => simp [Sheet.place]
  | cons r rest ih =>
    rw [Sheet.place]
    refine List.forall_mem_cons.2 ⟨before_slot S s, fun x hx => ?_⟩
    exact ((before_slot S s).trans (before_below S hrow _)).trans (ih x hx)

/-- A row ends before a later one begins. -/
theorem pairwise_place (hrow : 0 ≤ S.rowH) (s : Slot α) (l : List β) :
    (S.place s l).Pairwise fun a b => (S.below a.1).Before b.1 := by
  induction l generalizing s with
  | nil => exact .nil
  | cons r rest ih =>
    rw [Sheet.place]
    exact .cons (fun x hx => before_of_mem_place S hrow x hx) (ih _)

end Order

/-- The number of rows that there is room for. -/
theorem room_floor [Field α] [LinearOrder α] [IsStrictOrderedRing α] [FloorSemiring α]
    (S : Sheet α) (hrow : 0 < S.rowH) (y : α) : S.Room y ⌊(S.limit - y) / S.rowH⌋₊ := by
  intro k
  rw [← Nat.succ_le_iff, Nat.le_floor_iff' k.succ_ne_zero, le_div_iff₀ hrow, nsmul_eq_mul,
    le_sub_iff_add_le']

end BankDemo.PageRows
