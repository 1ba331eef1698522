import Mathlib.Data.Nat.Digits.Lemmas

/-!
# The text of a UUID

A UUID is the number that its 32 hexadecimal digits spell, in groups of 8, 4, 4, 4 and 12.
-/

namespace BankDemo.UuidText

/-- The digits of a number, the highest first, on at least 32 places. -/
def digits (n : ℕ) : List ℕ :=
  (Nat.digits 16 n ++ List.replicate (32 - (Nat.digits 16 n).length) 0).reverse

/-- The text of a UUID. -/
def uuidText (n : ℕ) : String :=
  let h := (digits n).map Nat.digitChar
  String.ofList (h.take 8 ++ '-' :: ((h.drop 8).take 4 ++ '-' :: ((h.drop 12).take 4 ++
    '-' :: ((h.drop 16).take 4 ++ '-' :: h.drop 20))))

def digit? (c : Char) : Option ℕ :=
  if '0' ≤ c ∧ c ≤ '9' then some (c.toNat - 48)
  else if 'a' ≤ c ∧ c ≤ 'f' then some (c.toNat - 87)
  else none

/-- The UUID of a text. -/
def parse (s : String) : ℕ := Nat.ofDigits 16 (s.toList.filterMap digit?).reverse

theorem digits_lt (n : ℕ) : ∀ d ∈ digits n, d < 16 := by
  intro d hd
  rw [digits, List.mem_reverse, List.mem_append] at hd
  rcases hd with hd | hd
  · exact Nat.digits_lt_base (by omega) hd
  · rw [List.eq_of_mem_replicate hd]
    omega

theorem length_digits (n : ℕ) : 32 ≤ (digits n).length := by
  rw [digits, List.length_reverse, List.length_append, List.length_replicate]
  omega

theorem ofDigits_digits (n : ℕ) : Nat.ofDigits 16 (digits n).reverse = n := by
  rw [digits, List.reverse_reverse, Nat.ofDigits_append_replicate_zero, Nat.ofDigits_digits]

theorem digit?_digitChar : ∀ d < 16, digit? d.digitChar = some d := by decide

/-- The digits in a text of digits. -/
theorem filterMap_digitChar {ds : List ℕ} (h : ∀ d ∈ ds, d < 16) :
    (ds.map Nat.digitChar).filterMap digit? = ds := by
  have hsome : ds.filterMap (digit? ∘ Nat.digitChar) = ds.filterMap some :=
    List.filterMap_congr fun d hd => digit?_digitChar d (h d hd)
  rw [List.filterMap_map, hsome, List.filterMap_some]

/-- Hyphens between groups are no digits. -/
theorem filterMap_hyphen (a b : List Char) :
    (a ++ '-' :: b).filterMap digit? = a.filterMap digit? ++ b.filterMap digit? := by
  rw [List.filterMap_append, List.filterMap_cons_none (by decide)]

theorem take_append_drop_from {α : Type} (l : List α) (i j : ℕ) :
    (l.drop i).take j ++ l.drop (i + j) = l.drop i := by
  rw [← List.drop_drop, List.take_append_drop]

theorem parse_uuidText (n : ℕ) : parse (uuidText n) = n := by
  have hdigits : (uuidText n).toList.filterMap digit? = digits n := by
    simp only [uuidText, String.toList_ofList, filterMap_hyphen, ← List.filterMap_append]
    rw [take_append_drop_from _ 16 4, take_append_drop_from _ 12 4, take_append_drop_from _ 8 4,
      List.take_append_drop, filterMap_digitChar (digits_lt n)]
  rw [parse, hdigits, ofDigits_digits]

theorem uuidText_injective {m n : ℕ} (h : uuidText m = uuidText n) : m = n := by
  rw [← parse_uuidText m, h, parse_uuidText n]

/-- The characters of the text are digits and hyphens. -/
theorem mem_uuidText {n : ℕ} {c : Char} (hc : c ∈ (uuidText n).toList) :
    c = '-' ∨ ∃ d < 16, c = Nat.digitChar d := by
  have hdigit : ∀ {c}, c ∈ (digits n).map Nat.digitChar → ∃ d < 16, c = Nat.digitChar d := by
    intro c hc
    obtain ⟨d, hd, rfl⟩ := List.mem_map.1 hc
    exact ⟨d, digits_lt n d hd, rfl⟩
  have hgroup : ∀ {c i j}, c ∈ (((digits n).map Nat.digitChar).drop i).take j →
      ∃ d < 16, c = Nat.digitChar d :=
    fun hc => hdigit (List.mem_of_mem_drop (List.mem_of_mem_take hc))
  simp only [uuidText, String.toList_ofList, List.mem_append, List.mem_cons] at hc
  rcases hc with hc | rfl | hc | rfl | hc | rfl | hc | rfl | hc
  · exact .inr (hdigit (List.mem_of_mem_take hc))
  · exact .inl rfl
  · exact .inr (hgroup hc)
  · exact .inl rfl
  · exact .inr (hgroup hc)
  · exact .inl rfl
  · exact .inr (hgroup hc)
  · exact .inl rfl
  · exact .inr (hdigit (List.mem_of_mem_drop hc))

theorem notMem_uuidText {c : Char} (hdash : c ≠ '-') (hdigit : ∀ d < 16, Nat.digitChar d ≠ c)
    (n : ℕ) : c ∉ (uuidText n).toList := by
  intro hmem
  rcases mem_uuidText hmem with hc | ⟨d, hd, hc⟩
  · exact hdash hc
  · exact hdigit d hd hc.symm

theorem colon_notMem_uuidText (n : ℕ) : ':' ∉ (uuidText n).toList :=
  notMem_uuidText (by decide) (by decide) n

/-- A mark ends the part before it, if it is not in it. -/
theorem append_cons_inj {α : Type} {c : α} {l₁ l₂ r₁ r₂ : List α} (h₁ : c ∉ l₁) (h₂ : c ∉ l₂)
    (h : l₁ ++ c :: r₁ = l₂ ++ c :: r₂) : l₁ = l₂ ∧ r₁ = r₂ := by
  induction l₁ generalizing l₂ with
  | nil =>
    cases l₂ with
    | nil => exact ⟨rfl, (List.cons.inj h).2⟩
    | cons a l₂ =>
      obtain ⟨rfl, -⟩ := List.cons.inj h
      simp at h₂
  | cons a l₁ ih =>
    cases l₂ with
    | nil =>
      obtain ⟨rfl, -⟩ := List.cons.inj h
      simp at h₁
    | cons b l₂ =>
      obtain ⟨rfl, htail⟩ := List.cons.inj h
      obtain ⟨rfl, rfl⟩ := ih (fun hc => h₁ (List.mem_cons_of_mem _ hc))
        (fun hc => h₂ (List.mem_cons_of_mem _ hc)) htail
      exact ⟨rfl, rfl⟩

/-- The text of a UUID takes at least 36 characters. -/
theorem length_uuidText (n : ℕ) : 36 ≤ (uuidText n).length := by
  have h := length_digits n
  simp only [uuidText, String.length_ofList, List.length_append, List.length_cons,
    List.length_take, List.length_drop, List.length_map]
  omega

example : uuidText (16 ^ 31 + 10) = "10000000-0000-0000-0000-00000000000a" := by decide +kernel

end BankDemo.UuidText
