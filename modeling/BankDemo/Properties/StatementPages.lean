import BankDemo.Properties.Statements
import BankDemo.Statements.Renderer
import Mathlib.Data.Rat.Floor

/-!
# What is on the pages of a statement

Every row of a statement is drawn once, in order, above the footer and below the row before it, and
under the names of the columns (`rows_on_pages`). What a reader takes from the texts adds up: the
cards, and every balance with the amount beside it (`texts_add_up`).
-/

namespace BankDemo.Statements

open JsDate PageRows

/-! ## Places -/

/-- The number of rows that there is room for. -/
def roomBelow (y : ℚ) : ℕ := ⌊(bottomLimit - y) / rowH⌋₊

theorem room_below (y : ℚ) : sheet.Room y (roomBelow y) :=
  room_floor sheet (show (0 : ℚ) < 22 by norm_num) y

/-- A new page takes 28 rows. -/
theorem room_top : sheet.Room sheet.top (27 + 1) := by
  have htop : roomBelow sheet.top = 27 + 1 := by
    rw [roomBelow, Nat.floor_eq_iff (by norm_num [sheet, topMargin, headerH, rowH, bottomLimit])]
    norm_num [sheet, topMargin, headerH, rowH, bottomLimit]
  rw [← htop]
  exact room_below sheet.top

/-- The place of the row with the index `i`, with room for `left` rows on the first page. -/
def rowSlot (s : Slot ℚ) (left i : ℕ) : Slot ℚ :=
  if i < left then ⟨s.page, s.y + headerH + i • rowH⟩
  else ⟨s.page + 1 + (i - left) / 28, topMargin + headerH + ((i - left) % 28) • rowH⟩

theorem drawRows_after (s : Slot ℚ) (idx : ℕ) (ts : List StatementRow) :
    (drawRows s idx ts).2 = sheet.after s ts.length := by
  induction ts generalizing s idx with
  | nil => rfl
  | cons t rest ih =>
    rw [drawRows, List.length_cons, Sheet.after, Sheet.slot]
    by_cases hfull : bottomLimit < s.y + rowH
    · have hlimit : sheet.limit < s.y + sheet.rowH := hfull
      rw [if_pos hfull, if_pos hlimit]
      exact ih _ _
    · have hlimit : ¬ sheet.limit < s.y + sheet.rowH := hfull
      rw [if_neg hfull, if_neg hlimit]
      exact ih _ _

/-- The page that the table ends on. -/
theorem drawTransactionTable_page (s : Slot ℚ) (ts : List StatementRow) :
    (drawTransactionTable s ts).2.page =
      s.page + (ts.length - roomBelow (s.y + headerH) + 27) / 28 := by
  rw [drawTransactionTable]
  split
  · next hnone =>
    rw [hnone, Nat.zero_sub]
    rfl
  · simp only [drawRows_after]
    exact after_page room_top (s := ⟨s.page, s.y + headerH⟩) (room_below _) ts.length

/-- A bar further on is above a row. -/
theorem row_of_header_mem {s : Slot ℚ} {idx : ℕ} {ts : List StatementRow} {at' : Slot ℚ}
    (h : (at', Drawn.header) ∈ (drawRows s idx ts).1) :
    ∃ texts, (⟨at'.page, at'.y + headerH⟩, texts) ∈ rowsOf (drawRows s idx ts).1 := by
  induction ts generalizing s idx with
  | nil => simp [drawRows] at h
  | cons t rest ih =>
    rw [drawRows] at h ⊢
    by_cases hfull : bottomLimit < s.y + rowH
    · rw [if_pos hfull] at h ⊢
      rcases List.mem_cons.1 h with heq | h
      · cases heq
        exact ⟨_, List.mem_cons_self ..⟩
      · rcases List.mem_cons.1 h with heq | h
        · cases heq
        · obtain ⟨texts, hmem⟩ := ih h
          exact ⟨texts, List.mem_cons_of_mem _ hmem⟩
    · rw [if_neg hfull] at h ⊢
      rcases List.mem_cons.1 h with heq | h
      · cases heq
      · obtain ⟨texts, hmem⟩ := ih h
        exact ⟨texts, List.mem_cons_of_mem _ hmem⟩

/-- The rows of a statement are on its pages. -/
structure OnPages (s : Slot ℚ) (ts : List StatementRow) (doc : Document) : Prop where
  /-- Every row is drawn once, with its texts and at its place. -/
  rows : ∀ i : ℕ, (rowsOf doc.table)[i]? =
    ts[i]?.map fun t => (rowSlot s (roomBelow (s.y + headerH)) i, rowTexts t)
  fits : ∀ x ∈ rowsOf doc.table, x.1.y + rowH ≤ bottomLimit
  apart : (rowsOf doc.table).Pairwise fun a b => Slot.Before ⟨a.1.page, a.1.y + rowH⟩ b.1
  /-- A page with rows has the names of the columns. -/
  named : ∀ x ∈ rowsOf doc.table, ∃ y, (⟨x.1.page, y⟩, Drawn.header) ∈ doc.table
  /-- No page is added for nothing. -/
  footers : doc.footers = (List.range
      (s.page + (ts.length - roomBelow (s.y + headerH) + 27) / 28 + 1)).map fun i =>
    drawFooter (i + 1) (s.page + (ts.length - roomBelow (s.y + headerH) + 27) / 28 + 1)
  /-- Below the names there is a row, on every page but the first. -/
  used : ∀ at', (at', Drawn.header) ∈ doc.table → at' ≠ s →
    ∃ texts, (⟨at'.page, at'.y + headerH⟩, texts) ∈ rowsOf doc.table

/-- **Every row is on a page.** -/
theorem rows_on_pages (now : Instant) (s : Slot ℚ) (vars : StatementVars) :
    OnPages s vars.transactions (renderDocument now s vars) := by
  have hplace : rowsOf (renderDocument now s vars).table =
      sheet.place ⟨s.page, s.y + headerH⟩ (vars.transactions.map rowTexts) :=
    rowsOf_drawTransactionTable s vars.transactions
  constructor
  · intro i
    rw [hplace, place_getElem? room_top (s := ⟨s.page, s.y + headerH⟩) (room_below _),
      List.getElem?_map, Option.map_map]
    rfl
  · intro x hx
    rw [hplace] at hx
    exact fits_of_mem_place sheet x hx
  · rw [hplace]
    exact pairwise_place sheet (show (0 : ℚ) ≤ 22 by norm_num) _ _
  · intro x hx
    simp only [renderDocument, drawTransactionTable] at hx ⊢
    split at hx
    · simp [rowsOf] at hx
    · next hsome =>
      rw [if_neg hsome]
      rcases header_of_mem_drawRows x hx with hpage | hmem
      · rw [hpage]
        exact ⟨s.y, List.mem_cons_self ..⟩
      · exact ⟨topMargin, List.mem_cons_of_mem _ hmem⟩
  · rw [renderDocument, drawTransactionTable_page]
  · intro at' hmem hne
    simp only [renderDocument, drawTransactionTable] at hmem ⊢
    split at hmem
    · simp [hne] at hmem
    · next hsome =>
      rw [if_neg hsome]
      rcases List.mem_cons.1 hmem with heq | hmem
      · cases heq
        exact absurd rfl hne
      · exact row_of_header_mem hmem

/-- A statement of forty rows. -/
def longStatement : StatementVars where
  accountLabel := "Everyday Checking"
  accountNumberMasked := "••••5678"
  routingNumber := "021000021"
  userFullName := "Ann Lee"
  periodStart := 1769904000000
  periodEnd := 1772323199999
  openingBalanceCents := 0
  closingBalanceCents := 100000
  totalInCents := 100000
  totalOutCents := 0
  transactions := (List.range 40).map fun i =>
    ⟨1769904000000 + i * 3600000, "Deposit", 2500, 2500 * (i + 1)⟩

/-- Fifteen of its rows are on the first page, and the others on the second. -/
example : ((renderDocument 1772323200000 ⟨0, 338⟩ longStatement).footers,
    (rowsOf (renderDocument 1772323200000 ⟨0, 338⟩ longStatement).table)[15]?) =
      (["Page 1 of 2", "Page 2 of 2"],
        some (⟨1, 78⟩, ⟨"Feb 1, 2026", "Deposit", "+$25.00", "$400.00"⟩)) := by
  decide +kernel

/-! ## Texts -/

/-- The amount that a reader takes from a text, with its sign. -/
def readSigned (text : String) : ℤ :=
  if text.toList.head? = some '-' then -readCents text else readCents text

theorem head?_fmtCents (cents : ℤ) (sign : Bool) :
    (fmtCents cents sign).toList.head? = some '-' ↔ cents < 0 := by
  rw [fmtCents_eq]
  by_cases hneg : cents < 0
  · simp [hneg]
  · by_cases hplus : sign && decide (0 < cents)
    · simp [hneg, hplus]
    · simp [hneg, hplus]

theorem readSigned_fmtCents (cents : ℤ) (sign : Bool) :
    readSigned (fmtCents cents sign) = cents := by
  rw [readSigned, ((amounts_exact cents).1 sign).recovers]
  by_cases hneg : cents < 0
  · rw [if_pos ((head?_fmtCents cents sign).2 hneg)]
    omega
  · rw [if_neg (mt (head?_fmtCents cents sign).1 hneg)]
    omega

/-- An amount that is not negative, with a sign put in front. -/
theorem readCents_signed {mark : String} (hmark : mark.toList.all isMark = true) {cents : ℤ}
    (hcents : 0 ≤ cents) :
    (readCents (mark ++ withoutMinus (fmtCents cents false)) : ℤ) = cents := by
  have hneg : ¬ cents < 0 := not_lt.2 hcents
  rw [withoutMinus, if_neg (mt (head?_fmtCents cents false).1 hneg), fmtCents_eq, if_neg hneg,
    if_neg (by simp), String.empty_append, (printed_mark hmark cents).recovers]
  exact Int.natAbs_of_nonneg hcents

theorem readSigned_in {cents : ℤ} (h : 0 ≤ cents) :
    readSigned ("+" ++ withoutMinus (fmtCents cents false)) = cents := by
  rw [readSigned, if_neg (by simp)]
  exact readCents_signed rfl h

theorem readSigned_out {cents : ℤ} (h : 0 ≤ cents) :
    readSigned ("-" ++ withoutMinus (fmtCents cents false)) = -cents := by
  rw [readSigned, if_pos (by simp), readCents_signed rfl h]

/-! ## Adding up -/

theorem sum_in_nonneg (xs : List ℤ) : 0 ≤ (xs.filter fun x => 0 < x).sum := by
  refine List.sum_nonneg fun x hx => ?_
  have hpos := List.of_mem_filter hx
  simp only [decide_eq_true_eq] at hpos
  exact hpos.le

theorem sum_out_nonneg (xs : List ℤ) :
    0 ≤ ((xs.filter fun x => !decide (0 < x)).map Neg.neg).sum := by
  refine List.sum_nonneg fun x hx => ?_
  obtain ⟨y, hy, rfl⟩ := List.mem_map.1 hx
  have hneg := List.of_mem_filter hy
  simp only [Bool.not_eq_true', decide_eq_false_iff_not, not_lt] at hneg
  exact neg_nonneg.2 hneg

theorem rowsFrom_balances (opening : ℤ) (ts : List (Uuid × Transaction)) :
    (rowsFrom opening ts).map StatementRow.runningBalanceCents =
      Periods.balances opening (amounts ts) := by
  induction ts generalizing opening with
  | nil => rfl
  | cons t ts ih =>
    have hrest := ih (opening + t.2.amountCents)
    simp only [rowsFrom, amounts] at hrest ⊢
    simp [Periods.balances, hrest]

theorem balances_getLast? (opening : ℤ) (xs : List ℤ) :
    (Periods.balances opening xs).getLast?.getD opening = opening + xs.sum := by
  induction xs generalizing opening with
  | nil => simp [Periods.balances]
  | cons x xs ih =>
    rw [Periods.balances, List.getLast?_cons, Option.getD_some, ih, List.sum_cons, add_assoc]

/-- The cards and the rows, as amounts, add up. -/
structure AddsUp (opening moneyIn moneyOut closing : ℤ) (amounts balances : List ℤ) : Prop where
  cards : opening + moneyIn + moneyOut = closing
  moneyIn : (amounts.filter fun x => 0 < x).sum = moneyIn
  moneyOut : (amounts.filter fun x => x < 0).sum = moneyOut
  /-- Every balance is the one before and the amount beside it. -/
  running : balances = Periods.balances opening amounts
  closing : balances.getLast?.getD opening = closing

theorem sum_filter_neg (xs : List ℤ) : (xs.filter fun x => x < 0).sum =
    -((xs.filter fun x => !decide (0 < x)).map Neg.neg).sum := by
  induction xs with
  | nil => rfl
  | cons x xs ih =>
    rcases lt_trichotomy x 0 with hx | rfl | hx
    · simp [hx, hx.le, ih, add_comm]
    · simp [ih]
    · simp [hx, not_lt.2 hx.le, ih]

/-- **The texts of a statement add up**, whichever way it was made. -/
theorem texts_add_up {env : Env} {w : State} {v : StatementVars} (h : Renders env w v)
    (now : Instant) (s : Slot ℚ) : ∃ opening moneyIn moneyOut closing,
      ((renderDocument now s v).cards.map fun card => readSigned card.value) =
        [opening, moneyIn, moneyOut, closing] ∧
      AddsUp opening moneyIn moneyOut closing
        ((rowsOf (renderDocument now s v).table).map fun row => readSigned row.2.amount)
        ((rowsOf (renderDocument now s v).table).map fun row => readSigned row.2.balance) := by
  obtain ⟨account, first, last, opening, ts, rfl⟩ := h.exists_rows
  set doc := renderDocument now s (statementVars account first last opening ts)
  have hrows : (rowsOf doc.table).map Prod.snd = (rowsFrom opening ts).map rowTexts := by
    simp only [doc, renderDocument, statementVars, tally_eq]
    rw [rowsOf_drawTransactionTable, map_snd_place]
  have hread : ∀ text : RowTexts → String, ((rowsOf doc.table).map fun row =>
      readSigned (text row.2)) =
        (rowsFrom opening ts).map fun t => readSigned (text (rowTexts t)) := by
    intro text
    have htexts := congrArg (List.map fun texts => readSigned (text texts)) hrows
    rwa [List.map_map, List.map_map] at htexts
  have hamounts : ((rowsOf doc.table).map fun row => readSigned row.2.amount) = amounts ts := by
    rw [hread, ← rowsFrom_amounts opening ts]
    exact List.map_congr_left fun t _ => readSigned_fmtCents t.amountCents true
  have hbalances : ((rowsOf doc.table).map fun row => readSigned row.2.balance) =
      Periods.balances opening (amounts ts) := by
    rw [hread, ← rowsFrom_balances opening ts]
    exact List.map_congr_left fun t _ => readSigned_fmtCents t.runningBalanceCents false
  refine ⟨opening, ((amounts ts).filter fun x => 0 < x).sum,
    ((amounts ts).filter fun x => x < 0).sum, opening + (amounts ts).sum, ?_, ?_⟩
  · simp only [doc, renderDocument, summaryCards, statementVars, tally_eq, List.map_cons,
      List.map_nil, readSigned_fmtCents]
    rw [readSigned_in (sum_in_nonneg _), readSigned_out (sum_out_nonneg _), sum_filter_neg]
  · rw [hamounts, hbalances]
    have hsum := Periods.sum_filter_sub (fun x : ℤ => decide (0 < x)) (amounts ts)
    have hout := sum_filter_neg (amounts ts)
    exact ⟨by omega, rfl, rfl, rfl, balances_getLast? opening (amounts ts)⟩

/-- The statement of February that `generateOne` makes of Ann's account. -/
theorem texts_add_up_february : ∃ v, Renders samplePress (sampleBooks 1770681600000) v ∧
    ∃ opening moneyIn moneyOut closing,
      ((renderDocument 1772323200000 ⟨0, 338⟩ v).cards.map fun card => readSigned card.value) =
        [opening, moneyIn, moneyOut, closing] ∧
      AddsUp opening moneyIn moneyOut closing
        ((rowsOf (renderDocument 1772323200000 ⟨0, 338⟩ v).table).map fun row =>
          readSigned row.2.amount)
        ((rowsOf (renderDocument 1772323200000 ⟨0, 338⟩ v).table).map fun row =>
          readSigned row.2.balance) := by
  have hgiven : (given (generateOne samplePress 500 10 1769904000000 1772323200000)
      (sampleBooks 1770681600000)).length = 1 := by decide +kernel
  obtain ⟨v, hv⟩ := List.length_eq_one_iff.1 hgiven
  have hmem : v ∈ given (generateOne samplePress 500 10 1769904000000 1772323200000)
      (sampleBooks 1770681600000) := by
    rw [hv]
    exact List.mem_singleton_self v
  have hrenders : Renders samplePress (sampleBooks 1770681600000) v := .generateOne hmem
  exact ⟨v, hrenders, texts_add_up hrenders 1772323200000 ⟨0, 338⟩⟩

end BankDemo.Statements
