import BankDemo.Foundations.Grouping
import BankDemo.Foundations.JsDate
import BankDemo.Foundations.PageRows
import BankDemo.Notifications.Service
import BankDemo.Statements.Service
import Mathlib.Algebra.Order.Ring.Rat
import Mathlib.Tactic.NormNum

/-!
# A statement on paper

`fmtCents` writes the amounts of a statement. The services that send notices have functions of
their own for it (`formatCents`, `formatUsd`), with the same regular expression for the thousands.
Here what the three write is compared and read back (`amounts_exact`).

Then what `StatementRenderer` draws: the four cards, the rows of the table with the places where they
are drawn, and a footer on every page. The place where the table begins depends on the fonts and on
how long the name of the account holder is, and is a parameter; the places within a row, the fonts
and the colours that say nothing are left out. The places are exact rationals, and `text()` of PDFKit
is taken to add no pages of its own: only the `addPage()` of the source does.
-/

namespace BankDemo.Statements

open Grouping JsDate Notifications PageRows

/-- `fmtCents`, with the option `sign`. -/
def fmtCents (cents : ℤ) (sign : Bool) : String :=
  let abs := cents.natAbs
  let dollars := abs / 100
  let c := abs % 100
  let groups := String.ofList (insertCommas none (toString dollars).toList)
  let body := "$" ++ groups ++ "." ++ pad 2 (c : ℕ)
  if cents < 0 then "-" ++ body else if sign && 0 < cents then "+" ++ body else body

/-- The signs, `$`, the comma and the point. -/
def isMark (c : Char) : Bool := ['-', '+', '$', ',', '.'].contains c

/-- The number of cents that a text says: what is left without the marks, as a decimal number. -/
def readCents (text : String) : ℕ :=
  Nat.ofDigitChars 10 (text.toList.filter fun c => !isMark c) 0

/-- An amount as it is to be printed, with a mark in front. -/
structure Printed (mark : String) (cents : ℤ) (text : String) : Prop where
  /-- The mark, `$`, the dollars with a comma between every three digits from the right and none in
  front, the point and two digits. -/
  shape : ∃ dollars hundredths : List Char,
    text.toList = mark.toList ++ '$' :: dollars ++ '.' :: hundredths ∧
    Grouped ',' 3 (toString (cents.natAbs / 100)).toList dollars ∧ dollars.head? ≠ some ',' ∧
    hundredths.length = 2 ∧ ∀ c ∈ hundredths, c.isDigit = true
  recovers : readCents text = cents.natAbs

/-! ## The dollars -/

theorem toList_toString (n : ℕ) : (toString n).toList = Nat.toDigits 10 n := Nat.toList_repr ..

theorem isDigit_of_mem_toString {n : ℕ} {c : Char} (hc : c ∈ (toString n).toList) :
    c.isDigit = true := by
  rw [toList_toString] at hc
  exact Nat.isDigit_of_mem_toDigits (by omega) (by omega) hc

theorem toString_ne_nil (n : ℕ) : (toString n).toList ≠ [] := by
  rw [toList_toString]
  exact Nat.toDigits_ne_nil

theorem grouped_dollars (n : ℕ) :
    Grouped ',' 3 (toString n).toList (insertCommas none (toString n).toList) :=
  grouped_insertCommas (toString_ne_nil n) fun _ hc => isDigit_of_mem_toString hc

theorem grouped_withCommasRev {ds : List Char} (hne : ds ≠ []) :
    Grouped ',' 3 ds.reverse (withCommasRev ds).reverse := by
  fun_induction withCommasRev ds with
  | case1 a b c d rest ih =>
    have hgroup : [c, b, a].length = 3 := rfl
    simpa using (ih (by simp)).concat hgroup
  | case2 ds hshort =>
    refine Grouped.short (by simpa using hne) ?_
    rcases ds with _ | ⟨a, _ | ⟨b, _ | ⟨c, _ | ⟨d, rest⟩⟩⟩⟩
    · simp
    · simp
    · simp
    · simp
    · exact absurd rfl (hshort a b c d rest)

/-- Groups of three from the last digit are what the regular expression makes. -/
theorem withCommas_eq_insertCommas (n : ℕ) :
    withCommas n = String.ofList (insertCommas none (toString n).toList) := by
  have hne : (toString n).toList.reverse ≠ [] := List.reverse_ne_nil_iff.2 (toString_ne_nil n)
  have h := grouped_withCommasRev hne
  rw [List.reverse_reverse] at h
  rw [withCommas, h.unique (grouped_dollars n)]

/-! ## The amounts -/

theorem isMark_digit {c : Char} (hc : c.isDigit = true) : isMark c = false := by
  rw [isMark, List.contains_eq_mem, decide_eq_false_iff_not]
  intro hmem
  have hmarks : ['-', '+', '$', ',', '.'].all (fun m => !m.isDigit) = true := rfl
  have hno := List.all_eq_true.1 hmarks c hmem
  rw [hc] at hno
  exact Bool.false_ne_true hno

theorem filter_digits {l : List Char} (hl : ∀ c ∈ l, c.isDigit = true) :
    l.filter (fun c => !isMark c) = l :=
  List.filter_eq_self.2 fun c hc => by rw [isMark_digit (hl c hc)]; rfl

/-- Without its marks the text in groups is the digits. -/
theorem filter_grouped {digits text : List Char} (h : Grouped ',' 3 digits text)
    (hdigits : ∀ c ∈ digits, c.isDigit = true) : text.filter (fun c => !isMark c) = digits := by
  have hcomma : ',' ∉ digits := fun hmem => absurd (hdigits _ hmem) (by decide)
  have hboth : text.filter (fun c => !isMark c) =
      (text.filter (· ≠ ',')).filter fun c => !isMark c := by
    rw [List.filter_filter]
    refine List.filter_congr fun c _ => ?_
    rcases eq_or_ne c ',' with rfl | hne
    · rfl
    · rw [decide_eq_true hne, Bool.and_true]
  rw [hboth, h.filter hcomma, filter_digits hdigits]

/-- What the three functions have in common. -/
theorem printed_mark {mark : String} (hmark : mark.toList.all isMark = true) (cents : ℤ) :
    Printed mark cents (mark ++ ("$" ++ formatUsd cents)) := by
  set abs := cents.natAbs
  have hgrouped := grouped_dollars (abs / 100)
  have hdigits : ∀ c ∈ (pad 2 (abs % 100 : ℕ)).toList, c.isDigit = true :=
    fun c hc => isDigit_of_mem_pad (by omega) hc
  have htext : (mark ++ ("$" ++ formatUsd cents)).toList = mark.toList ++
      '$' :: insertCommas none (toString (abs / 100)).toList ++
      '.' :: (pad 2 (abs % 100 : ℕ)).toList := by
    simp [formatUsd, withCommas_eq_insertCommas, abs]
  have hlength : (pad 2 (abs % 100 : ℕ)).toList.length = 2 :=
    length_pad_eq (by omega) (by omega) (by omega)
  have hfront : (insertCommas none (toString (abs / 100)).toList).head? ≠ some ',' := by
    rw [hgrouped.head?_eq]
    intro hcomma
    exact absurd (isDigit_of_mem_toString (List.mem_of_head? hcomma)) (by decide)
  refine ⟨⟨_, _, htext, hgrouped, hfront, hlength, hdigits⟩, ?_⟩
  have hread : readCents (mark ++ ("$" ++ formatUsd cents)) =
      Nat.ofDigitChars 10 ((toString (abs / 100)).toList ++ (pad 2 (abs % 100 : ℕ)).toList) 0 := by
    have hnone : mark.toList.filter (fun c => !isMark c) = [] :=
      List.filter_eq_nil_iff.2 fun c hc => by simp [List.all_eq_true.1 hmark c hc]
    rw [readCents, htext, List.filter_append, List.filter_append, hnone,
      List.filter_cons_of_neg (by decide), List.filter_cons_of_neg (by decide),
      filter_grouped hgrouped fun _ hc => isDigit_of_mem_toString hc, filter_digits hdigits]
    rfl
  rw [hread, Nat.ofDigitChars_append, Nat.ofDigitChars_eq_ofDigitChars_zero, hlength,
    ofDigitChars_pad 2 (by omega), toList_toString, Nat.ofDigitChars_ten_toDigits]
  omega

theorem fmtCents_eq (cents : ℤ) (sign : Bool) : fmtCents cents sign =
    (if cents < 0 then "-" else if sign && 0 < cents then "+" else "") ++
      ("$" ++ formatUsd cents) := by
  have hbody : "$" ++ String.ofList (insertCommas none (toString (cents.natAbs / 100)).toList) ++
      "." ++ pad 2 (cents.natAbs % 100 : ℕ) = "$" ++ formatUsd cents := by
    rw [formatUsd, withCommas_eq_insertCommas, String.append_assoc, String.append_assoc,
      String.append_assoc]
  rw [fmtCents, hbody]
  split
  · rfl
  · split
    · rfl
    · rw [String.empty_append]

theorem formatCents_eq (cents : ℤ) : formatCents cents =
    (if cents < 0 then "-" else "") ++ ("$" ++ formatUsd cents) := String.append_assoc

/-- **An amount is printed exactly.** -/
theorem amounts_exact (cents : ℤ) :
    (∀ sign : Bool, Printed (if cents < 0 then "-" else if sign && 0 < cents then "+" else "")
      cents (fmtCents cents sign)) ∧
    Printed (if cents < 0 then "-" else "") cents (formatCents cents) ∧
    (0 ≤ cents → fmtCents cents false = formatCents cents ∧
      formatCents cents = "$" ++ formatUsd cents) := by
  refine ⟨fun sign => ?_, ?_, fun hpos => ?_⟩
  · rw [fmtCents_eq]
    refine printed_mark ?_ cents
    split
    · decide
    · split <;> decide
  · rw [formatCents_eq]
    refine printed_mark ?_ cents
    split <;> decide
  · have hneg : ¬ cents < 0 := by omega
    have hplain : formatCents cents = "$" ++ formatUsd cents := by
      rw [formatCents_eq, if_neg hneg, String.empty_append]
    refine ⟨?_, hplain⟩
    rw [hplain, fmtCents_eq, if_neg hneg, if_neg (by simp), String.empty_append]

theorem amounts_exact_of_positive : fmtCents 123456789 false = formatCents 123456789 ∧
    formatCents 123456789 = "$" ++ formatUsd 123456789 :=
  (amounts_exact 123456789).2.2 (by decide)

/-! ## Texts -/

def MONTHS : List String :=
  ["January", "February", "March", "April", "May", "June",
    "July", "August", "September", "October", "November", "December"]

/-- `MONTHS[d.getUTCMonth()].slice(0, 3)`. -/
def monthName (d : Instant) : String :=
  String.ofList (((MONTHS[(getUTCMonth d).toNat]?).getD "").toList.take 3)

def fmtDate (d : Instant) : String :=
  monthName d ++ " " ++ toString (getUTCDate d) ++ ", " ++ toString (getUTCFullYear d)

/-- The replacement of a `-` at the start by nothing. -/
def withoutMinus (text : String) : String :=
  if text.toList.head? = some '-' then String.ofList text.toList.tail else text

/-! ## The cards -/

structure Card where
  label : String
  value : String
  accent : Bool
  deriving DecidableEq

/-- The `cards` of `drawSummaryCards`. -/
def summaryCards (vars : StatementVars) : List Card :=
  [⟨"OPENING BALANCE", fmtCents vars.openingBalanceCents false, false⟩,
    ⟨"MONEY IN", "+" ++ withoutMinus (fmtCents vars.totalInCents false), false⟩,
    ⟨"MONEY OUT", "-" ++ withoutMinus (fmtCents vars.totalOutCents false), false⟩,
    ⟨"CLOSING BALANCE", fmtCents vars.closingBalanceCents false, true⟩]

/-! ## The table -/

/-- The texts of a row. -/
structure RowTexts where
  date : String
  description : String
  amount : String
  balance : String
  deriving DecidableEq

/-- What is drawn for a table: the bar with the names of the columns, a row or the text of an empty
table. -/
inductive Drawn
  | header
  | row (zebra : Bool) (positive : Bool) (texts : RowTexts)
  | empty (text : String)
  deriving DecidableEq

/-- `doc.page.margins.top`. -/
def topMargin : ℚ := 56

/-- The height of the bar with the names. -/
def headerH : ℚ := 22

def rowH : ℚ := 22

/-- `doc.page.height - 90`, on paper of the size `LETTER`. -/
def bottomLimit : ℚ := 792 - 90

def rowTexts (t : StatementRow) : RowTexts where
  date := fmtDate t.occurredAt
  description := if t.description = "" then "—" else t.description
  amount := fmtCents t.amountCents true
  balance := fmtCents t.runningBalanceCents false

/-- The row with the index `idx`. -/
def drawRow (idx : ℕ) (t : StatementRow) : Drawn :=
  .row (idx % 2 = 1) (0 < t.amountCents) (rowTexts t)

/-- The loop over the rows from the place that is reached: what is drawn, and the place below it. -/
def drawRows : Slot ℚ → ℕ → List StatementRow → List (Slot ℚ × Drawn) × Slot ℚ
  | s, _, [] => ([], s)
  | s, idx, t :: rest =>
    if bottomLimit < s.y + rowH then
      -- `doc.addPage()`, with the names of the columns again.
      let s' : Slot ℚ := ⟨s.page + 1, topMargin + headerH⟩
      let later := drawRows ⟨s'.page, s'.y + rowH⟩ (idx + 1) rest
      ((⟨s.page + 1, topMargin⟩, .header) :: (s', drawRow idx t) :: later.1, later.2)
    else
      let later := drawRows ⟨s.page, s.y + rowH⟩ (idx + 1) rest
      ((s, drawRow idx t) :: later.1, later.2)

/-- `drawTransactionTable` from where the bar with the names is drawn. -/
def drawTransactionTable (s : Slot ℚ) (transactions : List StatementRow) :
    List (Slot ℚ × Drawn) × Slot ℚ :=
  let y := s.y + headerH
  if transactions.length = 0 then
    ([(s, .header), (⟨s.page, y + 16⟩, .empty "No posted transactions in this period.")],
      ⟨s.page, y + 36⟩)
  else
    let rows := drawRows ⟨s.page, y⟩ 0 transactions
    ((s, .header) :: rows.1, rows.2)

/-! ## The document -/

/-- What is on the pages of a statement. -/
structure Document where
  /-- The period in the head of the first page. -/
  period : String
  /-- The day in the head of the first page. -/
  issued : String
  holder : String
  account : String
  routing : String
  cards : List Card
  /-- The number of rows, beside the title of the table. -/
  posted : String
  table : List (Slot ℚ × Drawn)
  /-- The footer of every page. -/
  footers : List String
  deriving DecidableEq

/-- `Page ${page} of ${total}`. -/
def drawFooter (page total : ℕ) : String := "Page " ++ toString page ++ " of " ++ toString total

/-- `StatementRenderer.render` at the time `now`; the table begins at `s`. -/
def renderDocument (now : Instant) (s : Slot ℚ) (vars : StatementVars) : Document :=
  let table := drawTransactionTable s vars.transactions
  let count := table.2.page + 1
  { period := fmtDate vars.periodStart ++ " — " ++ fmtDate vars.periodEnd
    issued := "Issued " ++ fmtDate now
    holder := vars.userFullName
    account := vars.accountLabel ++ "  " ++ vars.accountNumberMasked
    routing := "Routing · " ++ vars.routingNumber
    cards := summaryCards vars
    posted := toString vars.transactions.length ++ " posted in this period"
    table := table.1
    footers := (List.range count).map fun i => drawFooter (i + 1) count }

/-! ## Rows and bars -/

/-- The rows of what is drawn, without the bars. -/
def rowsOf (drawn : List (Slot ℚ × Drawn)) : List (Slot ℚ × RowTexts) :=
  drawn.filterMap fun d => match d.2 with
    | .row _ _ texts => some (d.1, texts)
    | _ => none

/-- The pages of a statement, for its rows. -/
def sheet : Sheet ℚ where
  rowH := rowH
  top := topMargin + headerH
  limit := bottomLimit
  top_fits := by norm_num [topMargin, headerH, rowH, bottomLimit]

/-- The rows are put where the rows of a table go. -/
theorem rowsOf_drawRows (s : Slot ℚ) (idx : ℕ) (ts : List StatementRow) :
    rowsOf (drawRows s idx ts).1 = sheet.place s (ts.map rowTexts) := by
  induction ts generalizing s idx with
  | nil => rfl
  | cons t rest ih =>
    rw [drawRows, List.map_cons, Sheet.place, Sheet.slot]
    have hlater : ∀ s', rowsOf (drawRows ⟨s'.page, s'.y + rowH⟩ (idx + 1) rest).1 =
        sheet.place (sheet.below s') (rest.map rowTexts) := fun s' => ih _ _
    by_cases hfull : bottomLimit < s.y + rowH
    · have hlimit : sheet.limit < s.y + sheet.rowH := hfull
      rw [if_pos hfull, if_pos hlimit, ← hlater]
      rfl
    · have hlimit : ¬ sheet.limit < s.y + sheet.rowH := hfull
      rw [if_neg hfull, if_neg hlimit, ← hlater]
      rfl

theorem rowsOf_drawTransactionTable (s : Slot ℚ) (ts : List StatementRow) :
    rowsOf (drawTransactionTable s ts).1 =
      sheet.place ⟨s.page, s.y + headerH⟩ (ts.map rowTexts) := by
  rw [drawTransactionTable]
  split
  · next hnone =>
    rw [List.length_eq_zero_iff.1 hnone]
    rfl
  · exact rowsOf_drawRows _ _ _

/-- On every page that is added there is a bar at the top. -/
theorem header_of_mem_drawRows {s : Slot ℚ} {idx : ℕ} {ts : List StatementRow} :
    ∀ x ∈ rowsOf (drawRows s idx ts).1, x.1.page = s.page ∨
      (⟨x.1.page, topMargin⟩, Drawn.header) ∈ (drawRows s idx ts).1 := by
  induction ts generalizing s idx with
  | nil => simp [drawRows, rowsOf]
  | cons t rest ih =>
    rw [drawRows]
    by_cases hfull : bottomLimit < s.y + rowH
    · rw [if_pos hfull]
      intro x hx
      rcases List.mem_cons.1 hx with rfl | hx
      · exact .inr (List.mem_cons_self ..)
      · rcases ih x hx with hpage | hmem
        · rw [hpage]
          exact .inr (List.mem_cons_self ..)
        · exact .inr (List.mem_cons_of_mem _ (List.mem_cons_of_mem _ hmem))
    · rw [if_neg hfull]
      intro x hx
      rcases List.mem_cons.1 hx with rfl | hx
      · exact .inl rfl
      · exact (ih x hx).imp id (List.mem_cons_of_mem _)

end BankDemo.Statements
