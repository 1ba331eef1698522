import BankDemo.Schema
import Mathlib.Tactic.Linarith

/-!
# Quotes

`computeQuote` prices a transfer: it refuses amounts outside the configured limits and instant
internal moves, and computes the fee. A valid quote is for an amount between the limits
(`computeQuote_valid`), and its fee is not negative when the configured floor is not
(`quoteFee_nonneg`).
-/

namespace BankDemo.Transfers

inductive WireScope
  | domestic | international
  deriving DecidableEq

structure QuoteResult where
  valid : Bool
  feeCents : ℤ
  etaText : String
  minAmountCents : ℤ
  maxAmountCents : ℤ
  reason : Option String
  deriving DecidableEq

structure QuoteParams where
  kind : TransferKind
  amountCents : ℤ
  instant : Bool
  minCents : ℤ
  maxCents : ℤ
  instantFeeBps : ℤ
  instantFeeMinCents : ℤ
  wireScope : Option WireScope

/-- The configuration read by the constructor of `TransfersService`. -/
structure TransferConfig where
  minCents : ℤ
  maxCents : ℤ
  wireMaxCents : ℤ
  feeBps : ℤ
  feeMin : ℤ
  settleInstantMs : ℤ
  settleStandardMs : ℤ
  reviewThresholdCents : ℤ
  deriving DecidableEq

/-- The defaults. -/
def TransferConfig.default : TransferConfig where
  minCents := 500
  maxCents := 2500000
  wireMaxCents := 50000000
  feeBps := 175
  feeMin := 25
  settleInstantMs := 5000
  settleStandardMs := 30000
  reviewThresholdCents := 100000

/-- `WIRE_FEE_CENTS`. -/
def wireFeeCents : WireScope → ℤ
  | .domestic => 350
  | .international => 460

/-- `(Number(cents) / 100).toFixed(2)`. -/
def toFixed2 (cents : ℤ) : String :=
  let sign := if cents < 0 then "-" else ""
  let abs := cents.natAbs
  let pad := if abs % 100 < 10 then "0" else ""
  s!"{sign}{abs / 100}.{pad}{abs % 100}"

/-- `externalKinds.includes(kind)`. -/
def isExternal : TransferKind → Bool
  | .internal => false
  | _ => true

/-- The fee of a request that passed the checks. BigInt division truncates. -/
def quoteFee (p : QuoteParams) : ℤ :=
  if p.instant then
    let calc_ := (p.amountCents * p.instantFeeBps).tdiv 10000
    if calc_ > p.instantFeeMinCents then calc_ else p.instantFeeMinCents
  else if p.kind = .wireOut then wireFeeCents (p.wireScope.getD .domestic)
  else 0

/-- The delivery estimate of a request that passed the checks. -/
def quoteEta (p : QuoteParams) : String :=
  if p.instant then "Within minutes"
  else if p.kind = .wireOut then
    match p.wireScope.getD .domestic with
    | .international => "1–3 business days · international"
    | .domestic => "Same business day · domestic"
  else if isExternal p.kind then "1–3 business days"
  else "Instant"

/-- `computeQuote`. -/
def computeQuote (p : QuoteParams) : QuoteResult :=
  let result : QuoteResult := ⟨true, 0, "", p.minCents, p.maxCents, none⟩
  if p.amountCents < p.minCents then
    { result with valid := false, reason := some s!"Minimum transfer is {toFixed2 p.minCents}" }
  else if p.amountCents > p.maxCents then
    { result with valid := false, reason := some s!"Maximum transfer is {toFixed2 p.maxCents}" }
  else if p.instant && !isExternal p.kind then
    { result with
      valid := false
      reason := some "Instant not available for internal transfers" }
  else { result with feeCents := quoteFee p, etaText := quoteEta p }

/-- `TransfersService.quote`. -/
def quote (cfg : TransferConfig) (kind : TransferKind) (amountCents : ℤ) (instant : Bool)
    (wireScope : Option WireScope) : QuoteResult :=
  computeQuote {
    kind, amountCents, instant
    minCents := cfg.minCents
    maxCents := if kind = .wireOut then cfg.wireMaxCents else cfg.maxCents
    instantFeeBps := cfg.feeBps
    instantFeeMinCents := cfg.feeMin
    wireScope }

theorem computeQuote_valid {p : QuoteParams} (h : (computeQuote p).valid = true) :
    p.minCents ≤ p.amountCents ∧ p.amountCents ≤ p.maxCents ∧
      (computeQuote p).feeCents = quoteFee p := by
  unfold computeQuote at h ⊢
  simp only at h ⊢
  split at h
  · cases h
  · rename_i hmin
    split at h
    · cases h
    · rename_i hmax
      split at h
      · cases h
      · rename_i hinst
        refine ⟨by omega, by omega, ?_⟩
        rw [if_neg hmin, if_neg hmax, if_neg hinst]

theorem wireFeeCents_nonneg (s : WireScope) : 0 ≤ wireFeeCents s := by
  cases s <;> decide

theorem quoteFee_nonneg {p : QuoteParams} (h : 0 ≤ p.instantFeeMinCents) : 0 ≤ quoteFee p := by
  unfold quoteFee
  simp only
  split
  · split <;> omega
  · split
    · exact wireFeeCents_nonneg _
    · exact le_rfl

/-- A configuration under which no valid quote has a negative fee. -/
def TransferConfig.FeesNonneg (cfg : TransferConfig) : Prop :=
  ∀ kind amountCents instant wireScope, (quote cfg kind amountCents instant wireScope).valid →
    0 ≤ (quote cfg kind amountCents instant wireScope).feeCents

/-- A fee floor that is not negative is enough. -/
theorem feesNonneg_of_feeMin {cfg : TransferConfig} (h : 0 ≤ cfg.feeMin) : cfg.FeesNonneg := by
  intro kind amountCents instant wireScope hv
  rw [quote, (computeQuote_valid hv).2.2]
  exact quoteFee_nonneg h

/-- A configuration under which no valid quote is for a negative amount or a negative total. -/
def TransferConfig.TotalsNonneg (cfg : TransferConfig) : Prop :=
  ∀ kind amountCents instant wireScope, (quote cfg kind amountCents instant wireScope).valid →
    0 ≤ amountCents ∧
      0 ≤ amountCents + (quote cfg kind amountCents instant wireScope).feeCents

theorem quote_min {cfg : TransferConfig} {kind : TransferKind} {amountCents : ℤ} {instant : Bool}
    {wireScope : Option WireScope} (h : (quote cfg kind amountCents instant wireScope).valid) :
    cfg.minCents ≤ amountCents :=
  (computeQuote_valid h).1

/-- A minimum and a fee floor that are not negative are enough. -/
theorem totalsNonneg_of_min {cfg : TransferConfig} (hmin : 0 ≤ cfg.minCents)
    (hfee : 0 ≤ cfg.feeMin) : cfg.TotalsNonneg := by
  intro kind amountCents instant wireScope hv
  have hamount := quote_min hv
  have hfees := feesNonneg_of_feeMin hfee kind amountCents instant wireScope hv
  exact ⟨by omega, by omega⟩

end BankDemo.Transfers
