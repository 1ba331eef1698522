import BankDemo.Store
import Mathlib.Data.Rat.Defs

/-!
# Exchange rates

`FxService` quotes rates from a table of units per US dollar, the live feed's or the pegged one: one
pair at a time (`getRate`, what a wire is converted at) and for many currencies at once
(`ratesPerUsd`, what the dashboard shows). Both put in the peg of a currency that the table does not
have. Rates are taken as rationals, and the ISO texts of instants as the instants. `inflight`, which
lets calls that overlap share one request, is left out, and so is the logging.
-/

namespace BankDemo.Fx

inductive CurrencyCode
  | usd | bhd | sar | aed | kwd | omr | qar | jod | eur | gbp | cny
  deriving DecidableEq

namespace CurrencyCode

/-- The code as the source spells it. -/
def text : CurrencyCode → String
  | usd => "USD"
  | bhd => "BHD"
  | sar => "SAR"
  | aed => "AED"
  | kwd => "KWD"
  | omr => "OMR"
  | qar => "QAR"
  | jod => "JOD"
  | eur => "EUR"
  | gbp => "GBP"
  | cny => "CNY"

end CurrencyCode

/-- `SUPPORTED_CURRENCIES`. -/
def supportedCurrencies : List CurrencyCode :=
  [.usd, .bhd, .sar, .aed, .kwd, .omr, .qar, .jod, .eur, .gbp, .cny]

/-- `isSupportedCurrency`: the currency that the text is the code of. -/
def supportedCurrency (code : String) : Option CurrencyCode :=
  supportedCurrencies.find? fun c => c.text = code

/-- `PEG_RATES_PER_USD`. -/
def pegRatesPerUsd : CurrencyCode → ℚ
  | .usd => 1
  | .bhd => 376 / 1000
  | .sar => 375 / 100
  | .aed => 36725 / 10000
  | .kwd => 3072 / 10000
  | .omr => 3845 / 10000
  | .qar => 364 / 100
  | .jod => 709 / 1000
  | .eur => 92 / 100
  | .gbp => 79 / 100
  | .cny => 72 / 10

/-! ## The table -/

/-- What the feed has for a currency: a number, or something else. -/
inductive JsonRate
  | number (rate : ℚ)
  | other (truthy : Bool)

structure RateTable where
  /-- Units per 1 USD, of the currencies that are supported. -/
  perUsd : CurrencyCode → Option JsonRate
  asOf : Instant
  source : RateSource

/-- What the feed answers. -/
structure Payload where
  result : Option String
  rates : Option (CurrencyCode → Option JsonRate)
  /-- `time_last_update_utc`, unless it is missing or empty: the instant, if it is one. -/
  timeLastUpdate : Option (Option Instant)

/-- What the service keeps of the last table. -/
structure Cache where
  cache : Option RateTable
  fetchedAtMs : Instant

/-- `pegTable`. -/
def pegTable : RateTable where
  perUsd c := some (.number (pegRatesPerUsd c))
  asOf := 0
  source := .peg

/-- One hour. -/
def ttlMs : ℤ := 60 * 60 * 1000

/-- `json.rates?.USD` is truthy. -/
def hasUsd (rates : CurrencyCode → Option JsonRate) : Bool :=
  match rates .usd with
  | none => false
  | some (.number rate) => rate ≠ 0
  | some (.other truthy) => truthy

/-- The table of an answer. -/
def liveTable (now : Instant) (json : Payload) : Option RateTable :=
  match json.rates with
  | none => none
  | some rates =>
    if json.result ≠ some "success" ∨ hasUsd rates = false then none
    else match json.timeLastUpdate with
      | none => some ⟨rates, now, .live⟩
      | some none => none
      | some (some asOf) => some ⟨rates, asOf, .live⟩

/-- `cacheFresh`, with what is cached. -/
def fresh (now : Instant) (s : Cache) : Option RateTable :=
  if now - s.fetchedAtMs < ttlMs then s.cache else none

/-- `loadTable`, where the request would be answered with `feed`, or fail. -/
def loadTable (now : Instant) (feed : Option Payload) : StateT Cache (Except Error) RateTable :=
  fun s => match fresh now s with
    | some table => .ok (table, s)
    | none =>
      let table := (feed.bind (liveTable now)).getD pegTable
      .ok (table, ⟨some table, now⟩)

/-! ## Quotes -/

structure FxRate where
  from_ : CurrencyCode
  to_ : CurrencyCode
  rate : ℚ
  asOf : Instant
  source : RateSource

/-- `assertCurrency`. -/
def assertCurrency (code : String) : Except Error CurrencyCode :=
  match supportedCurrency code with
  | none => .error (.badRequest s!"UNSUPPORTED_CURRENCY:{code}")
  | some c => .ok c

/-- `perUsd` of `getRate`: the rate, and whether it is the peg. -/
def perUsd (table : RateTable) (c : CurrencyCode) : ℚ × Bool :=
  match table.perUsd c with
  | some (.number live) =>
    if live > 0 ∧ table.source = .live then (live, false) else (pegRatesPerUsd c, true)
  | _ => (pegRatesPerUsd c, true)

/-- `getRate` on two currencies and the table. -/
def crossRate (table : RateTable) (from_ to_ : CurrencyCode) : FxRate :=
  let f := perUsd table from_
  let t := perUsd table to_
  let pegged := table.source = .peg || f.2 || t.2
  { from_, to_
    rate := t.1 / f.1
    asOf := if pegged then 0 else table.asOf
    source := if pegged then .peg else .live }

/-- `getRate`. -/
def getRate (now : Instant) (feed : Option Payload) (fromRaw toRaw : String) :
    StateT Cache (Except Error) FxRate := do
  let from_ ← assertCurrency fromRaw
  let to_ ← assertCurrency toRaw
  if from_ = to_ then return ⟨from_, to_, 1, now, .peg⟩
  else do
    let table ← loadTable now feed
    return crossRate table from_ to_

/-- The answer of `ratesPerUsd`. -/
structure RatesPerUsd where
  rates : Table CurrencyCode ℚ
  asOf : Instant
  source : RateSource

/-- What `ratesPerUsd` puts down for a currency. -/
def rateOf (table : RateTable) (c : CurrencyCode) : ℚ :=
  match table.perUsd c with
  | some (.number live) =>
    if table.source = .live ∧ live > 0 then live else pegRatesPerUsd c
  | _ => pegRatesPerUsd c

/-- `ratesPerUsd` on the currencies and the table. -/
def ratesOf (table : RateTable) (codes : List CurrencyCode) : RatesPerUsd where
  rates := codes.foldl (fun rates c => rates.insert c (rateOf table c)) ∅
  asOf := if table.source = .live then table.asOf else 0
  source := table.source

/-- `ratesPerUsd`; `toUpperCase` is JavaScript's. -/
def ratesPerUsd (toUpperCase : String → String) (now : Instant) (feed : Option Payload)
    (codesRaw : Option (List String)) : StateT Cache (Except Error) RatesPerUsd := do
  let raw := match codesRaw with
    | none | some [] => supportedCurrencies.map CurrencyCode.text
    | some codes => codes
  let codes := (raw.map toUpperCase).filterMap supportedCurrency
  let table ← loadTable now feed
  return ratesOf table codes

/-! ## Rules -/

/-- The rate of a currency in a live table: a positive number. -/
def RateTable.live (table : RateTable) (c : CurrencyCode) : Option ℚ :=
  match table.perUsd c with
  | some (.number rate) => if table.source = .live ∧ 0 < rate then some rate else none
  | _ => none

theorem RateTable.live_some {table : RateTable} {c : CurrencyCode} {rate : ℚ}
    (h : table.live c = some rate) : table.source = .live ∧ 0 < rate := by
  unfold RateTable.live at h
  split at h
  · split at h
    · rename_i hlive
      obtain rfl := Option.some.inj h
      exact hlive
    · cases h
  · cases h

theorem perUsd_eq (table : RateTable) (c : CurrencyCode) :
    perUsd table c = ((table.live c).getD (pegRatesPerUsd c), (table.live c).isNone) := by
  unfold perUsd RateTable.live
  split
  · simp only [gt_iff_lt, and_comm]
    split <;> rfl
  · rfl

theorem rateOf_eq (table : RateTable) (c : CurrencyCode) :
    rateOf table c = (table.live c).getD (pegRatesPerUsd c) := by
  unfold rateOf RateTable.live
  split
  · split <;> rfl
  · rfl

theorem supportedCurrency_text (c : CurrencyCode) : supportedCurrency c.text = some c := by
  cases c <;> decide

/-- A table that was loaded is loaded again as long as it is fresh. -/
theorem loadTable_again {now now' : Instant} {feed feed' : Option Payload} {s s' : Cache}
    {table : RateTable} (h : loadTable now feed s = .ok (table, s'))
    (hfresh : now' - s'.fetchedAtMs < ttlMs) : loadTable now' feed' s' = .ok (table, s') := by
  have hcached : s'.cache = some table := by
    unfold loadTable at h
    split at h
    · rename_i t hs
      cases h
      unfold fresh at hs
      split at hs
      · exact hs
      · cases hs
    · cases h
      rfl
  simp only [loadTable, fresh, if_pos hfresh, hcached]

end BankDemo.Fx
