import BankDemo.Fx.Service

/-!
# One source of truth for exchange rates

`ratesPerUsd` reports what the table says against the dollar, and where the table comes from;
`getRate` divides by the dollar's own entry, and says of each pair whether a peg was put in. For a
currency that the live feed lacks the first reports the peg as a live rate (`missing_reported_live`).

* `fx_agree_iff`: the two agree on a currency exactly when it is not the dollar and either the table
  is the pegged one or it has the currency and its entry of the dollar is 1. From the dollar to
  itself `getRate` reports a peg of the present moment, which a pegged table never is.
-/

namespace BankDemo.Fx

/-- The bulk answer has the rate of the pair, with the same provenance. -/
structure SameQuote (r : RatesPerUsd) (g : FxRate) : Prop where
  rate : r.rates.lookup g.to_ = some g.rate
  asOf : r.asOf = g.asOf
  source : r.source = g.source

/-- The table is one on which the two quotes agree about the currency, at this moment. -/
def Agreeing (table : RateTable) (now : Instant) (c : CurrencyCode) : Prop :=
  if c = .usd then table.source = .peg ∧ now = 0
  else table.source = .peg ∨ table.live .usd = some 1 ∧ (table.live c).isSome

theorem live_of_peg {table : RateTable} (h : table.source = .peg) (c : CurrencyCode) :
    table.live c = none := by
  by_contra hne
  obtain ⟨rate, hrate⟩ := Option.ne_none_iff_exists'.1 hne
  rw [(RateTable.live_some hrate).1] at h
  cases h

/-- A pair from the dollar, across the table. -/
theorem sameQuote_iff (table : RateTable) (c : CurrencyCode) :
    SameQuote (ratesOf table [c]) (crossRate table .usd c) ↔
      table.source = .peg ∨ table.live .usd = some 1 ∧ (table.live c).isSome := by
  have hrates : (ratesOf table [c]).rates.lookup c = some (rateOf table c) := AList.lookup_insert _
  cases hsource : table.source with
  | peg =>
    refine ⟨fun _ => .inl rfl, fun _ => ⟨?_, ?_, ?_⟩⟩
    · simp only [crossRate, hrates, rateOf_eq, perUsd_eq, live_of_peg hsource, Option.getD_none]
      simp [pegRatesPerUsd]
    · simp [ratesOf, crossRate, hsource]
    · simp [ratesOf, crossRate, hsource]
  | live =>
    cases husd : table.live .usd with
    | none =>
      -- the pair is a peg, and the table is not
      refine ⟨fun h => ?_, fun h => by simp at h⟩
      have hpeg := h.source
      simp [ratesOf, crossRate, perUsd_eq, husd, hsource] at hpeg
    | some u =>
      obtain ⟨-, hu⟩ := RateTable.live_some husd
      cases hrate : table.live c with
      | none =>
        refine ⟨fun h => ?_, fun h => by simp at h⟩
        have hpeg := h.source
        simp [ratesOf, crossRate, perUsd_eq, hrate, hsource] at hpeg
      | some v =>
        obtain ⟨-, hv⟩ := RateTable.live_some hrate
        constructor
        · intro h
          have hquotient := h.rate
          simp only [crossRate, hrates, rateOf_eq, perUsd_eq, husd, hrate, Option.getD_some,
            Option.some.injEq] at hquotient
          have hone : u = 1 := by
            rw [eq_div_iff hu.ne'] at hquotient
            exact mul_left_cancel₀ hv.ne' (hquotient.trans (mul_one v).symm)
          rw [hone]
          exact .inr ⟨rfl, rfl⟩
        · rintro (hpeg | ⟨hone, -⟩)
          · cases hpeg
          · obtain rfl := Option.some.inj hone
            refine ⟨?_, ?_, ?_⟩
            · simp only [crossRate, hrates, rateOf_eq, perUsd_eq, husd, hrate, Option.getD_some,
                div_one]
            · simp [ratesOf, crossRate, perUsd_eq, husd, hrate, hsource]
            · simp [ratesOf, crossRate, perUsd_eq, husd, hrate, hsource]

/-- The dollar itself: `getRate` does not look at the table. -/
theorem sameQuote_usd_iff (table : RateTable) (now : Instant) :
    SameQuote (ratesOf table [.usd]) ⟨.usd, .usd, 1, now, .peg⟩ ↔
      table.source = .peg ∧ now = 0 := by
  have hrates : (ratesOf table [.usd]).rates.lookup .usd = some (rateOf table .usd) :=
    AList.lookup_insert _
  constructor
  · intro h
    have hpeg : table.source = .peg := h.source
    have hnow := h.asOf
    simp only [ratesOf, hpeg, reduceCtorEq, if_false] at hnow
    exact ⟨hpeg, hnow.symm⟩
  · rintro ⟨hpeg, rfl⟩
    refine ⟨?_, ?_, hpeg⟩
    · rw [hrates, rateOf_eq, live_of_peg hpeg]
      rfl
    · simp [ratesOf, hpeg]

theorem ratesPerUsd_one {toUpperCase : String → String} {now : Instant} {feed : Option Payload}
    {s s₁ : Cache} {table : RateTable} {c : CurrencyCode}
    (hupper : toUpperCase c.text = c.text) (hload : loadTable now feed s = .ok (table, s₁)) :
    ratesPerUsd toUpperCase now feed (some [c.text]) s = .ok (ratesOf table [c], s₁) := by
  have hcodes : ([c.text].map toUpperCase).filterMap supportedCurrency = [c] := by
    simp [hupper, supportedCurrency_text]
  refine Prog.body_bind_ok.2 ⟨table, s₁, hload, ?_⟩
  rw [hcodes]
  rfl

theorem getRate_usd {now : Instant} {feed : Option Payload} {s s₁ : Cache} {table : RateTable}
    {c : CurrencyCode} (hload : loadTable now feed s = .ok (table, s₁)) (hc : c ≠ .usd) :
    getRate now feed "USD" c.text s = .ok (crossRate table .usd c, s₁) := by
  have hto : assertCurrency c.text = .ok c := by
    rw [assertCurrency, supportedCurrency_text]
  refine Prog.body_bind_ok.2 ⟨.usd, s, rfl, Prog.body_bind_ok.2 ⟨c, s, ?_, ?_⟩⟩
  · rw [hto]
    rfl
  · rw [if_neg fun h => hc h.symm]
    exact Prog.body_bind_ok.2 ⟨table, s₁, hload, rfl⟩

/-- **The two quotes of a rate.** Whatever table is loaded, from the feed or the cache, `ratesPerUsd`
of one supported currency and then `getRate` from the dollar to it, while the table is fresh, report
the same rate with the same provenance exactly when the table is one they agree on. -/
theorem fx_agree_iff (toUpperCase : String → String)
    (hupper : ∀ c : CurrencyCode, toUpperCase c.text = c.text) (now now' : Instant)
    (feed feed' : Option Payload) (s s₁ : Cache) (table : RateTable)
    (hload : loadTable now feed s = .ok (table, s₁)) (hfresh : now' - s₁.fetchedAtMs < ttlMs)
    (c : CurrencyCode) :
    ∃ r g s₂, ratesPerUsd toUpperCase now feed (some [c.text]) s = .ok (r, s₁) ∧
      getRate now' feed' "USD" c.text s₁ = .ok (g, s₂) ∧
      (SameQuote r g ↔ Agreeing table now' c) := by
  have hrates := ratesPerUsd_one (hupper c) hload
  by_cases hc : c = .usd
  · subst hc
    refine ⟨_, ⟨.usd, .usd, 1, now', .peg⟩, s₁, hrates, rfl, ?_⟩
    rw [sameQuote_usd_iff, Agreeing, if_pos rfl]
  · refine ⟨_, _, s₁, hrates, getRate_usd (loadTable_again hload hfresh) hc, ?_⟩
    rw [sameQuote_iff table c, Agreeing, if_neg hc]

/-- Upper case, on the letters of ASCII. -/
def sampleUpper (s : String) : String := String.ofList (s.toList.map Char.toUpper)

/-- The feed has the dollar and the euro. -/
def samplePayload : Payload where
  result := some "success"
  rates := some fun c => match c with
    | .usd => some (.number 1)
    | .eur => some (.number (9 / 10))
    | _ => none
  timeLastUpdate := some (some 1000)

/-- A cache that was never filled. -/
def emptyCache : Cache := ⟨none, 0⟩

theorem sampleUpper_text (c : CurrencyCode) : sampleUpper c.text = c.text := by
  cases c <;> decide

/-- The euro, which the feed has: 0.9 to the dollar, live, from both. -/
theorem fx_agree_euro : ∃ r g s₁ s₂,
    ratesPerUsd sampleUpper ttlMs (some samplePayload) (some ["EUR"]) emptyCache = .ok (r, s₁) ∧
      getRate ttlMs none "USD" "EUR" s₁ = .ok (g, s₂) ∧ SameQuote r g := by
  obtain ⟨r, g, s₂, hr, hg, hsame⟩ := fx_agree_iff sampleUpper sampleUpper_text ttlMs ttlMs
    (some samplePayload) none emptyCache _ _ rfl (by decide) .eur
  exact ⟨r, g, _, s₂, hr, hg, hsame.2 (.inr ⟨by decide +kernel, by decide +kernel⟩)⟩

/-- The yuan, which the feed lacks: both put in its peg, which `ratesPerUsd` reports as live. -/
theorem missing_reported_live :
    ¬ ∀ (toUpperCase : String → String), (∀ c : CurrencyCode, toUpperCase c.text = c.text) →
        ∀ (now : Instant) (feed : Option Payload) (s : Cache) (c : CurrencyCode), ∃ r g s₁ s₂,
          ratesPerUsd toUpperCase now feed (some [c.text]) s = .ok (r, s₁) ∧
            getRate now feed "USD" c.text s₁ = .ok (g, s₂) ∧ SameQuote r g := by
  intro h
  obtain ⟨r, g, s₁, s₂, hr, hg, hsame⟩ := h sampleUpper sampleUpper_text ttlMs (some samplePayload)
    emptyCache .cny
  have hload : loadTable ttlMs (some samplePayload) emptyCache =
      .ok (⟨_, 1000, .live⟩, ⟨some ⟨_, 1000, .live⟩, ttlMs⟩) := rfl
  rw [ratesPerUsd_one (sampleUpper_text .cny) hload] at hr
  cases hr
  rw [getRate_usd (loadTable_again hload (by decide)) (by decide)] at hg
  cases hg
  rcases (sameQuote_iff _ _).1 hsame with hpeg | ⟨-, hlive⟩
  · cases hpeg
  · cases hlive

end BankDemo.Fx
