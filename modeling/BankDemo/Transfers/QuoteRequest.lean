import BankDemo.Transfers.Service

/-!
# Quotes for a request

`quoteForRequest`, behind `POST /transfers/quote`: it prices a request as `initiate` does, from a
scope that the request names where `initiate` derives it from the details of the wire. The amounts
of the answer are numbers here, where the source writes them as text.
-/

namespace BankDemo.Transfers

/-- The request of a quote. -/
structure QuoteDto where
  kind : TransferKind
  amountCents : ℤ
  instant : Bool
  wireScope : Option WireScope
  sendCurrency : Option String
  sendAmountMinor : Option ℤ
  deriving DecidableEq

/-- The answer of a quote: the quote, the settlement amount in USD cents and the conversion. -/
structure QuoteAnswer extends QuoteResult where
  settleCents : ℤ
  fx : Option FxConversion
  deriving DecidableEq

/-- `resolveSettlement`, on what it reads of a request; `convert` is `FxService.convert` to USD. -/
def resolveSettlementOf (env : Env) (convert : ℤ → String → Except Error FxConversion)
    (kind : TransferKind) (amountCents : ℤ) (sendCurrency : Option String)
    (sendAmountMinor : Option ℤ) : Except Error (ℤ × Option FxConversion) :=
  let send := env.toUpperCase (sendCurrency.getD "USD")
  match sendAmountMinor with
  | some minor =>
    if kind = .wireOut ∧ sendCurrency.getD "" ≠ "" then do
      let conv ← convert minor send
      return (conv.toAmountMinor, if conv.from_ = conv.to_ then none else some conv)
    else return (amountCents, none)
  | none => return (amountCents, none)

/-- It is the same function that `initiate` calls. -/
theorem resolveSettlement_eq (env : Env) (c : InitiateCall) : resolveSettlement env c =
    resolveSettlementOf env c.convert c.dto.kind c.dto.amountCents c.dto.sendCurrency
      c.dto.sendAmountMinor := rfl

/-- `TransfersService.quoteForRequest`. -/
def quoteForRequest (env : Env) (convert : ℤ → String → Except Error FxConversion)
    (dto : QuoteDto) : Except Error QuoteAnswer := do
  let (settlementCents, fx) ← resolveSettlementOf env convert dto.kind dto.amountCents
    dto.sendCurrency dto.sendAmountMinor
  return ⟨quote env.cfg dto.kind settlementCents dto.instant dto.wireScope, settlementCents, fx⟩

/-- The quote of a request of `initiate`: the same fields, with the scope that `initiate` derives. -/
def InitiateTransferDto.quoteDto (dto : InitiateTransferDto) : QuoteDto where
  kind := dto.kind
  amountCents := dto.amountCents
  instant := dto.instant
  wireScope := wireScope dto
  sendCurrency := dto.sendCurrency
  sendAmountMinor := dto.sendAmountMinor

/-- A quote is made where the settlement amount is resolved, and only there. -/
theorem quoteForRequest_ok {env : Env} {c : InitiateCall} {a : QuoteAnswer} :
    quoteForRequest env c.convert c.dto.quoteDto = .ok a ↔
      resolveSettlement env c = .ok (a.settleCents, a.fx) ∧ a.toQuoteResult =
        quote env.cfg c.dto.kind a.settleCents c.dto.instant (wireScope c.dto) := by
  rw [resolveSettlement_eq]
  simp only [quoteForRequest, InitiateTransferDto.quoteDto, Bind.bind, Except.bind]
  cases resolveSettlementOf env c.convert c.dto.kind c.dto.amountCents c.dto.sendCurrency
      c.dto.sendAmountMinor with
  | error e => simp
  | ok r =>
    obtain ⟨s, fx⟩ := r
    constructor
    · intro h
      cases h
      exact ⟨rfl, rfl⟩
    · rintro ⟨hr, hq⟩
      obtain ⟨q, s', fx'⟩ := a
      cases hr
      simp only at hq
      subst hq
      rfl

end BankDemo.Transfers
