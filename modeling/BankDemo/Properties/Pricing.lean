import BankDemo.Properties.Books
import BankDemo.System.Atomic
import BankDemo.Transfers.QuoteRequest

/-!
# Prices and what they do

The quote of a request is what `initiate` charges for it: the two resolve the settlement amount and
price it alike, and the debit takes the amount and the fee of the quote (`quote_is_charged`). For a
configuration with a negative fee the fee is taken off the balance but not posted.

The instant fee replaces the flat fee of an outgoing wire, and may be lower (`instant_price_iff`).

What a transfer does to the balances in the end is put together from its debit and its settlement
(`net_effect_iff`): an inflow is debited as any other transfer, and then credited.
-/

namespace BankDemo

open Ledger Transfers Admin

/-! ## `initiate`, alone -/

section Initiate

variable {env : Env} {i : ℕ} {ic : InitiateCall}

/-- Under a key that was not used, `initiate` creates a transfer or changes nothing. -/
theorem initiate_creates (w : World)
    (hkey : findByIdempotencyKey w.db ic.idempotencyKey = none) :
    Yields w (initiate env i ic) (Creates env ic w.db) := by
  unfold initiate
  split
  · exact yields_throw rfl
  · rename_i hne
    refine yields_query ?_
    split
    · exact yields_throw rfl
    · refine yields_query ?_
      simp only [hkey]
      exact initiateNew_creates hne w

theorem run_query_bind {α β : Type} (f : Db → α) (k : α → Service β) (w : World) :
    (query f >>= k).run w = (k (f w.db)).run w := rfl

/-- A request whose quote is invalid is refused, whatever the state, and changes nothing. -/
theorem initiate_invalid {a : QuoteAnswer} (w : World)
    (hquote : quoteForRequest env ic.convert ic.dto.quoteDto = .ok a) (hinvalid : a.valid = false)
    (hkey : findByIdempotencyKey w.db ic.idempotencyKey = none) :
    ∃ e, (initiate env i ic).run w = (.error e, w) := by
  obtain ⟨hs, hq⟩ := quoteForRequest_ok.1 hquote
  have hrefused : (quote env.cfg ic.dto.kind a.settleCents ic.dto.instant
      (wireScope ic.dto)).valid = false := by
    rw [← hq]
    exact hinvalid
  unfold initiate
  split
  · exact ⟨_, rfl⟩
  · rw [run_query_bind]
    split
    · exact ⟨_, rfl⟩
    · rw [run_query_bind, hkey]
      refine ⟨.badRequest ((quote env.cfg ic.dto.kind a.settleCents ic.dto.instant
        (wireScope ic.dto)).reason.getD "Invalid transfer"), ?_⟩
      simp only [initiateNew, hs, Prog.lift, Prog.run_bind, Prog.run, hrefused]
      rfl

end Initiate

/-! ## The quote is what is charged -/

/-- The transfer was made at the price: its row has the amount and the fee, and what was taken from
the balance, posted to the sub-ledger of the account and written to the feed is their sum. -/
structure Charged (ic : InitiateCall) (amount fee : ℤ) (db db' : Db) : Prop where
  transfer : ∃ t, Table.Created ic.transferId t db.transfers db'.transfers ∧
    t.amountCents = amount ∧ t.feeCents = fee ∧ t.fromAccountId = ic.dto.fromAccountId
  balance : Credited ic.dto.fromAccountId (-(amount + fee)) db db'
  booked : ∃ ps, Booked (.pending ic.transferId) ps db db' ∧
    DoubleEntry.net ps (accountSubLedgerCode ic.dto.fromAccountId) = -(amount + fee)
  feed : ∃ row, Table.Created ic.pendingTxId row db.transactions db'.transactions ∧
    row.accountId = ic.dto.fromAccountId ∧ row.status = .pending ∧
    row.amountCents = -(amount + fee)

/-- A new transfer is at the price that is quoted for the request. -/
theorem Admitted.quoted {env : Env} {ic : InitiateCall} {t : Transfer} (h : Admitted env ic t) :
    ∃ a, quoteForRequest env ic.convert ic.dto.quoteDto = .ok a ∧ a.valid = true ∧
      t.amountCents = a.settleCents ∧ t.feeCents = a.feeCents ∧ t.kind = ic.dto.kind ∧
      t.fromAccountId = ic.dto.fromAccountId := by
  obtain ⟨s, fx, toAccount, hs, hvalid, rfl⟩ := h.row
  exact ⟨⟨quote env.cfg ic.dto.kind s ic.dto.instant (wireScope ic.dto), s, fx⟩,
    quoteForRequest_ok.2 ⟨hs, rfl⟩, hvalid, rfl, rfl, rfl, rfl⟩

theorem charged_of_initiated {ic : InitiateCall} {t : Transfer} {db db' : Db}
    (h : Initiated ic t db db') (hfrom : t.fromAccountId = ic.dto.fromAccountId)
    (hfee : 0 ≤ t.feeCents) : Charged ic t.amountCents t.feeCents db db' := by
  refine ⟨⟨t, h.transfers, rfl, rfl, hfrom⟩, ?_, ?_, ?_⟩
  · rw [← hfrom]
    exact h.balance
  · refine ⟨_, h.booked, ?_⟩
    rw [← hfrom, accountSubLedgerCode, net_pendingLegs hfee, if_pos rfl]
  · obtain ⟨row, haccount, hstatus, hamount, hcreated⟩ := h.feed
    exact ⟨row, hcreated, haccount.trans hfrom, hstatus, hamount⟩

/-- **The quote is what is charged.** Under a configuration that quotes no negative fee, for every
request of `initiate` and every state in which its key was not used: if the quote for the request is
invalid, `initiate` throws and changes nothing; if `initiate` throws, the database is as it was; and
if it does not, the quote was valid and is what is charged. -/
theorem quote_is_charged (env : Env) (hfees : env.cfg.FeesNonneg) (me : ℕ) (ic : InitiateCall)
    (dto : QuoteDto) (hdto : dto = ic.dto.quoteDto) (w : World)
    (hkey : findByIdempotencyKey w.db ic.idempotencyKey = none) :
    (∀ a, quoteForRequest env ic.convert dto = .ok a → a.valid = false →
      ∃ e, (initiate env me ic).run w = (.error e, w)) ∧
    (∀ e w', (initiate env me ic).run w = (.error e, w') → w'.db = w.db) ∧
    ∀ res w', (initiate env me ic).run w = (.ok res, w') →
      ∃ a, quoteForRequest env ic.convert dto = .ok a ∧ a.valid = true ∧
        Charged ic a.settleCents a.feeCents w.db w'.db := by
  subst hdto
  have hcreates : Yields w (initiate env me ic) (Creates env ic w.db) := initiate_creates w hkey
  refine ⟨fun a hquote hinvalid => initiate_invalid w hquote hinvalid hkey, fun e w' hrun => ?_,
    fun res w' hrun => ?_⟩
  · simp only [Yields, hrun] at hcreates
    exact hcreates
  · simp only [Yields, hrun] at hcreates
    obtain ⟨t, hadmitted, -, hinitiated⟩ := hcreates
    obtain ⟨a, hquote, hvalid, hamount, hfee, -, hfrom⟩ := hadmitted.quoted
    refine ⟨a, hquote, hvalid, ?_⟩
    rw [← hamount, ← hfee]
    refine charged_of_initiated hinitiated hfrom ?_
    obtain ⟨s, fx, toAccount, -, hv, rfl⟩ := hadmitted.row
    exact hfees _ _ _ _ hv

/-- An instant payment of 20.00 to Bob. -/
def sampleInstant : InitiateCall := samplePay .p2p 20 100 2000 true

theorem quote_is_charged_payment :
    ∃ w' : World, Charged sampleInstant 2000 35 sampleWorld.db w'.db ∧ w'.db.balance 10 = 497965 := by
  obtain ⟨-, -, hcharged⟩ := quote_is_charged sampleEnv (feesNonneg_of_feeMin (by decide)) 0
    sampleInstant _ rfl sampleWorld rfl
  have hok : ((initiate sampleEnv 0 sampleInstant).run sampleWorld).1.isOk = true := by
    decide +kernel
  have hprice : (quoteForRequest sampleEnv sampleInstant.convert sampleInstant.dto.quoteDto).map
      (fun a => (a.settleCents, a.feeCents)) = .ok (2000, 35) := by decide +kernel
  have hbalance : ((initiate sampleEnv 0 sampleInstant).run sampleWorld).2.db.balance 10 =
      497965 := by decide +kernel
  cases hrun : (initiate sampleEnv 0 sampleInstant).run sampleWorld with
  | mk r w' =>
    rw [hrun] at hok hbalance
    cases r with
    | error e => cases hok
    | ok res =>
      obtain ⟨a, hquote, -, h⟩ := hcharged res w' hrun
      rw [hquote] at hprice
      simp only [Except.map, Except.ok.injEq, Prod.mk.injEq] at hprice
      obtain ⟨hsettle, hfee⟩ := hprice
      rw [hsettle, hfee] at h
      exact ⟨w', h, hbalance⟩

/-- With a negative fee, the balance falls by less than what is posted. -/
theorem rebate_not_charged :
    ¬ ∀ (env : Env) (me : ℕ) (ic : InitiateCall) (dto : QuoteDto), dto = ic.dto.quoteDto →
      ∀ w : World, findByIdempotencyKey w.db ic.idempotencyKey = none → ∀ res w',
        (initiate env me ic).run w = (.ok res, w') →
        ∃ a, quoteForRequest env ic.convert dto = .ok a ∧ a.valid = true ∧
          Charged ic a.settleCents a.feeCents w.db w'.db := by
  intro h
  have hok : ((initiate rebateEnv 0 sampleInstant).run sampleWorld).1.isOk = true := by
    decide +kernel
  have hprice : (quoteForRequest rebateEnv sampleInstant.convert sampleInstant.dto.quoteDto).map
      (fun a => (a.settleCents, a.feeCents)) = .ok (2000, -100) := by decide +kernel
  have hposted : ((initiate rebateEnv 0 sampleInstant).run sampleWorld).2.db.net (.account 10) =
      -2000 := by decide +kernel
  have hnothing : sampleWorld.db.net (.account 10) = 0 := by decide +kernel
  cases hrun : (initiate rebateEnv 0 sampleInstant).run sampleWorld with
  | mk r w' =>
    rw [hrun] at hok hposted
    cases r with
    | error e => cases hok
    | ok res =>
      obtain ⟨a, hquote, -, hcharged⟩ := h rebateEnv 0 sampleInstant _ rfl sampleWorld rfl res w' hrun
      rw [hquote] at hprice
      simp only [Except.map, Except.ok.injEq, Prod.mk.injEq] at hprice
      obtain ⟨hsettle, hfee⟩ := hprice
      obtain ⟨ps, hbooked, hnet⟩ := hcharged.booked
      have hafter := hbooked.net (.account 10)
      rw [hsettle, hfee] at hnet
      rw [hposted, hnothing, show DoubleEntry.net ps (.account 10) = _ from hnet] at hafter
      omega

/-! ## Instant and standard -/

/-- What a request takes from the balance: `totalDebit`. -/
def totalDebit (cfg : TransferConfig) (kind : TransferKind) (settlementCents : ℤ) (instant : Bool)
    (scope : Option WireScope) : ℤ :=
  settlementCents + (quote cfg kind settlementCents instant scope).feeCents

/-- The values of the configuration that prices depend on are not negative. -/
structure Transfers.TransferConfig.Nonneg (cfg : TransferConfig) : Prop where
  minCents : 0 ≤ cfg.minCents
  maxCents : 0 ≤ cfg.maxCents
  wireMaxCents : 0 ≤ cfg.wireMaxCents
  feeBps : 0 ≤ cfg.feeBps
  feeMin : 0 ≤ cfg.feeMin

/-- The request is not for an outgoing wire, or the percentage or the floor of the instant fee covers
the flat fee of the wire. -/
def CoversWireFee (cfg : TransferConfig) (kind : TransferKind) (settlementCents : ℤ)
    (scope : Option WireScope) : Prop :=
  kind = .wireOut → wireFeeCents (scope.getD .domestic) ≤ cfg.feeMin ∨
    10000 * wireFeeCents (scope.getD .domestic) ≤ settlementCents * cfg.feeBps

/-- The request, as an instant or a standard one. -/
def Transfers.InitiateCall.asked (ic : InitiateCall) (instant : Bool) : InitiateCall :=
  { ic with dto := { ic.dto with instant } }

section Instant

variable {cfg : TransferConfig} {kind : TransferKind} {amount : ℤ} {scope : Option WireScope}

/-- The instant fee is at least another fee when the floor or the percentage is. -/
theorem le_instantFee_iff {p : QuoteParams} (hinstant : p.instant = true) {fee : ℤ}
    (hnonneg : 0 ≤ p.amountCents * p.instantFeeBps) : fee ≤ quoteFee p ↔
      fee ≤ p.instantFeeMinCents ∨ 10000 * fee ≤ p.amountCents * p.instantFeeBps := by
  have hcalc : fee ≤ (p.amountCents * p.instantFeeBps).tdiv 10000 ↔
      10000 * fee ≤ p.amountCents * p.instantFeeBps := by
    rw [Int.tdiv_eq_ediv_of_nonneg hnonneg]
    omega
  rw [quoteFee, if_pos hinstant, ← hcalc]
  simp only
  split <;> omega

/-- The fee of a standard request. -/
theorem standardFee (hvalid : (quote cfg kind amount false scope).valid = true) :
    (quote cfg kind amount false scope).feeCents =
      if kind = .wireOut then wireFeeCents (scope.getD .domestic) else 0 :=
  (computeQuote_valid hvalid).2.2

theorem totalDebit_le_iff (hcfg : cfg.Nonneg)
    (hinstant : (quote cfg kind amount true scope).valid = true)
    (hstandard : (quote cfg kind amount false scope).valid = true) :
    totalDebit cfg kind amount false scope ≤ totalDebit cfg kind amount true scope ↔
      CoversWireFee cfg kind amount scope := by
  have hamount : 0 ≤ amount := hcfg.minCents.trans (quote_min hinstant)
  have hnonneg : 0 ≤ amount * cfg.feeBps := mul_nonneg hamount hcfg.feeBps
  have hfee : (quote cfg kind amount true scope).feeCents = quoteFee _ :=
    (computeQuote_valid hinstant).2.2
  rw [totalDebit, totalDebit, standardFee hstandard, hfee, Int.add_le_add_iff_left,
    le_instantFee_iff rfl hnonneg, CoversWireFee]
  by_cases hkind : kind = .wireOut
  · simp [hkind]
  · have hmin := hcfg.feeMin
    simp [hkind, hmin]

end Instant

/-- What `initiate` takes from the balance is the total at the settlement amount, and the quote of
this amount is valid. -/
theorem initiate_takes {env : Env} {me : ℕ} (ic : InitiateCall) {w w' : World}
    {res : InitiateResult} {s : ℤ} {fx : Option FxConversion}
    (hkey : findByIdempotencyKey w.db ic.idempotencyKey = none)
    (hs : resolveSettlement env ic = .ok (s, fx))
    (hrun : (initiate env me ic).run w = (.ok res, w')) :
    (quote env.cfg ic.dto.kind s ic.dto.instant (wireScope ic.dto)).valid = true ∧
      w'.db.balance ic.dto.fromAccountId = w.db.balance ic.dto.fromAccountId -
        totalDebit env.cfg ic.dto.kind s ic.dto.instant (wireScope ic.dto) := by
  have hcreates : Yields w (initiate env me ic) (Creates env ic w.db) := initiate_creates w hkey
  simp only [Yields, hrun] at hcreates
  obtain ⟨t, hadmitted, -, hinitiated⟩ := hcreates
  obtain ⟨s', fx', toAccount, hs', hvalid, rfl⟩ := hadmitted.row
  cases hs.symm.trans hs'
  refine ⟨hvalid, ?_⟩
  rw [Credited.balance hinitiated.balance]
  simp only [newTransfer, if_pos, totalDebit]
  omega

/-- **When choosing instant does not lower the price.** Under a configuration without negative
values, for every request that is valid both as an instant and as a standard one, the instant total is
at least the standard one if and only if the request is not for an outgoing wire, or the instant fee
covers the flat fee of the wire. These totals are what `initiate` takes: where it makes a transfer for
either request, it takes no less for the instant one if and only if that is so. -/
theorem instant_price_iff (env : Env) (hcfg : env.cfg.Nonneg) :
    (∀ kind amount scope, (quote env.cfg kind amount true scope).valid = true →
      (quote env.cfg kind amount false scope).valid = true →
        (totalDebit env.cfg kind amount false scope ≤ totalDebit env.cfg kind amount true scope ↔
          CoversWireFee env.cfg kind amount scope)) ∧
    ∀ me ic s fx w w₁ w₂ res₁ res₂, findByIdempotencyKey w.db ic.idempotencyKey = none →
      resolveSettlement env ic = .ok (s, fx) →
      (initiate env me (ic.asked true)).run w = (.ok res₁, w₁) →
      (initiate env me (ic.asked false)).run w = (.ok res₂, w₂) →
        (w₁.db.balance ic.dto.fromAccountId ≤ w₂.db.balance ic.dto.fromAccountId ↔
          CoversWireFee env.cfg ic.dto.kind s (wireScope ic.dto)) := by
  refine ⟨fun kind amount scope => totalDebit_le_iff hcfg, ?_⟩
  intro me ic s fx w w₁ w₂ res₁ res₂ hkey hs hinstant hstandard
  obtain ⟨hvalid₁, htakes₁⟩ := initiate_takes (ic.asked true) hkey hs hinstant
  obtain ⟨hvalid₂, htakes₂⟩ := initiate_takes (ic.asked false) hkey hs hstandard
  have hle : w₁.db.balance ic.dto.fromAccountId ≤ w₂.db.balance ic.dto.fromAccountId ↔
      totalDebit env.cfg ic.dto.kind s false (wireScope ic.dto) ≤
        totalDebit env.cfg ic.dto.kind s true (wireScope ic.dto) := by
    rw [show w₁.db.balance ic.dto.fromAccountId = _ from htakes₁,
      show w₂.db.balance ic.dto.fromAccountId = _ from htakes₂]
    exact sub_le_sub_iff_left _
  exact hle.trans (totalDebit_le_iff hcfg hvalid₁ hvalid₂)

theorem default_nonneg : TransferConfig.default.Nonneg :=
  ⟨by decide, by decide, by decide, by decide, by decide⟩

/-- An international wire of 20.00. -/
def pricedWire : InitiateCall := samplePay .wireOut 20 100 2000 false

theorem instant_price_iff_wire :
    ¬ totalDebit sampleEnv.cfg .wireOut 2000 false (some .international) ≤
        totalDebit sampleEnv.cfg .wireOut 2000 true (some .international) ∧
      totalDebit sampleEnv.cfg .wireOut 2000000 false (some .international) ≤
        totalDebit sampleEnv.cfg .wireOut 2000000 true (some .international) := by
  have hiff := (instant_price_iff sampleEnv default_nonneg).1 .wireOut
  constructor
  · rw [hiff 2000 (some .international) (by decide) (by decide), CoversWireFee]
    decide
  · rw [hiff 2000000 (some .international) (by decide) (by decide), CoversWireFee]
    decide

/-- The wire of 20.00 costs 0.35 when it is instant, and 4.60 when it is not. -/
theorem instant_wire_cheaper :
    ¬ ∀ (env : Env) (me : ℕ) (ic : InitiateCall) (w w₁ w₂ : World) (res₁ res₂ : InitiateResult),
      env.cfg.Nonneg → findByIdempotencyKey w.db ic.idempotencyKey = none →
      (initiate env me (ic.asked true)).run w = (.ok res₁, w₁) →
      (initiate env me (ic.asked false)).run w = (.ok res₂, w₂) →
      w₁.db.balance ic.dto.fromAccountId ≤ w₂.db.balance ic.dto.fromAccountId := by
  intro h
  have hok : ∀ instant, ((initiate sampleEnv 0 (pricedWire.asked instant)).run sampleWorld).1.isOk =
      true := by decide +kernel
  have hinstant : ((initiate sampleEnv 0 (pricedWire.asked true)).run sampleWorld).2.db.balance 10 =
      497965 := by decide +kernel
  have hstandard : ((initiate sampleEnv 0 (pricedWire.asked false)).run sampleWorld).2.db.balance 10 =
      497540 := by decide +kernel
  have hrun : ∀ instant, ∃ res, (initiate sampleEnv 0 (pricedWire.asked instant)).run sampleWorld =
      (.ok res, ((initiate sampleEnv 0 (pricedWire.asked instant)).run sampleWorld).2) := by
    intro instant
    have hinst := hok instant
    generalize (initiate sampleEnv 0 (pricedWire.asked instant)).run sampleWorld = x at hinst ⊢
    obtain ⟨r, w⟩ := x
    cases r with
    | error e => cases hinst
    | ok res => exact ⟨res, rfl⟩
  obtain ⟨res₁, hrun₁⟩ := hrun true
  obtain ⟨res₂, hrun₂⟩ := hrun false
  have hle := h sampleEnv 0 pricedWire sampleWorld _ _ res₁ res₂ default_nonneg rfl hrun₁ hrun₂
  rw [show pricedWire.dto.fromAccountId = 10 from rfl, hinstant, hstandard] at hle
  omega

/-! ## The net effect of a settled transfer -/

/-- What a settled transfer should do to the balance of the account `x`: debited by amount and fee
and delivered to the destination, or, for funds that arrive, credited by the amount less the fee. -/
def netEffect (kind : TransferKind) (amount fee : ℤ) (from_ to_ x : Uuid) : ℤ :=
  match kind with
  | .internal | .p2p =>
    (if x = from_ then -(amount + fee) else 0) + if x = to_ then amount else 0
  | .achOut | .wireOut => if x = from_ then -(amount + fee) else 0
  | .achIn | .wireIn => if x = from_ then amount - fee else 0

/-- The call approves the transfer. -/
def Call.Approves (id : Uuid) : Call → Prop
  | .decide c => c.transferId = id ∧ c.decision = .approved
  | .approve c => c.transferId = id
  | _ => False

/-- From `w₀`, the request makes a transfer, which is approved if that is wanted and then processed,
and is posted in the end. -/
structure SettledAlone (env : Env) (me : ℕ) (ic : InitiateCall) (pc : ProcessCall) (w₀ w₃ : World) :
    Prop where
  key : findByIdempotencyKey w₀.db ic.idempotencyKey = none
  subject : pc.transferId = ic.transferId
  run : ∃ res w₁ w₂, (initiate env me ic).run w₀ = (.ok res, w₁) ∧
    (w₂ = w₁ ∨ ∃ c : Call, c.Approves ic.transferId ∧ w₂ = ((program env me c).run w₁).2) ∧
    (process me pc).run w₂ = (.ok (), w₃)
  posted : ∃ t, w₃.db.transfers.lookup ic.transferId = some t ∧ t.status = .posted

/-- What the settlement of a transfer does to the balance of the account `x`. -/
def credit? (t : Transfer) (x : Uuid) : ℤ :=
  if creditedAccount t = some x then t.amountCents else 0

/-- Where a new transfer is on its way: still pending, or posted and delivered. -/
def Underway (id : Uuid) (t₀ : Transfer) (db₁ db : Db) : Prop :=
  ∃ t, db.transfers.lookup id = some t ∧ t.terms = t₀.terms ∧
    ((t.status = .pending ∧ ∀ x, db.balance x = db₁.balance x) ∨
      (t.status = .posted ∧ ∀ x, db.balance x = db₁.balance x + credit? t₀ x))

section Settling

variable {id : Uuid} {t₀ : Transfer} {db₁ db db' : Db}

theorem credit?_of_terms {t t' : Transfer} (h : t'.terms = t.terms) : credit? t' = credit? t :=
  column_of_terms credit? (fun _ => rfl) h

theorem balance_of_settled {pc : ProcessCall} {t : Transfer} (h : Settled pc t db db') (x : Uuid) :
    db'.balance x = db.balance x + credit? t x := by
  have hbalance := h.balance
  unfold credit?
  cases hc : creditedAccount t with
  | none =>
    rw [hc] at hbalance
    simpa using balance_of_accounts_eq hbalance x
  | some a =>
    rw [hc] at hbalance
    rw [Credited.balance hbalance]
    by_cases hx : x = a
    · rw [if_pos hx, hx, if_pos rfl]
    · rw [if_neg hx, if_neg fun h => hx (Option.some.inj h).symm]

/-- A run of the worker. -/
theorem Underway.settle {pc : ProcessCall} (h : Underway id t₀ db₁ db) (hpc : pc.transferId = id)
    (hstep : SettleStep pc db db') : Underway id t₀ db₁ db' := by
  rcases hstep with rfl | ⟨t, ht, hs, hsettled⟩
  · exact h
  · obtain ⟨t', ht', hterms, hstands⟩ := h
    subst hpc
    obtain rfl := Option.some.inj (ht.symm.trans ht')
    have hrow := hsettled.transfers.replaced ht
    refine ⟨stampSettled pc t, by rw [hrow.lookup, if_pos rfl], hterms, .inr ⟨rfl, fun x => ?_⟩⟩
    rcases hstands with ⟨-, hbalance⟩ | ⟨hposted, -⟩
    · rw [balance_of_settled hsettled, hbalance, credit?_of_terms hterms]
    · rw [pending_of_settleable hs] at hposted
      cases hposted

/-- An approval of the pending transfer. -/
theorem Underway.approve {fc : ForceSettleCall} {f : Transfer → Transfer}
    (h : Underway id t₀ db₁ db) (hfc : fc.transferId = id)
    (hpending : ∀ t, db.transfers.lookup id = some t → t.status = .pending)
    (hstep : ApproveStep fc f db db')
    (hf : ∀ t, (f t).terms = t.terms ∧ (f t).status = t.status) : Underway id t₀ db₁ db' := by
  rcases hstep with rfl | ⟨t, db₂, ht, -, -, hstamp, db₃, hreopen, hsettle⟩
  · exact h
  · subst hfc
    obtain ⟨t', ht', hterms, hstands⟩ := h
    obtain rfl := Option.some.inj (ht.symm.trans ht')
    have hrow : db₂.transfers.lookup fc.transferId = some (f t) := by
      rw [hstamp.lookup, if_pos rfl, ht, Option.map_some]
    have hstill := (hf t).2.trans (hpending t ht)
    have hmid : Underway fc.transferId t₀ db₁ db₂ := by
      refine ⟨f t, hrow, (hf t).1.trans hterms, .inl ⟨hstill, fun x => ?_⟩⟩
      rw [hstamp.balance]
      rcases hstands with ⟨-, hbalance⟩ | ⟨hposted, -⟩
      · exact hbalance x
      · rw [hpending t ht] at hposted
        cases hposted
    rcases hreopen with ⟨-, rfl⟩ | ⟨t'', ht'', hstatus, -⟩
    · exact hmid.settle rfl hsettle
    · obtain rfl := Option.some.inj (hrow.symm.trans ht'')
      exact absurd hstill hstatus

end Settling

/-- What initiating and settling a transfer does to the balances, whatever its kind. -/
theorem SettledAlone.balance {env : Env} {me : ℕ} {ic : InitiateCall} {pc : ProcessCall}
    {w₀ w₃ : World} (h : SettledAlone env me ic pc w₀ w₃) {a : QuoteAnswer}
    (hquote : quoteForRequest env ic.convert ic.dto.quoteDto = .ok a) :
    ∃ t, t.kind = ic.dto.kind ∧ t.amountCents = a.settleCents ∧
      t.fromAccountId = ic.dto.fromAccountId ∧ t.toAccountId = ic.dto.toAccountId ∧
      ∀ x, w₃.db.balance x = w₀.db.balance x +
        (if x = ic.dto.fromAccountId then -(a.settleCents + a.feeCents) else 0) + credit? t x := by
  obtain ⟨res, w₁, w₂, hinit, happroved, hprocess⟩ := h.run
  have hcreates : Yields w₀ (initiate env me ic) (Creates env ic w₀.db) :=
    initiate_creates w₀ h.key
  simp only [Yields, hinit] at hcreates
  obtain ⟨t, hadmitted, hto, hinitiated⟩ := hcreates
  obtain ⟨a', hquote', -, hamount, hfee, hkind, hfrom⟩ := hadmitted.quoted
  obtain rfl := Except.ok.inj (hquote.symm.trans hquote')
  have hrow : w₁.db.transfers.lookup ic.transferId = some t := by
    rw [hinitiated.transfers.lookup, if_pos rfl]
  have hnew : t.status = .pending := by
    obtain ⟨s, fx, toAccount, -, -, rfl⟩ := hadmitted.row
    rfl
  have hstart : Underway ic.transferId t w₁.db w₁.db :=
    ⟨t, hrow, rfl, .inl ⟨hnew, fun _ => rfl⟩⟩
  have hpending : ∀ t', w₁.db.transfers.lookup ic.transferId = some t' → t'.status = .pending := by
    intro t' ht'
    obtain rfl := Option.some.inj (hrow.symm.trans ht')
    exact hnew
  have hmid : Underway ic.transferId t w₁.db w₂.db := by
    rcases happroved with rfl | ⟨c, hc, rfl⟩
    · exact hstart
    · have hstep := program_leaves env me c w₁
      cases c with
      | decide dc =>
        obtain ⟨hid, hdecision⟩ := hc
        simp only [Leaves, Atomic, hdecision] at hstep
        exact hstart.approve hid hpending hstep fun _ => ⟨rfl, rfl⟩
      | approve ac =>
        simp only [Leaves, Atomic] at hstep
        exact hstart.approve hc hpending hstep fun _ => ⟨rfl, rfl⟩
      | _ => exact hc.elim
  have hstep := process_leaves (i := me) pc w₂
  simp only [Leaves, hprocess] at hstep
  obtain ⟨t', ht', -, hstands⟩ := hmid.settle h.subject hstep
  obtain ⟨t'', ht'', hposted⟩ := h.posted
  obtain rfl := Option.some.inj (ht'.symm.trans ht'')
  refine ⟨t, hkind, hamount, hfrom, hto, fun x => ?_⟩
  rcases hstands with ⟨hstill, -⟩ | ⟨-, hbalance⟩
  · rw [hstill] at hposted
    cases hposted
  · rw [hbalance, Credited.balance hinitiated.balance, hfrom, hamount, hfee]

/-- Where a transfer is delivered. -/
theorem credit?_eq (t : Transfer) (to_ : Uuid)
    (hto : t.kind = .internal ∨ t.kind = .p2p → t.toAccountId = some to_) (x : Uuid) :
    credit? t x = match t.kind with
      | .internal | .p2p => if x = to_ then t.amountCents else 0
      | .achOut | .wireOut => 0
      | .achIn | .wireIn => if x = t.fromAccountId then t.amountCents else 0 := by
  have hcomm : ∀ a : Uuid, (a = x) = (x = a) := fun a => propext eq_comm
  unfold credit? creditedAccount destination
  cases hkind : t.kind with
  | internal => simp [hto (.inl hkind), hcomm]
  | p2p => simp [hto (.inr hkind), hcomm]
  | achOut | wireOut => simp [isInflow]
  | achIn | wireIn => simp [isInflow, hcomm]

/-- **The net effect of a settled transfer** is the one that its kind should have if and only if the
transfer is no inflow, or is of nothing: an inflow leaves its account poorer by the fee. -/
theorem net_effect_iff (env : Env) (me : ℕ) (ic : InitiateCall) (pc : ProcessCall) (w₀ w₃ : World)
    (h : SettledAlone env me ic pc w₀ w₃) (to_ : Uuid)
    (hto : ic.dto.kind = .internal ∨ ic.dto.kind = .p2p → ic.dto.toAccountId = some to_)
    (a : QuoteAnswer) (hquote : quoteForRequest env ic.convert ic.dto.quoteDto = .ok a) :
    (∀ x, w₃.db.balance x = w₀.db.balance x +
      netEffect ic.dto.kind a.settleCents a.feeCents ic.dto.fromAccountId to_ x) ↔
      isInflow ic.dto.kind = false ∨ ic.dto.amountCents = 0 := by
  obtain ⟨t, hkind, hamount, hfrom, htoAccount, hbalance⟩ := h.balance hquote
  have hcredit := credit?_eq t to_ (by rw [hkind, htoAccount]; exact hto)
  rw [hkind, hamount, hfrom] at hcredit
  simp only [hbalance, hcredit]
  have hsettle : isInflow ic.dto.kind = true → a.settleCents = ic.dto.amountCents := by
    intro hin
    have hwire : ic.dto.kind ≠ .wireOut := fun hkind => by rw [hkind] at hin; cases hin
    have hs := (quoteForRequest_ok.1 hquote).1
    simp only [resolveSettlement, hwire, false_and, if_false] at hs
    split at hs <;> exact (congrArg Prod.fst (Except.ok.inj hs)).symm
  constructor
  · intro heffect
    by_contra hne
    simp only [not_or, Bool.not_eq_false] at hne
    have hat := heffect ic.dto.fromAccountId
    rw [hsettle hne.1] at hat
    cases hk : ic.dto.kind <;> simp only [hk, isInflow, netEffect, if_true] at hne hat
    all_goals first | omega | exact absurd hne.1 (by decide)
  · intro hcase x
    cases hk : ic.dto.kind <;> simp only [netEffect]
    all_goals first | omega | skip
    all_goals
      have hzero : a.settleCents = 0 := by
        rw [hsettle (by rw [hk]; rfl)]
        exact hcase.resolve_left (by rw [hk]; decide)
      split <;> omega

/-- The world after a request and a run of the worker. -/
def afterSettling (ic : InitiateCall) (pc : ProcessCall) : World :=
  ((process 0 pc).run ((initiate sampleEnv 0 ic).run sampleWorld).2).2

/-- A sample request and a run of the worker, if they go through. -/
theorem sample_settledAlone (ic : InitiateCall) (pc : ProcessCall) (t : Transfer)
    (hkey : findByIdempotencyKey sampleWorld.db ic.idempotencyKey = none)
    (hsubject : pc.transferId = ic.transferId)
    (hinit : ((initiate sampleEnv 0 ic).run sampleWorld).1.isOk = true)
    (hprocess : ((process 0 pc).run ((initiate sampleEnv 0 ic).run sampleWorld).2).1.isOk = true)
    (hrow : (afterSettling ic pc).db.transfers.lookup ic.transferId = some t)
    (hposted : t.status = .posted) :
    SettledAlone sampleEnv 0 ic pc sampleWorld (afterSettling ic pc) := by
  refine ⟨hkey, hsubject, ?_, t, hrow, hposted⟩
  unfold afterSettling
  cases hrun : (initiate sampleEnv 0 ic).run sampleWorld with
  | mk r w₁ =>
    rw [hrun] at hinit hprocess
    cases r with
    | error e => cases hinit
    | ok res =>
      refine ⟨res, w₁, w₁, rfl, .inl rfl, ?_⟩
      cases hrun' : (process 0 pc).run w₁ with
      | mk r' w₃ =>
        rw [hrun'] at hprocess
        cases r' with
        | error e => cases hprocess
        | ok u => rfl

theorem net_effect_payment :
    SettledAlone sampleEnv 0 sampleInstant (sampleSettle 100 200) sampleWorld
      (afterSettling sampleInstant (sampleSettle 100 200)) ∧
    ∀ x, (afterSettling sampleInstant (sampleSettle 100 200)).db.balance x =
      sampleWorld.db.balance x + ((if x = 10 then -2035 else 0) + if x = 20 then 2000 else 0) := by
  have hsettled := sample_settledAlone sampleInstant (sampleSettle 100 200)
    (stampSettled (sampleSettle 100 200) (newTransfer sampleEnv sampleInstant 2000 35 none))
    rfl rfl (by decide +kernel) (by decide +kernel) (by decide +kernel) rfl
  have hquote : quoteForRequest sampleEnv sampleInstant.convert sampleInstant.dto.quoteDto =
      .ok ⟨⟨true, 35, "Within minutes", 500, 2500000, none⟩, 2000, none⟩ := by decide +kernel
  exact ⟨hsettled, (net_effect_iff sampleEnv 0 sampleInstant _ _ _ hsettled 20 (fun _ => rfl) _
    hquote).2 (.inl rfl)⟩

/-- Ann has 20.00 coming in by ACH. -/
def sampleInflow : InitiateCall := samplePay .achIn 10 100 2000 false

/-- The inflow leaves her balance where it was: it is debited before it is credited. -/
theorem inflow_not_credited :
    ¬ ∀ (env : Env) (me : ℕ) (ic : InitiateCall) (pc : ProcessCall) (w₀ w₃ : World),
      SettledAlone env me ic pc w₀ w₃ → ∀ to_ : Uuid,
      (ic.dto.kind = .internal ∨ ic.dto.kind = .p2p → ic.dto.toAccountId = some to_) →
      ∀ a, quoteForRequest env ic.convert ic.dto.quoteDto = .ok a → ∀ x,
        w₃.db.balance x = w₀.db.balance x +
          netEffect ic.dto.kind a.settleCents a.feeCents ic.dto.fromAccountId to_ x := by
  intro h
  have hsettled := sample_settledAlone sampleInflow (sampleSettle 100 200)
    (stampSettled (sampleSettle 100 200) (newTransfer sampleEnv sampleInflow 2000 0 none))
    rfl rfl (by decide +kernel) (by decide +kernel) (by decide +kernel) rfl
  have hquote : quoteForRequest sampleEnv sampleInflow.convert sampleInflow.dto.quoteDto =
      .ok ⟨⟨true, 0, "1–3 business days", 500, 2500000, none⟩, 2000, none⟩ := by decide +kernel
  have heffect := h sampleEnv 0 sampleInflow _ _ _ hsettled 10 (fun _ => rfl) _ hquote 10
  revert heffect
  decide +kernel

end BankDemo
