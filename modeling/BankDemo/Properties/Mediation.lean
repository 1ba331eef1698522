import BankDemo.Elevation.Routes
import BankDemo.Properties.PaymentRequests
import BankDemo.RoundUps.Service

/-!
# Complete mediation

A debit that a customer asks for should need an elevation token, on whatever route. `Mediated` says
so of the steps of a run: a step of a request that takes money from an account is of a request that
carried a token for its user and for making transfers.

It holds of the runs whose requests come in on the two guarded routes, and on no larger set of
routes (`mediation_iff`): a payment request is paid, and a goal contributed to, without any token.
-/

namespace BankDemo

open RoundUps

/-- The step takes money from an account. -/
def Debits (x : Step World Traffic) : Prop := ∃ a, x.post.db.balance a < x.pre.db.balance a

/-- Every request that takes money from an account carries a token for it. -/
def Mediated (tr : List (Step World Traffic)) : Prop :=
  ∀ x ∈ tr, ∀ r, x.call = .request r → Debits x → r.Authorized

/-- The requests come in on these routes; the other calls of the system are free. -/
def Traffic.On (R : Set Route) (t : Traffic) : Prop := ∀ r, t = .request r → r.call.route ∈ R

/-- The guarded routes. -/
def guarded : Set Route := { .transfers, .pay }

theorem guarded_iff (route : Route) :
    route ∈ guarded ↔ route.elevation = some .transferAuthorize := by
  cases route <;> simp [guarded, Route.elevation]

/-- In a run on guarded routes every step of a request is of an authorized one. -/
theorem authorized_of_run {env : Pay.PayEnv} {w₀ : World} {tr : List (Step World Traffic)}
    {P : Pool World Error Answer Traffic} {R : Set Route} (hR : R ⊆ guarded)
    (hrun : Run (traffic env) (Traffic.On R) w₀ tr P) :
    ∀ x ∈ tr, ∀ r, x.call = .request r → r.Authorized := by
  have heach : ∀ i t, Traffic.On R t →
      (traffic env i t).Each fun _ _ => ∀ r, t = .request r → r.Authorized := by
    intro i t hon
    cases t with
    | other c => exact Prog.each_of_forall _ fun _ _ r hr => by cases hr
    | request r =>
      have hguard := (guarded_iff _).1 (hR (hon r rfl))
      refine Prog.each_bind ((handleRequest_each hguard).imp ?_) fun _ => Prog.each_pure _
      intro _ _ hauthorized r' hr'
      cases hr'
      exact hauthorized
  exact (hrun.each heach).1

/-! ## Two requests without a token -/

/-- The small bank, with e-mail addresses compared in lower case. -/
def samplePayEnv : Pay.PayEnv where
  toEnv := sampleEnv
  sameEmail := fun a b => a.toLower = b.toLower

/-- Ann pays Bob's request 60. -/
def sampleUnguardedPay : MoneyCall :=
  .payRequest ⟨1, 60, "lunch", 10, fun _ _ => .error (.badRequest "no rate"), 100, 101, 0, true⟩

/-- Ann puts 20.00 aside for goal 80. -/
def sampleUnguardedGoal : MoneyCall := .contribute ⟨1, 80, "trip", 10, 2000, sampleDrawn 100⟩

/-- The run of one request without a token. -/
def sampleBare (w₀ : World) (c : MoneyCall) :
    List (Step World Traffic) × Pool World Error Answer Traffic :=
  exec (traffic samplePayEnv) w₀
    (.call (.request ⟨c, none, 0⟩) :: List.replicate 16 (.step 0))

theorem sampleBare_run {R : Set Route} {c : MoneyCall} (hc : c.route ∈ R) (w₀ : World) :
    Run (traffic samplePayEnv) (Traffic.On R) w₀ (sampleBare w₀ c).1 (sampleBare w₀ c).2 := by
  refine exec_run _ fun t ht r hr => ?_
  subst hr
  rcases List.mem_cons.1 ht with ht | ht
  · cases ht
    exact hc
  · simp at ht

/-- A step without a token takes money from account 10. -/
def bareDebit (x : Step World Traffic) : Bool :=
  match x.call with
  | .request r => r.header.isNone && decide (x.post.db.balance 10 < x.pre.db.balance 10)
  | .other _ => false

theorem not_mediated_of_bareDebit {tr : List (Step World Traffic)} (h : tr.any bareDebit) :
    ¬ Mediated tr := by
  intro hmediated
  obtain ⟨x, hx, hbare⟩ := List.any_eq_true.1 h
  unfold bareDebit at hbare
  split at hbare
  · rename_i r hr
    obtain ⟨hnone, hless⟩ := Bool.and_eq_true_iff.1 hbare
    obtain ⟨token, claims, htoken, -⟩ := hmediated x hx r hr ⟨10, of_decide_eq_true hless⟩
    rw [htoken] at hnone
    cases hnone
  · cases hbare

theorem sampleUnguardedPay_debits :
    (sampleBare sampleRequested sampleUnguardedPay).1.any bareDebit := by
  decide +kernel

theorem sampleUnguardedGoal_debits :
    (sampleBare sampleSaver sampleUnguardedGoal).1.any bareDebit := by
  decide +kernel

/-- **Money movement is mediated on the guarded routes only.** For any set of routes, every run whose
requests come in on these routes, among any other calls of the system, takes money from an account for
a request only if the request carried a token that verifies for its user and for making transfers,
if and only if the routes are among `POST /transfers` and `POST /pay`. -/
theorem mediation_iff (R : Set Route) :
    (∀ (env : Pay.PayEnv) (w₀ : World) (tr : List (Step World Traffic))
      (P : Pool World Error Answer Traffic), Run (traffic env) (Traffic.On R) w₀ tr P →
      Mediated tr) ↔ R ⊆ { .transfers, .pay } := by
  constructor
  · intro h route hroute
    cases route with
    | transfers => exact .inl rfl
    | pay => exact .inr rfl
    | payRequest =>
      exact (not_mediated_of_bareDebit sampleUnguardedPay_debits
        (h _ _ _ _ (sampleBare_run hroute sampleRequested))).elim
    | contribute =>
      exact (not_mediated_of_bareDebit sampleUnguardedGoal_debits
        (h _ _ _ _ (sampleBare_run hroute sampleSaver))).elim
  · intro hR env w₀ tr P hrun x hx r hr _
    exact authorized_of_run hR hrun x hx r hr

/-- A payment request is paid without a token. -/
theorem payment_request_unguarded :
    ¬ ∀ (env : Pay.PayEnv) (w₀ : World) (tr : List (Step World Traffic))
        (P : Pool World Error Answer Traffic),
        Run (traffic env) (fun _ => True) w₀ tr P → Mediated tr := by
  intro h
  exact not_mediated_of_bareDebit sampleUnguardedPay_debits (h samplePayEnv sampleRequested _
    (sampleBare sampleRequested sampleUnguardedPay).2 (exec_run _ fun _ _ => trivial))

end BankDemo
