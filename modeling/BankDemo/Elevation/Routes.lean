import BankDemo.Elevation.Service
import BankDemo.Goals.Service
import BankDemo.Pay.Service
import BankDemo.PaymentRequests.Service

/-!
# The routes that move money

Four routes make a transfer by `initiate` while the customer waits: `POST /transfers`, `POST /pay`,
`POST /payment-requests/:id/pay` and `POST /goals/:id/contribute`. `ElevationGuard` stands before the
handlers of a controller that names it, and asks for a token where the handler names a scope; of the
four, `TransfersController` and `PayController` do both, `PaymentRequestsController` and
`GoalsController` neither.

A request comes with the user that the access token names, and is handled among the other calls of
the system (`traffic`).
-/

namespace BankDemo

open Crypto Transfers

/-- The routes whose handlers call `initiate`. -/
inductive Route
  | transfers | pay | payRequest | contribute
  deriving DecidableEq

/-- The scope that `RequiresElevation` names on the handler of a route behind `ElevationGuard`. -/
def Route.elevation : Route → Option ElevationScope
  | .transfers => some .transferAuthorize
  | .pay => some .transferAuthorize
  | .payRequest => none
  | .contribute => none

/-- What the handlers call. -/
inductive MoneyCall
  | transfers (c : InitiateCall)
  | pay (c : Pay.PayCall)
  | payRequest (c : PaymentRequests.PayCall)
  | contribute (c : Goals.ContributeCall)

namespace MoneyCall

def route : MoneyCall → Route
  | .transfers _ => .transfers
  | .pay _ => .pay
  | .payRequest _ => .payRequest
  | .contribute _ => .contribute

/-- The user of the access token. -/
def userId : MoneyCall → Uuid
  | .transfers c => c.userId
  | .pay c => c.senderUserId
  | .payRequest c => c.userId
  | .contribute c => c.userId

/-- The body of the handler, for thread `me`. -/
def body (env : Pay.PayEnv) (me : ℕ) : MoneyCall → Service InitiateResult
  | .transfers c => initiate env.toEnv me c
  | .pay c => Pay.pay env me c
  | .payRequest c => do
    let r ← PaymentRequests.pay env.toEnv me c
    return r.2
  | .contribute c => do
    let r ← Goals.contribute env.toEnv me c
    return r.2

end MoneyCall

/-- A request: the call, what the `x-elevation` header holds, and the time at the guard. -/
structure MoneyRequest where
  call : MoneyCall
  header : Option Text
  now : Instant

/-- The request carries a token that verifies for its user and for making transfers. -/
def MoneyRequest.Authorized (r : MoneyRequest) : Prop :=
  ∃ token claims, r.header = some token ∧
    verifyToken r.now token .transferAuthorize = .ok claims ∧ claims.sub = some r.call.userId

/-- The handling of a request: the guard, then the handler. -/
def handleRequest (env : Pay.PayEnv) (me : ℕ) (r : MoneyRequest) : Service InitiateResult := do
  Prog.lift (Identity.canActivate r.now r.call.route.elevation r.header (some r.call.userId))
  r.call.body env me

/-- A request of a customer, or another call of the system. -/
inductive Traffic
  | request (r : MoneyRequest)
  | other (c : Call)

/-- The program of what comes in, for thread `me`. -/
def traffic (env : Pay.PayEnv) (me : ℕ) : Traffic → Service Answer
  | .request r => do
    let result ← handleRequest env me r
    return some result
  | .other c => program env.toEnv me c

/-- Behind the guard a request does nothing unless it is authorized. -/
theorem handleRequest_each {env : Pay.PayEnv} {me : ℕ} {r : MoneyRequest}
    (hguard : r.call.route.elevation = some .transferAuthorize) :
    (handleRequest env me r).Each fun _ _ => r.Authorized := by
  unfold handleRequest
  rw [hguard]
  cases hok : Identity.canActivate r.now (some .transferAuthorize) r.header (some r.call.userId) with
  | error e => exact Prog.each_throw e
  | ok u =>
    have hauthorized : r.Authorized := Identity.canActivate_ok hok
    exact Prog.each_of_forall _ fun _ _ => hauthorized

end BankDemo
