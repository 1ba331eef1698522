import BankDemo.Foundations.GroupBy
import BankDemo.Foundations.Interleave
import BankDemo.Foundations.JsString
import BankDemo.Foundations.Months
import BankDemo.Foundations.UuidText
import BankDemo.Store
import Mathlib.Data.List.Sort

/-!
# Charts

The two queries of `InsightsService`: what came in and went out in each month (`monthlyRows`), and
what was spent in a month on each category (`categoryRows`). Both count the posted and the pending
transactions of some accounts. Months and times are those of UTC, and a number of months is a whole
one.

The service asks for the accounts of the customer, then the cache, then the database, and puts
what the database says into the cache. An event about a transaction or a balance drops the charts of
its customer: the keys are found by a pattern, one part of the cache after the other.

The cache is `RedisCacheService`, of which the keys of the other services are left out: none of them
begins with `insights:`. A command that is not answered has no effect and is no error.
-/

namespace BankDemo.Insights

open JsDate GroupBy UuidText

/-! ## Months -/

/-- `date_trunc('month', t)`, of the month with the index `k`. -/
def monthStart (k : ℤ) : Instant := monthDay k 1 * msPerDay

/-- `to_char(date_trunc('month', t), 'YYYY-MM')`, of the month with the index `k`. -/
def yearMonth (k : ℤ) : String := pad 4 (k / 12) ++ "-" ++ pad 2 (k % 12 + 1)

/-! ## Rows -/

structure MonthlyRow where
  yearMonth : String
  monthStart : Instant
  totalInCents : ℤ
  totalOutCents : ℤ
  txCount : ℕ
  deriving DecidableEq

structure CategoryRow where
  monthStart : Instant
  category : TransactionCategory
  totalSpentCents : ℤ
  txCount : ℕ
  deriving DecidableEq

/-- `CASE WHEN "amountCents" > 0 THEN "amountCents" ELSE 0 END`. -/
def amountIn (t : Transaction) : ℤ := if 0 < t.amountCents then t.amountCents else 0

/-- `CASE WHEN "amountCents" < 0 THEN -"amountCents" ELSE 0 END`. -/
def amountOut (t : Transaction) : ℤ := if t.amountCents < 0 then -t.amountCents else 0

/-- `"accountId" = ANY($1::uuid[]) AND "status"::text IN ('posted', 'pending')`. -/
def counts (accountIds : List Uuid) (t : Transaction) : Bool :=
  accountIds.contains t.accountId && (t.status == .posted || t.status == .pending)

/-- The transactions that the queries count. -/
def counted (db : Db) (accountIds : List Uuid) : List Transaction :=
  (db.transactions.entries.map Sigma.snd).filter (counts accountIds)

/-- `"occurredAt" >= date_trunc('month', NOW()) - ($2 || ' months')::interval`. -/
def inWindow (now : Instant) (months : ℕ) (t : Transaction) : Bool :=
  monthStart (monthIndex now - months) ≤ t.occurredAt

/-- A group of the query of `monthly`. -/
def monthlyRow (g : ℤ × List Transaction) : MonthlyRow where
  yearMonth := yearMonth g.1
  monthStart := monthStart g.1
  totalInCents := (g.2.map amountIn).sum
  totalOutCents := (g.2.map amountOut).sum
  txCount := g.2.length

/-- The query of `monthly`. -/
def monthlyRows (db : Db) (accountIds : List Uuid) (now : Instant) (months : ℕ) : List MonthlyRow :=
  ((groupBy (fun t => monthIndex t.occurredAt)
    ((counted db accountIds).filter (inWindow now months))).map monthlyRow).insertionSort
      fun a b => b.monthStart ≤ a.monthStart

/-- `date_trunc('month', "occurredAt") = date_trunc('month', $2::timestamp)`. -/
def inMonth (start : Instant) (t : Transaction) : Bool :=
  monthStart (monthIndex t.occurredAt) = monthStart (monthIndex start)

/-- A group of the query of `byCategory`. -/
def categoryRow (start : Instant) (g : TransactionCategory × List Transaction) : CategoryRow where
  monthStart := monthStart (monthIndex start)
  category := g.1
  totalSpentCents := (g.2.map amountOut).sum
  txCount := g.2.length

/-- The query of `byCategory`. Categories with the same total are in some order. -/
def categoryRows (db : Db) (accountIds : List Uuid) (start : Instant) : List CategoryRow :=
  ((groupBy Transaction.category ((counted db accountIds).filter (inMonth start))).map
    (categoryRow start)).insertionSort fun a b => b.totalSpentCents ≤ a.totalSpentCents

/-! ## Answers -/

structure MonthlyTotals where
  yearMonth : String
  monthStart : String
  totalInCents : String
  totalOutCents : String
  txCount : ℕ
  deriving DecidableEq

structure CategoryTotals where
  monthStart : String
  category : TransactionCategory
  totalSpentCents : String
  txCount : ℕ
  deriving DecidableEq

def monthlyTotals (r : MonthlyRow) : MonthlyTotals where
  yearMonth := r.yearMonth
  monthStart := toISOString r.monthStart
  totalInCents := toString r.totalInCents
  totalOutCents := toString r.totalOutCents
  txCount := r.txCount

def categoryTotals (r : CategoryRow) : CategoryTotals where
  monthStart := toISOString r.monthStart
  category := r.category
  totalSpentCents := toString r.totalSpentCents
  txCount := r.txCount

/-- What is sent to the customer, and kept in the cache as JSON. -/
inductive Chart
  | months (rows : List MonthlyTotals)
  | categories (rows : List CategoryTotals)
  deriving DecidableEq

/-! ## State -/

structure CacheEntry where
  value : Chart
  expiresAt : Instant
  deriving DecidableEq

structure State where
  db : Db
  cache : Table String CacheEntry
  now : Instant

structure Env where
  /-- `INSIGHTS_CACHE_TTL_SEC`. -/
  cacheTtl : ℕ
  /-- The part of the cache where a key is. -/
  bucket : String → ℕ
  /-- The parts of the cache after the first one. -/
  buckets : ℕ

/-- Whether the cache answers a command that reads, and one that writes. -/
structure Link where
  reads : Bool
  writes : Bool
  deriving DecidableEq

abbrev Action (α : Type) := Prog State Error α

/-! ## `RedisCacheService` -/

/-- The patterns of Redis, of which those with `*` and `?` are used. -/
def glob : List Char → List Char → Bool
  | [], key => key = []
  | '*' :: pattern, key => key.tails.any (glob pattern)
  | '?' :: pattern, _ :: key => glob pattern key
  | c :: pattern, d :: key => c = d && glob pattern key
  | _ :: _, [] => false

def State.get (s : State) (key : String) : Option Chart :=
  ((s.cache.lookup key).filter fun entry => s.now < entry.expiresAt).map CacheEntry.value

/-- `set` with `EX`. -/
def State.set (env : Env) (key : String) (value : Chart) (s : State) : State :=
  { s with cache := s.cache.insert key ⟨value, s.now + env.cacheTtl * 1000⟩ }

/-- The answer of `scan` for a part of the cache. -/
def scan (env : Env) (pattern : String) (cursor : ℕ) (s : State) : List String :=
  s.cache.keys.filter fun key =>
    glob pattern.toList key.toList && env.bucket key % (env.buckets + 1) = cursor

def State.del (keys : List String) (s : State) : State :=
  { s with cache := s.cache.deleteMany fun key _ => keys.contains key }

/-- The loop of `delByPattern` over the cursors. It ends at a command that is not answered. -/
def delEach (env : Env) (pattern : String) (answers : ℕ → Link) : List ℕ → Action Unit
  | [] => pure ()
  | cursor :: rest => do
    if !(answers cursor).reads then return ()
    let keys ← Prog.read (scan env pattern cursor)
    if keys = [] then delEach env pattern answers rest
    else
      if !(answers cursor).writes then return ()
      Prog.modify (fun _ => true) (State.del keys)
      delEach env pattern answers rest

def delByPattern (env : Env) (pattern : String) (answers : ℕ → Link) : Action Unit :=
  delEach env pattern answers (List.range (env.buckets + 1))

/-! ## `InsightsService` -/

/-- `resolveAccountIds`. -/
def resolveAccountIds (db : Db) (userId : Uuid) (accountId : Option String) :
    Except Error (List Uuid) :=
  let all := (db.accounts.entries.filter fun e => e.2.userId = userId).map Sigma.fst
  match JsString.orElse accountId none with
  | none => .ok all
  | some id =>
    if (all.map uuidText).contains id then .ok (all.filter fun a => uuidText a = id)
    else .error (.forbidden "Account not accessible")

/-- What a chart is to show. -/
inductive Question
  | monthly (months : ℕ)
  | byCategory (start : Instant)
  deriving DecidableEq

/-- What the key begins with. -/
def Question.family : Question → String
  | .monthly _ => "insights:monthly:"
  | .byCategory _ => "insights:byCategory:"

/-- What the key ends with. -/
def Question.detail : Question → String
  | .monthly months => toString months
  | .byCategory start => toISOString start

/-- `cacheKey`. -/
def Question.cacheKey (userId : Uuid) (accountId : Option String) (q : Question) : String :=
  q.family ++ uuidText userId ++ ":" ++ accountId.getD "all" ++ ":" ++ q.detail

/-- The answer to a customer without accounts. -/
def Question.none : Question → Chart
  | .monthly _ => .months []
  | .byCategory _ => .categories []

/-- What the database says. -/
def Question.result (db : Db) (accountIds : List Uuid) (now : Instant) : Question → Chart
  | .monthly months => .months ((monthlyRows db accountIds now months).map monthlyTotals)
  | .byCategory start => .categories ((categoryRows db accountIds start).map categoryTotals)

/-- What `monthly` and `byCategory` do; `question` may depend on the time. -/
def answer (env : Env) (userId : Uuid) (accountId : Option String) (link : Link)
    (question : Instant → Question) : Action Chart := do
  let (accountIds, q) ← Prog.attempt (fun _ => true) fun s =>
    (resolveAccountIds s.db userId accountId).map fun ids => ((ids, question s.now), s)
  if accountIds = [] then return q.none
  let cacheKey := q.cacheKey userId accountId
  let cached ← Prog.read fun s => if link.reads then s.get cacheKey else none
  match cached with
  | some chart => return chart
  | none =>
    let result ← Prog.read fun s => q.result s.db accountIds s.now
    Prog.modify (fun _ => true) fun s => if link.writes then s.set env cacheKey result else s
    return result

def monthly (env : Env) (userId : Uuid) (accountId : Option String) (months : ℕ) (link : Link) :
    Action Chart :=
  answer env userId accountId link fun _ => .monthly months

def startOfCurrentMonth (now : Instant) : Instant := utc (getUTCFullYear now) (getUTCMonth now) 1

def byCategory (env : Env) (userId : Uuid) (accountId : Option String)
    (monthStart : Option Instant) (link : Link) : Action Chart :=
  answer env userId accountId link fun now =>
    .byCategory (monthStart.getD (startOfCurrentMonth now))

def invalidateForUser (env : Env) (userId : Uuid) (answers : ℕ → Link) : Action Unit :=
  delByPattern env ("insights:*:" ++ uuidText userId ++ ":*") answers

/-! ## Calls -/

/-- The requests and events of the service, what the rest of the bank does to the database, and the
clock. -/
inductive Call
  | monthly (userId : Uuid) (accountId : Option String) (months : ℕ) (link : Link)
  | byCategory (userId : Uuid) (accountId : Option String) (monthStart : Option Instant)
      (link : Link)
  | invalidate (userId : Uuid) (answers : ℕ → Link)
  | bank (change : Db → Db)
  | clock (ms : ℕ)

def handle (env : Env) : Call → Action (Option Chart)
  | .monthly userId accountId months link => do
    let chart ← monthly env userId accountId months link
    return some chart
  | .byCategory userId accountId monthStart link => do
    let chart ← byCategory env userId accountId monthStart link
    return some chart
  | .invalidate userId answers => do
    invalidateForUser env userId answers
    return none
  | .bank change => do
    Prog.modify (fun _ => true) fun s => { s with db := change s.db }
    return none
  | .clock ms => do
    Prog.modify (fun _ => true) fun s => { s with now := s.now + ms }
    return none

end BankDemo.Insights
