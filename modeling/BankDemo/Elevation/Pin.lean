import BankDemo.Identity.Store

/-!
# The transaction PIN

`TransactionPinService`: the hash of a PIN is kept with the user, and the wrong guesses are counted in
memory. A counter is an object that the map holds by reference: `verifyPin` fetches it, or makes one,
before it reads the hash, and writes it after the comparison. So the map and the objects made for a user
are kept apart here, and a reference is the place of the object among them.

`Date.now()` is read when it is called, from a clock of the state.
-/

namespace BankDemo.Pins

open Crypto Identity

/-! ## State -/

/-- The columns of a user that the service reads and writes. -/
structure PinUser where
  passwordHash : String
  transactionPinHash : Option String
  securitySetupRequired : Bool
  deriving DecidableEq

/-- A counter. -/
structure Attempts where
  count : ℕ
  lockedUntil : Option Instant
  deriving DecidableEq

/-- `MAX_ATTEMPTS`. -/
def maxAttempts : ℕ := 5

/-- `LOCKOUT_MS`. -/
def lockoutMs : ℤ := 15 * 60 * 1000

/-- The counters made for a user, and the one that the map holds. -/
structure Counters where
  made : List Attempts
  entry : Option ℕ
  deriving DecidableEq

/-- The users, the counters and the clock. -/
structure PinState where
  users : Table Uuid PinUser
  attempts : Table Uuid Counters
  now : Instant

/-- The counter under a reference. -/
def Counters.object (c : Counters) (ref : ℕ) : Attempts := c.made[ref]?.getD ⟨0, none⟩

/-- `this.attempts.get(userId) ?? { count: 0, lockedUntil: null }`. -/
def Counters.fetch (c : Counters) : ℕ × Counters :=
  match c.entry with
  | some ref => (ref, c)
  | none => (c.made.length, { c with made := c.made ++ [⟨0, none⟩] })

/-- `lockedUntil` lies in the future. -/
def Counters.locked (c : Counters) (now : Instant) : Bool :=
  match c.entry.bind fun ref => (c.object ref).lockedUntil with
  | some t => now < t
  | none => false

/-- A wrong PIN is counted, and locks the user if it is one too many. -/
def Counters.miss (c : Counters) (ref : ℕ) (now : Instant) : Counters :=
  let count := (c.object ref).count + 1
  let attempts : Attempts := if maxAttempts ≤ count then ⟨0, some (now + lockoutMs)⟩
    else { c.object ref with count }
  { made := c.made.set ref attempts, entry := some ref }

/-- `this.attempts.delete(userId)`. -/
def Counters.delete (c : Counters) : Counters := { c with entry := none }

/-- The counters of a user. -/
def PinState.of (s : PinState) (userId : Uuid) : Counters :=
  (s.attempts.lookup userId).getD ⟨[], none⟩

/-- The state with other counters of a user. -/
def PinState.put (s : PinState) (userId : Uuid) (c : Counters) : PinState :=
  { s with attempts := s.attempts.insert userId c }

/-- The user is locked. -/
def PinState.locked (s : PinState) (userId : Uuid) : Bool := (s.of userId).locked s.now

/-- A text that is given and not empty. -/
def truthy (text : Option String) : Option String := text.filter fun t => t ≠ ""

/-- The hash of the user's PIN. -/
def PinState.pinHash (s : PinState) (userId : Uuid) : Option String :=
  truthy ((s.users.lookup userId).bind PinUser.transactionPinHash)

@[simp] theorem PinState.of_put (s : PinState) (userId : Uuid) (c : Counters) :
    (s.put userId c).of userId = c := by
  simp [of, put]

theorem PinState.of_put_ne (s : PinState) {userId u : Uuid} (h : userId ≠ u) (c : Counters) :
    (s.put userId c).of u = s.of u := by
  simp [of, put, AList.lookup_insert_ne (Ne.symm h)]

@[simp] theorem PinState.now_put (s : PinState) (userId : Uuid) (c : Counters) :
    (s.put userId c).now = s.now := rfl

/-! ## The service -/

inductive PinError
  | badRequest (message : String)
  | unauthorized (message : String)
  | forbidden (message : String)
  | tooManyRequests (message : String)
  deriving DecidableEq

abbrev PinService (α : Type) := Prog PinState PinError α

/-- `PIN_RE`: four to six digits. -/
def pinRe (pin : String) : Bool :=
  let chars := pin.toList
  4 ≤ chars.length && chars.length ≤ 6 && chars.all Char.isDigit

/-- A relation holds between the neighbours of a list. -/
def everyNext (p : Char → Char → Bool) : List Char → Bool
  | a :: b :: rest => p a b && everyNext p (b :: rest)
  | _ => true

/-- `looksWeak`, of a PIN. -/
def looksWeak (pin : String) : Bool :=
  let chars := pin.toList
  (2 ≤ chars.length && everyNext (fun a b => a = b) chars) ||
    everyNext (fun a b => b.toNat = a.toNat + 1) chars ||
    everyNext (fun a b => b.toNat + 1 = a.toNat) chars

/-- The counter of the user is fetched, and tells whether the user is locked. -/
def openAttempts (userId : Uuid) : PinService ℕ := Prog.attempt (fun _ => true) fun s =>
  let (ref, counters) := (s.of userId).fetch
  match (counters.object ref).lockedUntil with
  | some t =>
    if s.now < t then
      .error (.tooManyRequests s!"Too many attempts. Try again in {-((s.now - t) / 60000)} min.")
    else .ok (ref, s.put userId counters)
  | none => .ok (ref, s.put userId counters)

/-- A wrong PIN. -/
def PinState.missed (s : PinState) (userId : Uuid) (ref : ℕ) : PinState :=
  s.put userId ((s.of userId).miss ref s.now)

/-- The entry of the user is deleted. -/
def PinState.cleared (s : PinState) (userId : Uuid) : PinState :=
  s.put userId (s.of userId).delete

/-- The columns that `setPin` sets. -/
def PinUser.withPin (user : PinUser) (hash : String) : PinUser :=
  { user with transactionPinHash := some hash, securitySetupRequired := false }

/-- The update of the user's row in `setPin`. -/
def PinState.stored (s : PinState) (userId : Uuid) (hash : String) : PinState :=
  match s.users.lookup userId with
  | none => s
  | some user => { s with users := s.users.insert userId (user.withPin hash) }

/-- `verifyPin`. -/
def verifyPin (env : Env) (userId : Uuid) (pin : String) (scope : ElevationScope) (jti : Uuid) :
    PinService Token := do
  if !pinRe pin then throw (.badRequest "PIN must be 4–6 digits")
  else do
    let ref ← openAttempts userId
    let hash ← Prog.read fun s => s.pinHash userId
    match hash with
    | none => throw (.badRequest "PIN not set")
    | some hash =>
      if env.argonVerify hash pin then
        Prog.attempt (fun _ => true) fun s =>
          .ok (signElevation env.ttl s.now jti userId scope, s.cleared userId)
      else do
        Prog.modify (fun _ => true) fun s => s.missed userId ref
        throw (.unauthorized "Wrong PIN")

/-- What `setPin` asks of who changes a PIN. -/
def checkCurrent (env : Env) (user : PinUser) (currentPin currentPassword : Option String) :
    Except PinError Unit :=
  match truthy user.transactionPinHash with
  | none => .ok ()
  | some hash =>
    match truthy currentPin with
    | some pin =>
      if env.argonVerify hash pin then .ok ()
      else .error (.forbidden "Current PIN is incorrect")
    | none =>
      match truthy currentPassword with
      | some password =>
        if env.argonVerify user.passwordHash password then .ok ()
        else .error (.forbidden "Current password is incorrect")
      | none => .error (.badRequest "Provide your current PIN or password to change it")

/-- `setPin`. -/
def setPin (env : Env) (userId : Uuid) (newPin : String) (currentPin currentPassword : Option String)
    (salt : ℕ) : PinService Unit := do
  if !pinRe newPin then throw (.badRequest "PIN must be 4–6 digits")
  else if looksWeak newPin then throw (.badRequest "PIN is too predictable — pick another")
  else do
    let user ← Prog.read fun s => s.users.lookup userId
    match user with
    | none => throw (.unauthorized "User not found")
    | some user => do
      Prog.lift (checkCurrent env user currentPin currentPassword)
      Prog.modify (fun _ => true) fun s => s.stored userId (env.argonHash salt newPin)
      Prog.modify (fun _ => true) fun s => s.cleared userId

/-! ## Calls -/

/-- The calls of the service, and the passing of time. -/
inductive PinCall
  | verify (userId : Uuid) (pin : String) (scope : ElevationScope) (jti : Uuid)
  | set (userId : Uuid) (newPin : String) (currentPin currentPassword : Option String) (salt : ℕ)
  | wait (ms : ℕ)
  deriving DecidableEq

inductive PinAnswer
  | token (token : Token)
  | done
  deriving DecidableEq

/-- Time passes. -/
def PinState.later (s : PinState) (ms : ℕ) : PinState := { s with now := s.now + ms }

/-- The program of a call. -/
def pinProgram (env : Env) : PinCall → PinService PinAnswer
  | .verify userId pin scope jti => do
    let token ← verifyPin env userId pin scope jti
    return .token token
  | .set userId newPin currentPin currentPassword salt => do
    setPin env userId newPin currentPin currentPassword salt
    return .done
  | .wait ms => do
    Prog.modify (fun _ => true) fun s => s.later ms
    return .done

end BankDemo.Pins
