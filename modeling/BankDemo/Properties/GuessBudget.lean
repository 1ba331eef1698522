import BankDemo.Mfa.Service
import BankDemo.Sessions.Calls

/-!
# How often the code of a challenge can be guessed

`verify` reads the row of the challenge, compares the code, and then writes: the attempts are counted, or
the challenge is consumed, whatever happened to the row since. So calls that overlap all go by the same
row, and more codes are compared than the limit allows.

The trace is watched for the comparisons (`watch`). Where no call compares a code or puts in a new one
while another is between its comparison and its write, the limit holds (`guess_budget`).
-/

namespace BankDemo.Identity

open Crypto

/-! ## Calls -/

/-- The calls on challenges. -/
inductive CodeCall
  | verify (now : Instant) (challengeId : Uuid) (code : String)
  | resend (now : Instant) (challengeId : Uuid) (code : String) (salt : ℕ)
  deriving DecidableEq

/-- The challenge of a call. -/
def CodeCall.challengeId : CodeCall → Uuid
  | .verify _ id _ => id
  | .resend _ id _ _ => id

/-- The program of a call. -/
def codeProgram (env : Env) : CodeCall → Handler Unit
  | .verify now id code => verifyCode env now (some id) code
  | .resend now id code salt => resendCode env now (some id) code salt

/-- The runs of calls on challenges. -/
abbrev CodeRun (env : Env) := Run (fun _ => codeProgram env) (fun _ => True)

/-- The checks of `verify` before it compares. -/
def Passes (env : Env) (now : Instant) (row : MfaChallenge) : Bool :=
  row.consumedAt.isNone && !(row.expiresAt < now) && !(env.mfaMaxAttempts ≤ row.attempts)

/-- The row that a call finds and compares its code with. -/
def comparedRow (env : Env) : CodeCall → Realm → Option MfaChallenge
  | .verify now id _, w => (w.db.mfaChallenges.lookup id).filter (Passes env now)
  | .resend _ _ _ _, _ => none

/-- Whether the code of a call is the one of the row. -/
def CodeCall.right (env : Env) : CodeCall → MfaChallenge → Bool
  | .verify _ _ code, row => env.argonVerify row.codeHash code
  | .resend _ _ _ _, _ => false

/-- The row as a call that has compared its code leaves it. -/
def settledRow (env : Env) : CodeCall → MfaChallenge → MfaChallenge → MfaChallenge
  | .verify now id code, read, row =>
    if (CodeCall.verify now id code).right env read then { row with consumedAt := some now }
    else { row with attempts := row.attempts + 1 }
  | .resend _ _ _ _, _, row => row

/-- The row with the new code of a call. -/
def recodedRow (env : Env) : CodeCall → MfaChallenge → MfaChallenge
  | .resend now _ code salt, row =>
    { row with codeHash := env.argonHash salt code, expiresAt := now + env.mfaTtlMs, attempts := 0 }
  | .verify _ _ _, row => row

/-! ## What the calls do -/

/-- The steps of a call: it reads, and what it writes goes by what it read. -/
inductive CodeTook (env : Env) : CodeCall → List (Realm × Realm) → Prop
  | read {c : CodeCall} {w : Realm} : CodeTook env c [(w, w)]
  | settled {c : CodeCall} {w₁ w₂ : Realm} {read row : MfaChallenge}
      (hread : comparedRow env c w₁ = some read)
      (hrow : w₂.db.mfaChallenges.lookup c.challengeId = some row) :
      CodeTook env c [(w₂, w₂.withChallenge c.challengeId (settledRow env c read row)), (w₁, w₁)]
  | recoded {now : Instant} {id : Uuid} {code : String} {salt : ℕ} {w₁ w₂ : Realm}
      {row : MfaChallenge} (hrow : w₂.db.mfaChallenges.lookup id = some row) :
      CodeTook env (.resend now id code salt)
        [(w₂, w₂.withChallenge id (recodedRow env (.resend now id code salt) row)), (w₁, w₁)]
  | gone {c : CodeCall} {w₁ w₂ : Realm} (hnone : w₂.db.mfaChallenges.lookup c.challengeId = none) :
      CodeTook env c [(w₂, w₂), (w₁, w₁)]

/-- A call of `verify` succeeds by consuming the challenge. -/
def CodePromise (env : Env) (c : CodeCall) (own : List (Realm × Realm)) : Except Error Unit → Prop
  | .ok _ => ∀ now id code, c = .verify now id code → ∃ w₁ w₂ read row,
      comparedRow env c w₁ = some read ∧ c.right env read = true ∧
      w₂.db.mfaChallenges.lookup id = some row ∧
      own = [(w₂, w₂.withChallenge id (settledRow env c read row)), (w₁, w₁)]
  | .error _ => True

theorem does_update {env : Env} {c : CodeCall} {f : MfaChallenge → MfaChallenge} {w₁ : Realm}
    {k : Unit → Handler Unit}
    (hok : ∀ w₂ row, w₂.db.mfaChallenges.lookup c.challengeId = some row →
      CodeTook env c [(w₂, w₂.withChallenge c.challengeId (f row)), (w₁, w₁)] ∧
        (k ()).Does (CodeTook env c) (CodePromise env c)
          [(w₂, w₂.withChallenge c.challengeId (f row)), (w₁, w₁)]) :
    (transaction (updateChallenge c.challengeId f) >>= k).Does (CodeTook env c) (CodePromise env c)
      [(w₁, w₁)] := by
  refine Prog.does_bind (Prog.does_attempt (fun w₂ a w₃ _ hb => ?_) fun w₂ e _ hb => ?_)
  · cases hbody : updateChallenge c.challengeId f w₂.db with
    | error e => simp [hbody] at hb
    | ok r =>
      simp only [hbody, Except.ok.injEq, Prod.mk.injEq] at hb
      obtain ⟨-, rfl⟩ := hb
      obtain ⟨row, hrow, hdb⟩ := updateChallenge_ok hbody
      rw [hdb]
      exact hok w₂ row hrow
  · refine ⟨.gone ?_, trivial⟩
    cases hrow : w₂.db.mfaChallenges.lookup c.challengeId with
    | none => rfl
    | some row =>
      simp [updateChallenge, hrow] at hb

theorem code_does (env : Env) (c : CodeCall) :
    (codeProgram env c).Does (CodeTook env c) (CodePromise env c) [] := by
  cases c with
  | verify now id code =>
    simp only [codeProgram, verifyCode]
    refine Prog.does_bind (Prog.does_read fun w => ⟨.read, ?_⟩)
    dsimp only
    cases hfound : w.db.mfaChallenges.lookup id with
    | none => exact trivial
    | some challenge =>
      dsimp only
      split
      · exact trivial
      · rename_i hconsumed
        split
        · exact trivial
        · rename_i hexpired
          split
          · exact trivial
          · rename_i hattempts
            have hread : comparedRow env (.verify now id code) w = some challenge := by
              simp [comparedRow, hfound, Passes, hexpired, hattempts, Option.filter,
                Option.not_isSome_iff_eq_none.1 hconsumed]
            split
            · rename_i hright
              rw [← bind_pure (transaction _)]
              refine does_update (c := .verify now id code) fun w₂ row hrow => ?_
              have hrow' : { row with consumedAt := some now } =
                settledRow env (.verify now id code) challenge row := (if_pos hright).symm
              rw [hrow']
              refine ⟨.settled hread hrow, ?_⟩
              rintro now' id' code' hc
              cases hc
              exact ⟨w, w₂, challenge, row, hread, hright, hrow, rfl⟩
            · rename_i hwrong
              refine does_update (c := .verify now id code) fun w₂ row hrow => ?_
              have hrow' : { row with attempts := row.attempts + 1 } =
                settledRow env (.verify now id code) challenge row := (if_neg hwrong).symm
              rw [hrow']
              exact ⟨.settled hread hrow, trivial⟩
  | resend now id code salt =>
    simp only [codeProgram, resendCode]
    refine Prog.does_bind (Prog.does_read fun w => ⟨.read, ?_⟩)
    dsimp only
    cases w.db.mfaChallenges.lookup id with
    | none => exact trivial
    | some existing =>
      dsimp only
      split
      · exact trivial
      · rw [← bind_pure (transaction _)]
        refine does_update (c := .resend now id code salt) fun w₂ row hrow => ?_
        exact ⟨.recoded hrow, fun now' id' code' hc => by cases hc⟩

theorem lookup_withChallenge (w : Realm) (k id : Uuid) (row : MfaChallenge) :
    (w.withChallenge k row).db.mfaChallenges.lookup id =
      if id = k then some row else w.db.mfaChallenges.lookup id :=
  Table.lookup_insert_ite _ _ _ _

/-- A step changes the row of its challenge only, and a consumed challenge stays so. -/
theorem CodeTook.row {env : Env} {c : CodeCall} {w w' : Realm} {own : List (Realm × Realm)}
    (h : CodeTook env c ((w, w') :: own)) (id : Uuid) :
    w'.db.mfaChallenges.lookup id = w.db.mfaChallenges.lookup id ∨ c.challengeId = id ∧
      ∃ row row', w.db.mfaChallenges.lookup id = some row ∧
        w'.db.mfaChallenges.lookup id = some row' ∧
        (row.consumedAt.isSome → row'.consumedAt.isSome) := by
  have hput : ∀ {row row' : MfaChallenge}, w.db.mfaChallenges.lookup c.challengeId = some row →
      w' = w.withChallenge c.challengeId row' → (row.consumedAt.isSome → row'.consumedAt.isSome) →
        w'.db.mfaChallenges.lookup id = w.db.mfaChallenges.lookup id ∨ c.challengeId = id ∧
          ∃ row row', w.db.mfaChallenges.lookup id = some row ∧
            w'.db.mfaChallenges.lookup id = some row' ∧
            (row.consumedAt.isSome → row'.consumedAt.isSome) := by
    rintro row row' hrow rfl hkeep
    rw [lookup_withChallenge]
    by_cases hid : id = c.challengeId
    · subst hid
      exact .inr ⟨rfl, row, row', hrow, if_pos rfl, hkeep⟩
    · exact .inl (if_neg hid)
  cases h with
  | read => exact .inl rfl
  | settled hread hrow =>
    refine hput hrow rfl fun hconsumed => ?_
    cases c with
    | verify now cid code =>
      simp only [settledRow]
      split
      · rfl
      · exact hconsumed
    | resend now cid code salt => exact hconsumed
  | recoded hrow => exact hput hrow rfl fun hconsumed => hconsumed
  | gone hnone => exact .inl rfl

/-- What a call of `verify` writes. -/
theorem CodeTook.verified {env : Env} {now : Instant} {id : Uuid} {code : String} {w w' : Realm}
    {own : List (Realm × Realm)} (h : CodeTook env (.verify now id code) ((w, w') :: own))
    (hlater : own ≠ []) : ∃ w₁, own = [(w₁, w₁)] ∧
      ((∃ read row, comparedRow env (.verify now id code) w₁ = some read ∧
        w.db.mfaChallenges.lookup id = some row ∧
        w' = w.withChallenge id (settledRow env (.verify now id code) read row)) ∨
      w.db.mfaChallenges.lookup id = none) := by
  cases h with
  | read => exact absurd rfl hlater
  | settled hread hrow => exact ⟨_, rfl, .inl ⟨_, _, hread, hrow, rfl⟩⟩
  | gone hnone => exact ⟨_, rfl, .inr hnone⟩

/-! ## Watching a challenge -/

/-- What was seen of a challenge. -/
structure Watch where
  /-- the threads between their comparison and their write -/
  pending : List ℕ
  /-- how many wrong codes were compared with the code of now -/
  wrong : ℕ
  deriving DecidableEq

/-- The comparisons with the code of a challenge, in the steps of a run. -/
def watch (env : Env) (id : Uuid) : List (Step Realm CodeCall) → Watch
  | [] => ⟨[], 0⟩
  | x :: earlier =>
    let seen := watch env id earlier
    if x.call.challengeId ≠ id then seen
    else if (own x.tid earlier).isEmpty then
      match comparedRow env x.call x.pre with
      | none => seen
      | some row => ⟨x.tid :: seen.pending, seen.wrong + if x.call.right env row then 0 else 1⟩
    else match x.call with
      | .verify _ _ _ => { seen with pending := seen.pending.filter fun i => i ≠ x.tid }
      | .resend _ _ _ _ => { seen with wrong := 0 }

/-- The step compares a code, or puts in a new one. -/
def Interferes (env : Env) (x : Step Realm CodeCall) (earlier : List (Step Realm CodeCall)) : Bool :=
  if (own x.tid earlier).isEmpty then (comparedRow env x.call x.pre).isSome
  else match x.call with
    | .verify _ _ _ => false
    | .resend _ _ _ _ => true

/-- No comparison or new code comes between another call's comparison and its write. -/
def Apart (env : Env) (id : Uuid) (_ : List (Step Realm CodeCall)) (x : Step Realm CodeCall)
    (earlier : List (Step Realm CodeCall)) : Prop :=
  x.call.challengeId = id → Interferes env x earlier = true → (watch env id earlier).pending = []

instance (env : Env) (id : Uuid) (later : List (Step Realm CodeCall)) (x : Step Realm CodeCall)
    (earlier : List (Step Realm CodeCall)) : Decidable (Apart env id later x earlier) :=
  inferInstanceAs (Decidable (_ → _ → _))

/-- A thread has compared its code with the row that it read, and has still to write. -/
structure Compared (env : Env) (id : Uuid) (tr : List (Step Realm CodeCall)) (i : ℕ) (c : CodeCall)
    (w₁ : Realm) (read : MfaChallenge) : Prop where
  own_eq : own i tr = [(w₁, w₁)]
  call : ∃ y ∈ tr, y.tid = i ∧ y.call = c
  challenge : c.challengeId = id
  row : comparedRow env c w₁ = some read

/-- What holds where no call interferes with another: a thread that has compared its code is the only
one, and the row is as it was read. -/
structure CodeWatched (env : Env) (id : Uuid) (tr : List (Step Realm CodeCall)) (w : Realm) : Prop where
  bound : (watch env id tr).wrong ≤ env.mfaMaxAttempts
  idle : (watch env id tr).pending = [] → ∀ row, w.db.mfaChallenges.lookup id = some row →
    (watch env id tr).wrong ≤ row.attempts
  known : ∀ i c w₁ read, Compared env id tr i c w₁ read →
    (watch env id tr).pending = [i] ∧ w.db.mfaChallenges.lookup id = some read ∧
      (watch env id tr).wrong ≤ read.attempts + if c.right env read then 0 else 1
  owned : ∀ i ∈ (watch env id tr).pending, ∃ c w₁ read, Compared env id tr i c w₁ read

theorem comparedRow_eq {env : Env} {c : CodeCall} {w : Realm} {read : MfaChallenge}
    (h : comparedRow env c w = some read) :
    w.db.mfaChallenges.lookup c.challengeId = some read ∧ read.consumedAt = none ∧
      read.attempts < env.mfaMaxAttempts ∧ ∃ now id code, c = .verify now id code := by
  cases c with
  | verify now id code =>
    obtain ⟨hlookup, hpasses⟩ := Option.filter_eq_some_iff.1 h
    simp only [Passes, Bool.and_eq_true, Option.isNone_iff_eq_none, Bool.not_eq_true',
      decide_eq_false_iff_not, not_le] at hpasses
    exact ⟨hlookup, hpasses.1.1, hpasses.2, now, id, code, rfl⟩
  | resend now id code salt => cases h

section Run

variable {env : Env} {id : Uuid} {s₀ : Realm} {tr : List (Step Realm CodeCall)}
  {P : Pool Realm Error Unit CodeCall}

theorem code_took (hrun : CodeRun env s₀ tr P) {later earlier : List (Step Realm CodeCall)}
    {x : Step Realm CodeCall} (hsplit : tr = later ++ x :: earlier) :
    CodeTook env x.call ((x.pre, x.post) :: own x.tid earlier) :=
  (hrun.does fun _ c _ => code_does env c).1 later x earlier hsplit

/-- A thread that has compared, but for the one of the newest step, had compared before. -/
theorem Compared.of_ne {x : Step Realm CodeCall} {i : ℕ} {c : CodeCall} {w₁ : Realm}
    {read : MfaChallenge} (h : Compared env id (x :: tr) i c w₁ read) (hne : x.tid ≠ i) :
    Compared env id tr i c w₁ read := by
  obtain ⟨y, hy, hytid, hycall⟩ := h.call
  refine ⟨(own_cons_of_ne hne).symm.trans h.own_eq, ⟨y, ?_, hytid, hycall⟩, h.challenge, h.row⟩
  rcases List.mem_cons.1 hy with rfl | hy
  · exact absurd hytid hne
  · exact hy

theorem Compared.cons {x : Step Realm CodeCall} {i : ℕ} {c : CodeCall} {w₁ : Realm}
    {read : MfaChallenge} (h : Compared env id tr i c w₁ read) (hne : x.tid ≠ i) :
    Compared env id (x :: tr) i c w₁ read := by
  obtain ⟨y, hy, hytid, hycall⟩ := h.call
  exact ⟨(own_cons_of_ne hne).trans h.own_eq, ⟨y, List.mem_cons_of_mem _ hy, hytid, hycall⟩,
    h.challenge, h.row⟩

/-- The first step of a thread reads. -/
theorem CodeTook.first {c : CodeCall} {w w' : Realm} (h : CodeTook env c [(w, w')]) : w' = w := by
  cases h
  rfl

/-- The thread of the newest step has compared only if this was its first step. -/
theorem Compared.first {x : Step Realm CodeCall} {c : CodeCall} {w₁ : Realm} {read : MfaChallenge}
    (h : Compared env id (x :: tr) x.tid c w₁ read) : own x.tid tr = [] ∧ w₁ = x.pre := by
  have hown := h.own_eq
  rw [own_cons_self] at hown
  obtain ⟨heq, hnil⟩ := List.cons.inj hown
  exact ⟨hnil, (congrArg Prod.fst heq).symm⟩

/-- A step of a call on another challenge. -/
theorem CodeWatched.other {w : Realm} (h : CodeWatched env id tr w) {x : Step Realm CodeCall}
    (hpre : x.pre = w)
    (hcalls : ∀ y ∈ x :: tr, y.tid = x.tid → y.call = x.call)
    (htook : CodeTook env x.call ((x.pre, x.post) :: own x.tid tr))
    (hother : x.call.challengeId ≠ id) : CodeWatched env id (x :: tr) x.post := by
  have hsame : watch env id (x :: tr) = watch env id tr := by
    rw [watch, if_pos hother]
  have hrow : x.post.db.mfaChallenges.lookup id = w.db.mfaChallenges.lookup id := by
    rw [← hpre]
    exact (htook.row id).resolve_right fun hr => hother hr.1
  refine ⟨by rw [hsame]; exact h.bound, by rw [hsame, hrow]; exact h.idle, ?_, ?_⟩
  · intro i c w₁ read hcompared
    have hne : x.tid ≠ i := by
      rintro rfl
      obtain ⟨y, hy, hytid, rfl⟩ := hcompared.call
      rw [← hcalls y hy hytid] at hother
      exact hother hcompared.challenge
    rw [hsame, hrow]
    exact h.known i c w₁ read (hcompared.of_ne hne)
  · intro i hi
    rw [hsame] at hi
    obtain ⟨c, w₁, read, hcompared⟩ := h.owned i hi
    have hne : x.tid ≠ i := by
      rintro rfl
      obtain ⟨y, hy, hytid, rfl⟩ := hcompared.call
      rw [← hcalls y (List.mem_cons_of_mem _ hy) hytid] at hother
      exact hother hcompared.challenge
    exact ⟨c, w₁, read, hcompared.cons hne⟩

/-- A call that reads the challenge. -/
theorem CodeWatched.reads {w : Realm} (h : CodeWatched env id tr w) {x : Step Realm CodeCall}
    (hpre : x.pre = w) (hcalls : ∀ y ∈ x :: tr, y.tid = x.tid → y.call = x.call)
    (htook : CodeTook env x.call ((x.pre, x.post) :: own x.tid tr))
    (hid : x.call.challengeId = id) (hfirst : own x.tid tr = [])
    (hapart : (comparedRow env x.call x.pre).isSome → (watch env id tr).pending = []) :
    CodeWatched env id (x :: tr) x.post := by
  have hsame : x.post = w := by
    rw [hfirst] at htook
    rw [htook.first, hpre]
  have hnew : ∀ c w₁ read, Compared env id (x :: tr) x.tid c w₁ read →
      comparedRow env x.call x.pre = some read ∧ c = x.call ∧ w₁ = x.pre := by
    intro c w₁ read hcompared
    obtain ⟨y, hy, hytid, rfl⟩ := hcompared.call
    have hcall := hcalls y hy hytid
    obtain ⟨-, rfl⟩ := hcompared.first
    exact ⟨hcall ▸ hcompared.row, hcall, rfl⟩
  have hwatch : watch env id (x :: tr) = match comparedRow env x.call x.pre with
      | none => watch env id tr
      | some row => ⟨x.tid :: (watch env id tr).pending,
          (watch env id tr).wrong + if x.call.right env row then 0 else 1⟩ := by
    rw [watch, if_neg (by simp [hid]), if_pos (by simp [hfirst])]
  rw [hsame]
  cases hread : comparedRow env x.call x.pre with
  | none =>
    simp only [hread] at hwatch hnew
    refine ⟨by rw [hwatch]; exact h.bound, by rw [hwatch]; exact h.idle, ?_, ?_⟩
    · intro i c w₁ read hcompared
      have hne : x.tid ≠ i := by
        rintro rfl
        exact absurd (hnew c w₁ read hcompared).1 (by simp)
      rw [hwatch]
      exact h.known i c w₁ read (hcompared.of_ne hne)
    · intro i hi
      rw [hwatch] at hi
      obtain ⟨c, w₁, read, hcompared⟩ := h.owned i hi
      have hne : x.tid ≠ i := by
        rintro rfl
        rw [hcompared.own_eq] at hfirst
        cases hfirst
      exact ⟨c, w₁, read, hcompared.cons hne⟩
  | some row =>
    simp only [hread] at hwatch hnew
    have hnone := hapart (by rw [hread]; rfl)
    obtain ⟨hlookup, -, hattempts, -⟩ := comparedRow_eq hread
    rw [hid, hpre] at hlookup
    have hbefore := h.idle hnone row hlookup
    rw [hnone] at hwatch
    have hpending : (watch env id (x :: tr)).pending = [x.tid] := by rw [hwatch]
    have hwrong : (watch env id (x :: tr)).wrong =
        (watch env id tr).wrong + if x.call.right env row then 0 else 1 := by rw [hwatch]
    refine ⟨?_, ?_, ?_, ?_⟩
    · rw [hwrong]
      split <;> omega
    · intro hempty
      rw [hpending] at hempty
      cases hempty
    · intro i c w₁ read hcompared
      by_cases hi : x.tid = i
      · subst hi
        obtain ⟨hrow, rfl, -⟩ := hnew c w₁ read hcompared
        cases hrow
        exact ⟨hpending, hlookup, by omega⟩
      · have hknown := (h.known i c w₁ read (hcompared.of_ne hi)).1
        rw [hnone] at hknown
        cases hknown
    · intro i hi
      rw [hpending] at hi
      obtain rfl := List.mem_singleton.1 hi
      refine ⟨x.call, x.pre, row, ?_, ⟨x, List.mem_cons_self, rfl, rfl⟩, hid, hread⟩
      rw [own_cons_self, hfirst, hsame, hpre]

/-- Who has compared after a later step of a thread is another, and had compared before. -/
theorem Compared.older {x : Step Realm CodeCall} {i : ℕ} {c : CodeCall} {w₁ : Realm}
    {read : MfaChallenge} (h : Compared env id (x :: tr) i c w₁ read) (hlater : own x.tid tr ≠ []) :
    x.tid ≠ i ∧ Compared env id tr i c w₁ read := by
  have hne : x.tid ≠ i := by
    rintro rfl
    exact hlater h.first.1
  exact ⟨hne, h.of_ne hne⟩

/-- The watch after a call of `verify` has written. -/
theorem watch_verified {x : Step Realm CodeCall} {now : Instant} {code : String}
    (hcall : x.call = .verify now id code) (hlater : own x.tid tr ≠ []) :
    watch env id (x :: tr) = { watch env id tr with
      pending := (watch env id tr).pending.filter fun i => i ≠ x.tid } := by
  have hid : x.call.challengeId = id := by rw [hcall]; rfl
  rw [watch, if_neg (by simp [hid]), if_neg (by simpa using hlater)]
  simp only [hcall]

/-- A call of `verify` writes the row that it has compared its code with. -/
theorem CodeWatched.settles {x : Step Realm CodeCall} (h : CodeWatched env id tr x.pre)
    {now : Instant} {code : String} (hcall : x.call = .verify now id code)
    (hlater : own x.tid tr ≠ []) {w₁ : Realm} {read row : MfaChallenge}
    (hcompared : Compared env id tr x.tid (.verify now id code) w₁ read)
    (hrow : x.pre.db.mfaChallenges.lookup id = some row)
    (hpost : x.post = x.pre.withChallenge id (settledRow env (.verify now id code) read row)) :
    CodeWatched env id (x :: tr) x.post := by
  have hwatch : watch env id (x :: tr) = { watch env id tr with
      pending := (watch env id tr).pending.filter fun i => i ≠ x.tid } :=
    watch_verified hcall hlater
  obtain ⟨hpending, hlookup, hwrong⟩ := h.known _ _ _ _ hcompared
  have hdone : (watch env id (x :: tr)).pending = [] := by
    rw [hwatch]
    simp [hpending]
  rw [hlookup] at hrow
  cases hrow
  refine ⟨by rw [hwatch]; exact h.bound, fun _ row' hrow' => ?_, ?_, ?_⟩
  · rw [hpost, lookup_withChallenge, if_pos rfl] at hrow'
    cases hrow'
    rw [hwatch]
    simp only [settledRow]
    by_cases hright : (CodeCall.verify now id code).right env read = true
    · rw [if_pos hright] at hwrong ⊢
      exact hwrong
    · rw [if_neg hright] at hwrong ⊢
      exact hwrong
  · intro i c w₁' read' hcompared'
    obtain ⟨hne, hbefore⟩ := hcompared'.older hlater
    have hknown := (h.known i c w₁' read' hbefore).1
    rw [hpending] at hknown
    exact absurd (List.cons.inj hknown).1 hne
  · intro i hi
    rw [hdone] at hi
    cases hi

/-- A call of `verify` finds no row to write. -/
theorem CodeWatched.misses {x : Step Realm CodeCall} (h : CodeWatched env id tr x.pre)
    {now : Instant} {code : String} (hcall : x.call = .verify now id code)
    (hlater : own x.tid tr ≠ []) (htook : CodeTook env x.call ((x.pre, x.post) :: own x.tid tr))
    (hnone : x.pre.db.mfaChallenges.lookup id = none) : CodeWatched env id (x :: tr) x.post := by
  have hwatch : watch env id (x :: tr) = { watch env id tr with
      pending := (watch env id tr).pending.filter fun i => i ≠ x.tid } :=
    watch_verified hcall hlater
  have hidle : ∀ i c w₁ read, ¬ Compared env id tr i c w₁ read := by
    intro i c w₁ read hcompared
    have hlookup := (h.known i c w₁ read hcompared).2.1
    rw [hnone] at hlookup
    cases hlookup
  have hpost : x.post.db.mfaChallenges.lookup id = none := by
    rcases htook.row id with hsame | ⟨-, row, -, hrow, -⟩
    · rw [hsame, hnone]
    · rw [hnone] at hrow
      cases hrow
  refine ⟨by rw [hwatch]; exact h.bound, fun _ row hrow => ?_, ?_, ?_⟩
  · rw [hpost] at hrow
    cases hrow
  · intro i c w₁ read hcompared
    exact (hidle _ _ _ _ (hcompared.older hlater).2).elim
  · intro i hi
    rw [hwatch] at hi
    obtain ⟨c, w₁, read, hcompared⟩ := h.owned i (List.mem_of_mem_filter hi)
    exact (hidle _ _ _ _ hcompared).elim

/-- A call that writes the challenge. -/
theorem CodeWatched.writes {w : Realm} (h : CodeWatched env id tr w) {x : Step Realm CodeCall}
    (hpre : x.pre = w) (hcalls : ∀ y ∈ x :: tr, y.tid = x.tid → y.call = x.call)
    (htook : CodeTook env x.call ((x.pre, x.post) :: own x.tid tr))
    (hid : x.call.challengeId = id) (hlater : own x.tid tr ≠ [])
    (hapart : (∀ now id code, x.call ≠ .verify now id code) → (watch env id tr).pending = []) :
    CodeWatched env id (x :: tr) x.post := by
  subst hpre
  cases hcall : x.call with
  | verify now cid code =>
    obtain rfl : cid = id := by rw [← hid, hcall]; rfl
    have hverified := htook
    rw [hcall] at hverified
    obtain ⟨w₁, hown, ⟨read, row, hread, hrow, hpost⟩ | hnone⟩ := hverified.verified hlater
    · obtain ⟨y, hy, hytid, -⟩ := mem_own.1 (hown ▸ List.mem_singleton_self (w₁, w₁))
      have hcompared : Compared env cid tr x.tid (.verify now cid code) w₁ read :=
        ⟨hown, ⟨y, hy, hytid, (hcalls y (List.mem_cons_of_mem _ hy) hytid).trans hcall⟩, rfl, hread⟩
      exact h.settles hcall hlater hcompared hrow hpost
    · exact h.misses hcall hlater htook hnone
  | resend now cid code salt =>
    have hnone := hapart (by simp [hcall])
    have hwatch : watch env id (x :: tr) = { watch env id tr with wrong := 0 } := by
      rw [watch, if_neg (by simp [hid]), if_neg (by simpa using hlater)]
      simp only [hcall]
    refine ⟨by rw [hwatch]; exact Nat.zero_le _, fun _ row _ => by rw [hwatch]; exact Nat.zero_le _,
      ?_, ?_⟩
    · intro i c w₁ read hcompared
      have hknown := (h.known i c w₁ read (hcompared.older hlater).2).1
      rw [hnone] at hknown
      cases hknown
    · intro i hi
      rw [hwatch, hnone] at hi
      cases hi

/-- Where calls keep apart, what is watched stays known. -/
theorem watched_step (hrun : CodeRun env s₀ tr P) (hapart : EachStep (Apart env id) [] tr)
    {later earlier : List (Step Realm CodeCall)} {x : Step Realm CodeCall}
    (hsplit : tr = later ++ x :: earlier) (h : CodeWatched env id earlier x.pre) :
    CodeWatched env id (x :: earlier) x.post := by
  have hcalls : ∀ y ∈ x :: earlier, y.tid = x.tid → y.call = x.call :=
    fun y hy htid => hrun.call_eq (by rw [hsplit]; exact List.mem_append_right _ hy)
      (by rw [hsplit]; simp) htid
  have htook := code_took hrun hsplit
  have hclear : Apart env id later x earlier := EachStep.split (hsplit ▸ hapart)
  by_cases hid : x.call.challengeId = id
  · by_cases hfirst : own x.tid earlier = []
    · refine h.reads rfl hcalls htook hid hfirst fun hread => hclear hid ?_
      simpa [Interferes, hfirst] using hread
    · refine h.writes rfl hcalls htook hid hfirst fun hresend => hclear hid ?_
      simp only [Interferes, List.isEmpty_iff, if_neg hfirst]
      cases hcall : x.call with
      | verify now cid code => exact (hresend now cid code hcall).elim
      | resend now cid code salt => rfl
  · exact h.other rfl hcalls htook hid

theorem watched_start (env : Env) (id : Uuid) (s₀ : Realm) : CodeWatched env id [] s₀ := by
  refine ⟨Nat.zero_le _, fun _ row _ => Nat.zero_le _, fun i c w₁ read h => ?_, fun i hi => ?_⟩
  · have hown := h.own_eq
    cases hown
  · cases hi

/-- A call that found its code right and wrote has consumed the challenge. -/
def Consumes (id : Uuid) (x : Step Realm CodeCall) : Prop :=
  (∃ row, x.pre.db.mfaChallenges.lookup id = some row ∧ row.consumedAt = none) ∧
    ∃ row, x.post.db.mfaChallenges.lookup id = some row ∧ row.consumedAt.isSome

/-- A challenge is consumed at most once. -/
theorem consumes_once (hrun : CodeRun env s₀ tr P) : AtMostOnce (Consumes id) tr := by
  refine (hrun.induct (I := fun tr w => AtMostOnce (Consumes id) tr ∧ ((∃ y ∈ tr, Consumes id y) →
    ∃ row, w.db.mfaChallenges.lookup id = some row ∧ row.consumedAt.isSome)) ?_ ?_).1
  · exact ⟨List.Pairwise.nil, by simp⟩
  · rintro later x earlier hsplit ⟨honce, hconsumed⟩
    refine ⟨honce.cons fun hx y hy hyc => ?_, ?_⟩
    · obtain ⟨row, hrow, hsome⟩ := hconsumed ⟨y, hy, hyc⟩
      obtain ⟨⟨row', hrow', hnone⟩, -⟩ := hx
      rw [hrow] at hrow'
      cases hrow'
      rw [hnone] at hsome
      cases hsome
    · rintro ⟨y, hy, hyc⟩
      rcases List.mem_cons.1 hy with rfl | hy
      · exact hyc.2
      · obtain ⟨row, hrow, hsome⟩ := hconsumed ⟨y, hy, hyc⟩
        rcases (code_took hrun hsplit).row id with hsame | ⟨-, row₁, row₂, hrow₁, hrow₂, hkeep⟩
        · exact ⟨row, hsame.trans hrow, hsome⟩
        · rw [hrow] at hrow₁
          cases hrow₁
          exact ⟨row₂, hrow₂, hkeep hsome⟩

/-- A call that found its code right writes while the row has the code that it compared. -/
def AcceptsStored (env : Env) (id : Uuid) (tr : List (Step Realm CodeCall)) : Prop :=
  ∀ later x earlier w₁ read, tr = later ++ x :: earlier → x.call.challengeId = id →
    own x.tid earlier = [(w₁, w₁)] → comparedRow env x.call w₁ = some read →
      x.call.right env read = true → ∃ row, x.pre.db.mfaChallenges.lookup id = some row ∧
        row.codeHash = read.codeHash

/-- The row that a call writes is the one it read. -/
theorem row_kept (hrun : CodeRun env s₀ tr P) (hapart : EachStep (Apart env id) [] tr)
    {later earlier : List (Step Realm CodeCall)} {x : Step Realm CodeCall}
    (hsplit : tr = later ++ x :: earlier) (hid : x.call.challengeId = id) {w₁ : Realm}
    {read : MfaChallenge} (hown : own x.tid earlier = [(w₁, w₁)])
    (hread : comparedRow env x.call w₁ = some read) :
    x.pre.db.mfaChallenges.lookup id = some read := by
  have hwatched := hrun.induct_before (watched_start env id s₀)
    (fun _ _ _ => watched_step hrun hapart) hsplit
  obtain ⟨y, hy, hytid, -⟩ := mem_own.1 (hown ▸ List.mem_singleton_self (w₁, w₁))
  have hcall : y.call = x.call :=
    hrun.call_eq (by rw [hsplit]; simp [hy]) (by rw [hsplit]; simp) hytid
  exact (hwatched.known x.tid x.call w₁ read ⟨hown, ⟨y, hy, hytid, hcall⟩, hid, hread⟩).2.1

/-- **The guess budget**, in runs whose calls keep apart: so many wrong codes are compared with one code,
one call succeeds, and only the code that is stored is accepted. -/
theorem guess_budget (env : Env) (id : Uuid) {s₀ : Realm} {tr : List (Step Realm CodeCall)}
    {P : Pool Realm Error Unit CodeCall} (hrun : CodeRun env s₀ tr P)
    (hapart : EachStep (Apart env id) [] tr) :
    (watch env id tr).wrong ≤ env.mfaMaxAttempts ∧
      (∀ i j now now' code code', P.Returned i (.verify now id code) () →
        P.Returned j (.verify now' id code') () → i = j) ∧ AcceptsStored env id tr := by
  have hconsumes : ∀ {i now code}, P.Returned i (.verify now id code) () →
      ∃ x ∈ tr, x.tid = i ∧ Consumes id x := by
    intro i now code hreturned
    have hpromise : CodePromise env (.verify now id code) (own i tr) (.ok ()) :=
      (hrun.does fun _ c _ => code_does env c).2 i _ hreturned.thread
    obtain ⟨w₁, w₂, read, row, hread, hright, hrow, hown⟩ := hpromise now id code rfl
    obtain ⟨later, x, earlier, hsplit, rfl, hx, -, hbefore⟩ :=
      own_eq_append (show own i tr = [] ++ _ :: [(w₁, w₁)] from hown)
    obtain ⟨hpre, hpost⟩ := Prod.mk.inj hx
    have hcall : x.call = .verify now id code := by
      obtain ⟨t, ht, hcall⟩ := hrun.thread_of_step (x := x) (by rw [hsplit]; simp)
      rw [hreturned.thread] at ht
      cases ht
      exact hcall.symm
    have hkept := row_kept hrun hapart hsplit (by rw [hcall]; rfl) hbefore (by rw [hcall]; exact hread)
    refine ⟨x, by rw [hsplit]; simp, rfl, ⟨read, hkept, (comparedRow_eq hread).2.1⟩, ?_⟩
    rw [hpost, lookup_withChallenge, if_pos rfl]
    refine ⟨_, rfl, ?_⟩
    simp only [settledRow, if_pos hright]
    rfl
  refine ⟨(hrun.induct (watched_start env id s₀) fun _ _ _ => watched_step hrun hapart).bound,
    fun i j now now' code code' hi hj => ?_, fun later x earlier w₁ read hsplit hid hown hread _ =>
      ⟨read, row_kept hrun hapart hsplit hid hown hread, rfl⟩⟩
  obtain ⟨x, hx, rfl, hxc⟩ := hconsumes hi
  obtain ⟨y, hy, rfl, hyc⟩ := hconsumes hj
  rw [(consumes_once hrun).eq hx hy hxc hyc]

end Run

/-! ## Samples -/

/-- Ann has a challenge. -/
def challengedRealm : Realm :=
  sampleRealm.withChallenge 21 (challengeRow sampleEnv 0 ⟨21, "123456", 0⟩ 1)

/-- The run of a schedule of calls on it. -/
def sampleCodes (sched : List (Choice CodeCall)) :
    List (Step Realm CodeCall) × Pool Realm Error Unit CodeCall :=
  exec (fun _ => codeProgram sampleEnv) challengedRealm sched

/-- A wrong code, a new code, and the new code. -/
def inTurn : List (Choice CodeCall) :=
  [.call (.verify 1000 21 "000000"), .step 0, .step 0, .call (.resend 2000 21 "654321" 1), .step 1,
    .step 1, .call (.verify 3000 21 "654321"), .step 2, .step 2]

theorem inTurn_budget : (watch sampleEnv 21 (sampleCodes inTurn).1).wrong ≤ 5 ∧
    (∀ i j now now' code code', (sampleCodes inTurn).2.Returned i (.verify now 21 code) () →
      (sampleCodes inTurn).2.Returned j (.verify now' 21 code') () → i = j) ∧
    AcceptsStored sampleEnv 21 (sampleCodes inTurn).1 :=
  guess_budget sampleEnv 21 (exec_run inTurn fun _ _ => trivial) (by decide +kernel)

/-- Six wrong codes at once. -/
def sixGuesses : List (Choice CodeCall) :=
  List.replicate 6 (.call (.verify 1000 21 "000000")) ++ (List.range 6).map .step

/-- The right code twice at once. -/
def twice : List (Choice CodeCall) :=
  [.call (.verify 1000 21 "123456"), .call (.verify 1000 21 "123456"), .step 0, .step 1, .step 0,
    .step 1]

/-- A code that is replaced while it is compared. -/
def replacedCode : List (Choice CodeCall) :=
  [.call (.verify 1000 21 "123456"), .call (.resend 1000 21 "654321" 1), .step 0, .step 1, .step 1,
    .step 0]

/-- Where calls overlap, none of the three holds: six codes are compared under a limit of five, two calls
succeed, and a code that was replaced is accepted. -/
theorem overlapping_guesses :
    (sampleEnv.mfaMaxAttempts = 5 ∧ (watch sampleEnv 21 (sampleCodes sixGuesses).1).wrong = 6) ∧
    ((sampleCodes twice).2.Returned 0 (.verify 1000 21 "123456") () ∧
      (sampleCodes twice).2.Returned 1 (.verify 1000 21 "123456") ()) ∧
    (sampleCodes replacedCode).2.Returned 0 (.verify 1000 21 "123456") () ∧
      ¬ AcceptsStored sampleEnv 21 (sampleCodes replacedCode).1 := by
  refine ⟨by decide +kernel, by decide +kernel, by decide +kernel, fun haccepts => ?_⟩
  obtain ⟨row, hrow, hhash⟩ := haccepts [] _ _ _ _ rfl rfl rfl rfl rfl
  cases hrow
  exact absurd hhash (by decide)

end BankDemo.Identity
