import BankDemo.Elevation.Pin
import BankDemo.Sessions.Calls

/-!
# How often a PIN can be guessed

`verifyPin` looks at the lock and fetches the counter before it awaits the hash and the comparison, and
counts a wrong PIN after them. So calls that overlap all get past the lock, and where there was no
counter, each counts on one of its own. `setPin` compares the current PIN without looking at the lock, and
counts nothing.

The trace is watched for the comparisons of a user's PIN (`watch`). Where the calls keep apart, the limit
holds (`pin_budget`): every step is then a move under which the counter that is in use covers the wrong
guesses (`Within`).
-/

namespace BankDemo.Pins

open Crypto Identity

/-! ## What the calls do -/

/-- The reference that `verifyPin` fetches. -/
def PinState.ref (s : PinState) (userId : Uuid) : ℕ := (s.of userId).fetch.1

/-- The state after the counter is fetched. -/
def PinState.opened (s : PinState) (userId : Uuid) : PinState := s.put userId (s.of userId).fetch.2

/-- The steps that a call can take. -/
inductive PinTook (env : Env) : PinCall → List (PinState × PinState) → Prop
  | barred {userId : Uuid} {pin : String} {scope : ElevationScope} {jti : Uuid} {s : PinState}
      (hlocked : s.locked userId = true) : PinTook env (.verify userId pin scope jti) [(s, s)]
  | opened {userId : Uuid} {pin : String} {scope : ElevationScope} {jti : Uuid} {s : PinState}
      (hfree : s.locked userId = false) :
      PinTook env (.verify userId pin scope jti) [(s, s.opened userId)]
  | compared {userId : Uuid} {pin : String} {scope : ElevationScope} {jti : Uuid}
      {s₁ s₂ : PinState} (hfree : s₁.locked userId = false) :
      PinTook env (.verify userId pin scope jti) [(s₂, s₂), (s₁, s₁.opened userId)]
  | missed {userId : Uuid} {pin : String} {scope : ElevationScope} {jti : Uuid}
      {s₁ s₂ s₃ : PinState} {hash : String} (hfree : s₁.locked userId = false)
      (hhash : s₂.pinHash userId = some hash) (hwrong : env.argonVerify hash pin = false) :
      PinTook env (.verify userId pin scope jti)
        [(s₃, s₃.missed userId (s₁.ref userId)), (s₂, s₂), (s₁, s₁.opened userId)]
  | passed {userId : Uuid} {pin : String} {scope : ElevationScope} {jti : Uuid}
      {s₁ s₂ s₃ : PinState} {hash : String} (hfree : s₁.locked userId = false)
      (hhash : s₂.pinHash userId = some hash) (hright : env.argonVerify hash pin = true) :
      PinTook env (.verify userId pin scope jti)
        [(s₃, s₃.cleared userId), (s₂, s₂), (s₁, s₁.opened userId)]
  | read {userId : Uuid} {newPin : String} {currentPin currentPassword : Option String} {salt : ℕ}
      {s : PinState} : PinTook env (.set userId newPin currentPin currentPassword salt) [(s, s)]
  | stored {userId : Uuid} {newPin : String} {currentPin currentPassword : Option String}
      {salt : ℕ} {s₁ s₂ : PinState} :
      PinTook env (.set userId newPin currentPin currentPassword salt)
        [(s₂, s₂.stored userId (env.argonHash salt newPin)), (s₁, s₁)]
  | cleared {userId : Uuid} {newPin : String} {currentPin currentPassword : Option String}
      {salt : ℕ} {s₁ s₂ s₃ : PinState} :
      PinTook env (.set userId newPin currentPin currentPassword salt)
        [(s₃, s₃.cleared userId), (s₂, s₂.stored userId (env.argonHash salt newPin)), (s₁, s₁)]
  | waited {ms : ℕ} {s : PinState} : PinTook env (.wait ms) [(s, s.later ms)]

/-- The counter that is fetched tells what the map tells. -/
theorem locked_fetch (c : Counters) (now : Instant) :
    c.locked now = match (c.fetch.2.object c.fetch.1).lockedUntil with
      | some t => decide (now < t)
      | none => false := by
  unfold Counters.locked Counters.fetch
  cases hentry : c.entry with
  | some ref => rfl
  | none => simp [Counters.object]

theorem opened_does {env : Env} {userId : Uuid} {pin : String} {scope : ElevationScope} {jti : Uuid}
    {k : ℕ → PinService PinAnswer}
    (hk : ∀ s : PinState, s.locked userId = false →
      (k (s.ref userId)).Does (PinTook env (.verify userId pin scope jti)) (fun _ _ => True)
        [(s, s.opened userId)]) :
    (openAttempts userId >>= k).Does (PinTook env (.verify userId pin scope jti)) (fun _ _ => True)
      [] := by
  refine Prog.does_bind (Prog.does_attempt (fun s a s' _ hb => ?_) fun s e _ hb => ?_)
  · have hlocked := locked_fetch (s.of userId) s.now
    simp only at hb
    split at hb
    · rename_i t ht
      split at hb
      · cases hb
      · rename_i hlate
        cases hb
        have hfree : s.locked userId = false := by
          rw [PinState.locked, hlocked, ht]
          simpa using hlate
        exact ⟨.opened hfree, hk s hfree⟩
    · rename_i ht
      cases hb
      have hfree : s.locked userId = false := by
        rw [PinState.locked, hlocked, ht]
      exact ⟨.opened hfree, hk s hfree⟩
  · have hlocked := locked_fetch (s.of userId) s.now
    simp only at hb
    split at hb
    · rename_i t ht
      split at hb
      · rename_i hearly
        refine ⟨.barred ?_, trivial⟩
        rw [PinState.locked, hlocked, ht]
        simpa using hearly
      · cases hb
    · cases hb

theorem pin_does (env : Env) (c : PinCall) :
    (pinProgram env c).Does (PinTook env c) (fun _ _ => True) [] := by
  cases c with
  | verify userId pin scope jti =>
    simp only [pinProgram, verifyPin]
    split
    · exact trivial
    · rw [bind_assoc]
      refine opened_does fun s₁ hfree => ?_
      rw [bind_assoc]
      refine Prog.does_bind (Prog.does_read fun s₂ => ⟨.compared hfree, ?_⟩)
      dsimp only
      cases hhash : s₂.pinHash userId with
      | none => exact trivial
      | some hash =>
        dsimp only
        split
        · rename_i hright
          refine Prog.does_bind (Prog.does_attempt (fun s₃ a s' _ hb => ?_) fun s₃ e _ hb => ?_)
          · cases hb
            exact ⟨.passed hfree hhash hright, trivial⟩
          · cases hb
        · rename_i hwrong
          rw [bind_assoc]
          refine Prog.does_bind (Prog.does_modify fun s₃ _ => ⟨.missed hfree hhash ?_, trivial⟩)
          simpa using hwrong
  | set userId newPin currentPin currentPassword salt =>
    simp only [pinProgram, setPin]
    split
    · exact trivial
    · split
      · exact trivial
      · rw [bind_assoc]
        refine Prog.does_bind (Prog.does_read fun s₁ => ⟨.read, ?_⟩)
        dsimp only
        cases s₁.users.lookup userId with
        | none => exact trivial
        | some user =>
          dsimp only
          cases checkCurrent env user currentPin currentPassword with
          | error e => exact trivial
          | ok _ =>
            exact fun s₂ _ => ⟨.stored, fun s₃ _ => ⟨.cleared, trivial⟩⟩
  | wait ms =>
    exact Prog.does_bind (Prog.does_modify fun s _ => ⟨.waited, trivial⟩)

/-! ## Watching a user -/

/-- Where a call on the user's PIN is. -/
inductive Phase
  /-- it got past the lock, with the counter under the reference -/
  | opened (ref : ℕ)
  /-- it compared the PIN, and was it right -/
  | compared (ref : ℕ) (right : Bool)
  /-- it stored a new PIN, and has still to clear the counter -/
  | storing
  deriving DecidableEq

/-- Where a call is by its steps, while it is under way. -/
def phaseOf (env : Env) (u : Uuid) : PinCall → List (PinState × PinState) → Option Phase
  | .verify userId _ _ _, [(s₁, _)] =>
    if userId = u ∧ s₁.locked u = false then some (.opened (s₁.ref u)) else none
  | .verify userId pin _ _, [(s₂, _), (s₁, _)] =>
    if userId = u then
      (s₂.pinHash u).map fun hash => .compared (s₁.ref u) (env.argonVerify hash pin)
    else none
  | .set userId _ _ _ _, [_, _] => if userId = u then some .storing else none
  | _, _ => none

/-- Whether the next step of a call, from `s`, compares a PIN of the user, and is it right. -/
def comparison (env : Env) (u : Uuid) : PinCall → List (PinState × PinState) → PinState → Option Bool
  | .verify userId pin _ _, [_], s =>
    if userId = u then (s.pinHash u).map fun hash => env.argonVerify hash pin else none
  | .set userId _ currentPin _ _, [], s =>
    if userId = u then (s.pinHash u).bind fun hash =>
      (truthy currentPin).map fun pin => env.argonVerify hash pin
    else none
  | _, _, _ => none

/-- Whether a step of a call proves the PIN, replaces it or locks the user. -/
def renews (u : Uuid) : PinCall → List (PinState × PinState) → PinState → Bool
  | .verify userId _ _ _, [_, _], s' => userId = u ∧ ((s'.of u).entry = none ∨ s'.locked u = true)
  | .set userId _ _ _ _, [_], _ => userId = u
  | _, _, _ => false

/-- What was seen of a user. -/
structure PinWatch where
  /-- the calls that are under way -/
  busy : List (ℕ × Phase)
  /-- how many wrong PINs were compared since the PIN was proved or replaced, or the user locked -/
  wrong : ℕ
  /-- how many PINs were compared while the user was locked -/
  whileLocked : ℕ
  deriving DecidableEq

/-- What was seen after a step of thread `i`. -/
def PinWatch.after (env : Env) (u : Uuid) (W : PinWatch) (i : ℕ) (c : PinCall)
    (own : List (PinState × PinState)) (s s' : PinState) : PinWatch :=
  let busy := moveOn i (phaseOf env u c ((s, s') :: own)) W.busy
  match comparison env u c own s with
  | some right => {
      busy
      wrong := W.wrong + if right then 0 else 1
      whileLocked := W.whileLocked + if s.locked u then 1 else 0 }
  | none => { busy, wrong := if renews u c own s' then 0 else W.wrong, whileLocked := W.whileLocked }

/-- The comparisons of a user's PIN in the steps of a run. -/
def watch (env : Env) (u : Uuid) : List (Step PinState PinCall) → PinWatch
  | [] => ⟨[], 0, 0⟩
  | x :: earlier =>
    (watch env u earlier).after env u x.tid x.call (own x.tid earlier) x.pre x.post

/-- The next step of a call keeps apart from the calls under way: `verifyPin` goes past the lock alone,
and compares after every new PIN was followed by the clearing of the counter; `setPin` compares only the
right PIN, of a user who is not locked. -/
def keepsApart (env : Env) (u : Uuid) (W : PinWatch) (c : PinCall) (own : List (PinState × PinState))
    (s : PinState) : Bool :=
  match c, own with
  | .verify userId _ _ _, [] => userId = u → s.locked u = false → ∀ e ∈ W.busy, e.2 = .storing
  | .verify _ _ _ _, [_] => (comparison env u c own s).isSome → ∀ e ∈ W.busy, e.2 ≠ .storing
  | .set _ _ _ _ _, [] => ∀ right ∈ comparison env u c [] s, right = true ∧ s.locked u = false
  | _, _ => true

/-- Every step keeps apart. -/
def Apart (env : Env) (u : Uuid) (_ : List (Step PinState PinCall)) (x : Step PinState PinCall)
    (earlier : List (Step PinState PinCall)) : Prop :=
  keepsApart env u (watch env u earlier) x.call (own x.tid earlier) x.pre = true

instance (env : Env) (u : Uuid) (later : List (Step PinState PinCall)) (x : Step PinState PinCall)
    (earlier : List (Step PinState PinCall)) : Decidable (Apart env u later x earlier) :=
  inferInstanceAs (Decidable (_ = true))

/-! ## Moves -/

/-- The counter is in use: the map holds it, unless it was cleared, and it does not lock the user. -/
structure InUse (c : Counters) (now : Instant) (ref : ℕ) : Prop where
  made : ref < c.made.length
  entry : c.entry = none ∨ c.entry = some ref
  free : ∀ t, (c.object ref).lockedUntil = some t → t ≤ now

/-- How many wrong guesses the map knows of. -/
def Counters.count (c : Counters) : ℕ := (c.entry.map fun ref => (c.object ref).count).getD 0

/-- The wrong guesses are within the limit, and the counter in use covers them. -/
structure Within (W : PinWatch) (c : Counters) (now : Instant) : Prop where
  clean : W.whileLocked = 0
  limit : W.wrong ≤ maxAttempts
  entry : ∀ ref, c.entry = some ref → ref < c.made.length
  single : ∀ e ∈ W.busy, ∀ e' ∈ W.busy, e.2 ≠ .storing → e'.2 ≠ .storing → e.1 = e'.1
  storing : (∃ e ∈ W.busy, e.2 = .storing) → W.wrong = 0
  idle : (∀ e ∈ W.busy, e.2 = .storing) → W.wrong ≤ c.count ∧ W.wrong < maxAttempts
  opened : ∀ i ref, (i, .opened ref) ∈ W.busy → InUse c now ref ∧ W.wrong ≤ c.count ∧
    W.wrong ≤ (c.object ref).count ∧ W.wrong < maxAttempts
  compared : ∀ i ref right, (i, .compared ref right) ∈ W.busy → InUse c now ref ∧
    W.wrong ≤ (c.object ref).count + if right then 0 else 1

theorem InUse.later {c : Counters} {now now' : Instant} {ref : ℕ} (h : InUse c now ref)
    (hnow : now ≤ now') : InUse c now' ref :=
  ⟨h.made, h.entry, fun t ht => (h.free t ht).trans hnow⟩

/-- A user whose counter is in use is not locked. -/
theorem InUse.not_locked {c : Counters} {now : Instant} {ref : ℕ} (h : InUse c now ref) :
    c.locked now = false := by
  unfold Counters.locked
  rcases h.entry with hentry | hentry
  · rw [hentry]
    rfl
  · rw [hentry, Option.bind_some]
    cases ht : (c.object ref).lockedUntil with
    | none => rfl
    | some t => simpa using h.free t ht

theorem maxAttempts_pos : 0 < maxAttempts := by decide

theorem object_miss {c : Counters} {ref : ℕ} (hmade : ref < c.made.length) (now : Instant) :
    (c.miss ref now).object ref = if maxAttempts ≤ (c.object ref).count + 1 then
      ⟨0, some (now + lockoutMs)⟩ else { c.object ref with count := (c.object ref).count + 1 } := by
  unfold Counters.miss
  simp [Counters.object, hmade]

/-- One wrong PIN too many locks the user. -/
theorem locked_miss {c : Counters} {ref : ℕ} (hmade : ref < c.made.length) {now : Instant}
    (hmax : maxAttempts ≤ (c.object ref).count + 1) : (c.miss ref now).locked now = true := by
  have hobject := object_miss hmade now
  rw [if_pos hmax] at hobject
  have hlater : now < now + lockoutMs := lt_add_of_pos_right now (by decide)
  change (match ((c.miss ref now).object ref).lockedUntil with
    | some t => decide (now < t)
    | none => false) = true
  rw [hobject]
  simpa using hlater

/-- A wrong PIN within the limit counts. -/
theorem count_miss {c : Counters} {ref : ℕ} (hmade : ref < c.made.length) {now : Instant}
    (hmax : ¬ maxAttempts ≤ (c.object ref).count + 1) :
    (c.miss ref now).count = (c.object ref).count + 1 := by
  have hobject := object_miss hmade now
  rw [if_neg hmax] at hobject
  change ((c.miss ref now).object ref).count = _
  rw [hobject]

/-- The counter that is fetched. -/
theorem fetch_spec {c : Counters} {now : Instant} (hentry : ∀ ref, c.entry = some ref →
    ref < c.made.length) (hfree : c.locked now = false) : InUse c.fetch.2 now c.fetch.1 ∧
      c.fetch.2.count = c.count ∧ (c.fetch.2.object c.fetch.1).count = c.count ∧
      ∀ ref, c.fetch.2.entry = some ref → ref < c.fetch.2.made.length := by
  have hlocked := locked_fetch c now
  rw [hfree] at hlocked
  have hpast : ∀ t, (c.fetch.2.object c.fetch.1).lockedUntil = some t → t ≤ now := by
    intro t ht
    rw [ht] at hlocked
    simpa using hlocked.symm
  rcases c with ⟨made, _ | ref⟩
  · refine ⟨⟨by simp [Counters.fetch], .inl rfl, hpast⟩, rfl, ?_, fun ref href => ?_⟩
    · simp [Counters.count, Counters.object, Counters.fetch]
    · cases href
  · exact ⟨⟨hentry ref rfl, .inr rfl, hpast⟩, rfl, rfl, hentry⟩

section Moves

variable {W : PinWatch} {c : Counters} {now : Instant} {i ref : ℕ}

theorem mem_others {e : ℕ × Phase} : e ∈ W.busy.filter (fun e => e.1 ≠ i) ↔ e ∈ W.busy ∧ e.1 ≠ i := by
  simp

/-- A call gets past the lock, when no other is under way. -/
theorem Within.open (h : Within W c now) (halone : ∀ e ∈ W.busy, e.2 = .storing)
    (hfree : c.locked now = false) (i : ℕ) :
    Within { W with busy := (i, .opened c.fetch.1) :: W.busy.filter fun e => e.1 ≠ i }
      c.fetch.2 now := by
  obtain ⟨huse, hcount, hobject, hentry⟩ := fetch_spec h.entry hfree
  obtain ⟨hwrong, hlimit⟩ := h.idle halone
  have hothers : ∀ e ∈ W.busy.filter (fun e => e.1 ≠ i), e.2 = .storing :=
    fun e he => halone e (mem_others.1 he).1
  refine ⟨h.clean, h.limit, hentry, ?_, ?_, ?_, ?_, ?_⟩
  · intro e he e' he' hne hne'
    rcases List.mem_cons.1 he with rfl | he
    · rcases List.mem_cons.1 he' with rfl | he'
      · rfl
      · exact absurd (hothers e' he') hne'
    · exact absurd (hothers e he) hne
  · rintro ⟨e, he, hstoring⟩
    rcases List.mem_cons.1 he with rfl | he
    · cases hstoring
    · exact h.storing ⟨e, (mem_others.1 he).1, hstoring⟩
  · intro hall
    cases hall _ List.mem_cons_self
  · intro j r hmem
    rcases List.mem_cons.1 hmem with heq | hmem
    · cases heq
      exact ⟨huse, hcount ▸ hwrong, hobject ▸ hwrong, hlimit⟩
    · cases hothers _ hmem
  · intro j r right hmem
    rcases List.mem_cons.1 hmem with heq | hmem
    · cases heq
    · cases hothers _ hmem

/-- A call compares its PIN. -/
theorem Within.compare (h : Within W c now) (hbusy : (i, .opened ref) ∈ W.busy)
    (hclear : ∀ e ∈ W.busy, e.2 ≠ .storing) (right : Bool) :
    Within ⟨(i, .compared ref right) :: W.busy.filter fun e => e.1 ≠ i,
      W.wrong + if right then 0 else 1, W.whileLocked + if c.locked now then 1 else 0⟩ c now := by
  obtain ⟨huse, -, hwrong, hlimit⟩ := h.opened i ref hbusy
  have hothers : ∀ e ∈ W.busy.filter (fun e => e.1 ≠ i), False := by
    intro e he
    obtain ⟨he, hne⟩ := mem_others.1 he
    exact hne (h.single e he _ hbusy (hclear e he) (by simp))
  have hguess : (if right then 0 else 1) ≤ 1 := by split <;> omega
  refine ⟨?_, ?_, h.entry, ?_, ?_, ?_, ?_, ?_⟩
  · simp [huse.not_locked, h.clean]
  · dsimp only
    omega
  · intro e he e' he' _ _
    rcases List.mem_cons.1 he with rfl | he
    · rcases List.mem_cons.1 he' with rfl | he'
      · rfl
      · exact (hothers e' he').elim
    · exact (hothers e he).elim
  · rintro ⟨e, he, hstoring⟩
    rcases List.mem_cons.1 he with rfl | he
    · cases hstoring
    · exact (hothers e he).elim
  · intro hall
    cases hall _ List.mem_cons_self
  · intro j r hmem
    rcases List.mem_cons.1 hmem with heq | hmem
    · cases heq
    · exact (hothers _ hmem).elim
  · intro j r right' hmem
    rcases List.mem_cons.1 hmem with heq | hmem
    · cases heq
      exact ⟨huse, by dsimp only; omega⟩
    · exact (hothers _ hmem).elim

/-- The calls under way beside a call that verifies are storing. -/
theorem Within.others (h : Within W c now) {phase : Phase} (hbusy : (i, phase) ∈ W.busy)
    (hphase : phase ≠ .storing) : ∀ e ∈ W.busy.filter (fun e => e.1 ≠ i), e.2 = .storing := by
  intro e he
  obtain ⟨he, hne⟩ := mem_others.1 he
  by_contra hstoring
  exact hne (h.single e he _ hbusy hstoring hphase)

/-- A call that got past the lock finds no PIN. -/
theorem Within.giveUp (h : Within W c now) (hbusy : (i, .opened ref) ∈ W.busy) :
    Within { W with busy := W.busy.filter fun e => e.1 ≠ i } c now := by
  obtain ⟨huse, hcount, -, hlimit⟩ := h.opened i ref hbusy
  have hothers := h.others hbusy (by simp)
  refine ⟨h.clean, h.limit, h.entry, fun e he e' he' hne _ => absurd (hothers e he) hne, ?_,
    fun _ => ⟨hcount, hlimit⟩, ?_, ?_⟩
  · rintro ⟨e, he, hstoring⟩
    exact h.storing ⟨e, (mem_others.1 he).1, hstoring⟩
  · intro j r hmem
    cases hothers _ hmem
  · intro j r right hmem
    cases hothers _ hmem

/-- A wrong PIN is counted. -/
theorem Within.miss (h : Within W c now) (hbusy : (i, .compared ref false) ∈ W.busy) :
    Within { W with
      busy := W.busy.filter fun e => e.1 ≠ i
      wrong := if (c.miss ref now).entry = none ∨ (c.miss ref now).locked now = true then 0
        else W.wrong } (c.miss ref now) now := by
  obtain ⟨huse, hwrong⟩ := h.compared i ref false hbusy
  have hothers := h.others hbusy (by simp)
  have hguess : W.wrong ≤ (c.object ref).count + 1 := hwrong
  refine ⟨h.clean, ?_, ?_, fun e he e' he' hne _ => absurd (hothers e he) hne, ?_, fun _ => ?_, ?_,
    ?_⟩
  · dsimp only
    split
    · exact Nat.zero_le _
    · exact h.limit
  · intro r hr
    cases hr
    simpa [Counters.miss] using huse.made
  · rintro ⟨e, he, hstoring⟩
    have hzero := h.storing ⟨e, (mem_others.1 he).1, hstoring⟩
    dsimp only
    split
    · rfl
    · exact hzero
  · by_cases hmax : maxAttempts ≤ (c.object ref).count + 1
    · rw [if_pos (.inr (locked_miss huse.made hmax))]
      exact ⟨Nat.zero_le _, maxAttempts_pos⟩
    · dsimp only
      rw [count_miss huse.made hmax]
      split
      · exact ⟨Nat.zero_le _, maxAttempts_pos⟩
      · omega
  · intro j r hmem
    cases hothers _ hmem
  · intro j r right hmem
    cases hothers _ hmem

/-- The entry is deleted, by a call that proved the PIN or stored a new one. -/
theorem Within.delete (h : Within W c now) (i : ℕ) :
    Within { W with busy := W.busy.filter fun e => e.1 ≠ i, wrong := 0 } c.delete now := by
  have huse : ∀ {ref}, InUse c now ref → InUse c.delete now ref :=
    fun h => ⟨h.made, .inl rfl, h.free⟩
  refine ⟨h.clean, Nat.zero_le _, fun ref href => ?_, ?_, fun _ => rfl,
    fun _ => ⟨Nat.zero_le _, maxAttempts_pos⟩, ?_, ?_⟩
  · cases href
  · intro e he e' he' hne hne'
    exact h.single e (mem_others.1 he).1 e' (mem_others.1 he').1 hne hne'
  · intro j r hmem
    exact ⟨huse (h.opened j r (mem_others.1 hmem).1).1, Nat.zero_le _, Nat.zero_le _, maxAttempts_pos⟩
  · intro j r right hmem
    exact ⟨huse (h.compared j r right (mem_others.1 hmem).1).1, Nat.zero_le _⟩

/-- A new PIN is stored. -/
theorem Within.store (h : Within W c now) (i : ℕ) :
    Within { W with busy := (i, .storing) :: W.busy.filter fun e => e.1 ≠ i, wrong := 0 } c now := by
  refine ⟨h.clean, Nat.zero_le _, h.entry, ?_, fun _ => rfl,
    fun _ => ⟨Nat.zero_le _, maxAttempts_pos⟩, ?_, ?_⟩
  · intro e he e' he' hne hne'
    rcases List.mem_cons.1 he with rfl | he
    · exact absurd rfl hne
    · rcases List.mem_cons.1 he' with rfl | he'
      · exact absurd rfl hne'
      · exact h.single e (mem_others.1 he).1 e' (mem_others.1 he').1 hne hne'
  · intro j r hmem
    rcases List.mem_cons.1 hmem with heq | hmem
    · cases heq
    · exact ⟨(h.opened j r (mem_others.1 hmem).1).1, Nat.zero_le _, Nat.zero_le _, maxAttempts_pos⟩
  · intro j r right hmem
    rcases List.mem_cons.1 hmem with heq | hmem
    · cases heq
    · exact ⟨(h.compared j r right (mem_others.1 hmem).1).1, Nat.zero_le _⟩

/-- Time passes. -/
theorem Within.later (h : Within W c now) {now' : Instant} (hnow : now ≤ now') :
    Within W c now' := by
  refine ⟨h.clean, h.limit, h.entry, h.single, h.storing, h.idle, fun j r hmem => ?_,
    fun j r right hmem => ?_⟩
  · obtain ⟨huse, hrest⟩ := h.opened j r hmem
    exact ⟨huse.later hnow, hrest⟩
  · obtain ⟨huse, hrest⟩ := h.compared j r right hmem
    exact ⟨huse.later hnow, hrest⟩

end Moves

/-! ## Steps -/

/-- The call is one on the PIN of the user. -/
def PinCall.concerns (u : Uuid) : PinCall → Prop
  | .verify userId _ _ _ => userId = u
  | .set userId _ _ _ _ => userId = u
  | .wait _ => False

section Steps

variable {env : Env} {u : Uuid} {W : PinWatch} {i : ℕ} {c : PinCall}
  {own : List (PinState × PinState)} {s s' : PinState}

theorem phaseOf_other (hother : ¬ c.concerns u) (own : List (PinState × PinState)) :
    phaseOf env u c own = none := by
  cases c with
  | verify userId pin scope jti =>
    have hne : userId ≠ u := hother
    unfold phaseOf
    split <;> simp_all
  | set userId newPin currentPin currentPassword salt =>
    have hne : userId ≠ u := hother
    unfold phaseOf
    split <;> simp_all
  | wait ms => rfl

theorem comparison_other (hother : ¬ c.concerns u) : comparison env u c own s = none := by
  cases c with
  | verify userId pin scope jti =>
    have hne : userId ≠ u := hother
    unfold comparison
    split <;> simp_all
  | set userId newPin currentPin currentPassword salt =>
    have hne : userId ≠ u := hother
    unfold comparison
    split <;> simp_all
  | wait ms => rfl

theorem renews_other (hother : ¬ c.concerns u) : renews u c own s' = false := by
  cases c with
  | verify userId pin scope jti =>
    have hne : userId ≠ u := hother
    unfold renews
    split <;> simp_all
  | set userId newPin currentPin currentPassword salt =>
    have hne : userId ≠ u := hother
    unfold renews
    split <;> simp_all
  | wait ms => rfl

@[simp] theorem of_stored (s : PinState) (userId u : Uuid) (hash : String) :
    (s.stored userId hash).of u = s.of u := by
  unfold PinState.stored
  split <;> rfl

@[simp] theorem now_stored (s : PinState) (userId : Uuid) (hash : String) :
    (s.stored userId hash).now = s.now := by
  unfold PinState.stored
  split <;> rfl

/-- A call on another user leaves the counters of this one. -/
theorem PinTook.other (htook : PinTook env c ((s, s') :: own)) (hother : ¬ c.concerns u) :
    s'.of u = s.of u ∧ s.now ≤ s'.now := by
  have hput : ∀ {userId : Uuid} {counters : Counters}, userId ≠ u →
      (s.put userId counters).of u = s.of u ∧ s.now ≤ (s.put userId counters).now :=
    fun hne => ⟨s.of_put_ne hne _, le_refl s.now⟩
  cases htook with
  | barred hlocked => exact ⟨rfl, le_rfl⟩
  | opened hfree => exact hput hother
  | compared hfree => exact ⟨rfl, le_rfl⟩
  | missed hfree hhash hwrong => exact hput hother
  | passed hfree hhash hright => exact hput hother
  | read => exact ⟨rfl, le_rfl⟩
  | stored => exact ⟨of_stored _ _ _ _, (now_stored _ _ _).ge⟩
  | cleared => exact hput hother
  | waited => exact ⟨rfl, by simp [PinState.later]⟩

/-- The watch knows where the thread is. -/
def Knows (env : Env) (u : Uuid) (W : PinWatch) (i : ℕ) (c : PinCall)
    (own : List (PinState × PinState)) : Prop :=
  ∀ phase, (i, phase) ∈ W.busy ↔ phaseOf env u c own = some phase

theorem moveOn_none (hout : phaseOf env u c own = none) (hknows : Knows env u W i c own) :
    moveOn i none W.busy = W.busy := by
  refine List.filter_eq_self.2 fun e he => decide_eq_true ?_
  rintro rfl
  have hphase := (hknows e.2).1 he
  rw [hout] at hphase
  cases hphase

/-- A step of a call on another user. -/
theorem within_other (h : Within W (s.of u) s.now) (hknows : Knows env u W i c own)
    (htook : PinTook env c ((s, s') :: own)) (hother : ¬ c.concerns u) :
    Within (W.after env u i c own s s') (s'.of u) s'.now := by
  obtain ⟨hof, hnow⟩ := htook.other hother
  have hsame : W.after env u i c own s s' = W := by
    unfold PinWatch.after
    rw [comparison_other hother, renews_other hother, phaseOf_other hother,
      moveOn_none (phaseOf_other hother own) hknows]
    rfl
  rw [hsame, hof]
  exact h.later hnow

/-- A call compares its PIN, if there is one to compare it with. -/
theorem within_compared {pin : String} {scope : ElevationScope} {jti : Uuid} {s₁ : PinState}
    (h : Within W (s.of u) s.now)
    (hknows : Knows env u W i (.verify u pin scope jti) [(s₁, s₁.opened u)])
    (hfree : s₁.locked u = false)
    (hapart : keepsApart env u W (.verify u pin scope jti) [(s₁, s₁.opened u)] s = true) :
    Within (W.after env u i (.verify u pin scope jti) [(s₁, s₁.opened u)] s s) (s.of u) s.now := by
  have hbusy : (i, .opened (s₁.ref u)) ∈ W.busy := (hknows _).2 (by simp [phaseOf, hfree])
  cases hhash : s.pinHash u with
  | none =>
    have hafter : W.after env u i (.verify u pin scope jti) [(s₁, s₁.opened u)] s s =
        { W with busy := W.busy.filter fun e => e.1 ≠ i } := by
      simp [PinWatch.after, moveOn, comparison, renews, phaseOf, hhash]
    rw [hafter]
    exact h.giveUp hbusy
  | some hash =>
    have hclear : ∀ e ∈ W.busy, e.2 ≠ .storing :=
      of_decide_eq_true hapart (by simp [comparison, hhash])
    have hcompare := h.compare hbusy hclear (env.argonVerify hash pin)
    have hafter : W.after env u i (.verify u pin scope jti) [(s₁, s₁.opened u)] s s =
        ⟨(i, .compared (s₁.ref u) (env.argonVerify hash pin)) :: W.busy.filter fun e => e.1 ≠ i,
          W.wrong + if env.argonVerify hash pin then 0 else 1,
          W.whileLocked + if s.locked u then 1 else 0⟩ := by
      simp [PinWatch.after, moveOn, comparison, phaseOf, hhash]
    rw [hafter]
    exact hcompare

/-- A step of a call keeps what the watch and the counters of the user say of each other. -/
theorem within_step (h : Within W (s.of u) s.now) (hknows : Knows env u W i c own)
    (htook : PinTook env c ((s, s') :: own)) (hapart : keepsApart env u W c own s = true) :
    Within (W.after env u i c own s s') (s'.of u) s'.now := by
  by_cases hconcerns : c.concerns u
  swap
  · exact within_other h hknows htook hconcerns
  cases htook with
  | @barred userId pin scope jti s hlocked =>
    obtain rfl : userId = u := hconcerns
    have hsame : W.after env userId i (.verify userId pin scope jti) [] s s = W := by
      unfold PinWatch.after
      simp only [comparison, renews, phaseOf, hlocked, Bool.true_eq_false, and_false, if_false]
      rw [moveOn_none rfl hknows]
      rfl
    rwa [hsame]
  | @opened userId pin scope jti s hfree =>
    obtain rfl : userId = u := hconcerns
    have halone : ∀ e ∈ W.busy, e.2 = .storing := by
      simpa [keepsApart, hfree] using hapart
    have hopen := h.open halone hfree i
    have hafter : W.after env userId i (.verify userId pin scope jti) [] s (s.opened userId) =
        { W with busy := (i, .opened (s.ref userId)) :: W.busy.filter fun e => e.1 ≠ i } := by
      simp [PinWatch.after, moveOn, comparison, renews, phaseOf, hfree]
    rw [hafter]
    simpa [PinState.opened, PinState.ref] using hopen
  | @compared userId pin scope jti s₁ s hfree =>
    obtain rfl : userId = u := hconcerns
    exact within_compared h hknows hfree hapart
  | @missed userId pin scope jti s₁ s₂ s hash hfree hhash hwrong =>
    obtain rfl : userId = u := hconcerns
    have hbusy : (i, .compared (s₁.ref userId) false) ∈ W.busy :=
      (hknows _).2 (by simp [phaseOf, hhash, hwrong])
    have hmiss := h.miss hbusy
    have hafter : W.after env userId i (.verify userId pin scope jti)
        [(s₂, s₂), (s₁, s₁.opened userId)] s (s.missed userId (s₁.ref userId)) = { W with
          busy := W.busy.filter fun e => e.1 ≠ i
          wrong := if ((s.of userId).miss (s₁.ref userId) s.now).entry = none ∨
            ((s.of userId).miss (s₁.ref userId) s.now).locked s.now = true then 0 else W.wrong } := by
      simp [PinWatch.after, moveOn, comparison, renews, phaseOf, PinState.missed,
        PinState.locked]
    rw [hafter]
    simpa [PinState.missed] using hmiss
  | @passed userId pin scope jti s₁ s₂ s hash hfree hhash hright =>
    obtain rfl : userId = u := hconcerns
    have hafter : W.after env userId i (.verify userId pin scope jti)
        [(s₂, s₂), (s₁, s₁.opened userId)] s (s.cleared userId) =
          { W with busy := W.busy.filter fun e => e.1 ≠ i, wrong := 0 } := by
      simp [PinWatch.after, moveOn, comparison, renews, phaseOf, PinState.cleared,
        Counters.delete]
    rw [hafter]
    simpa [PinState.cleared] using h.delete i
  | @read userId newPin currentPin currentPassword salt s =>
    obtain rfl : userId = u := hconcerns
    have hright : ∀ right, comparison env userId (.set userId newPin currentPin currentPassword salt)
        [] s = some right → right = true ∧ s.locked userId = false :=
      fun right hsome => of_decide_eq_true hapart right hsome
    have hsame : W.after env userId i (.set userId newPin currentPin currentPassword salt) [] s s =
        W := by
      unfold PinWatch.after
      cases hcompared : comparison env userId (.set userId newPin currentPin currentPassword salt)
          [] s with
      | none =>
        simp only [renews, phaseOf]
        rw [moveOn_none rfl hknows]
        rfl
      | some right =>
        obtain ⟨rfl, hfree⟩ := hright right hcompared
        simp only [phaseOf, hfree, if_true]
        rw [moveOn_none rfl hknows]
        rfl
    rwa [hsame]
  | @stored userId newPin currentPin currentPassword salt s₁ s =>
    obtain rfl : userId = u := hconcerns
    have hafter : W.after env userId i (.set userId newPin currentPin currentPassword salt)
        [(s₁, s₁)] s (s.stored userId (env.argonHash salt newPin)) =
          { W with busy := (i, .storing) :: W.busy.filter fun e => e.1 ≠ i, wrong := 0 } := by
      simp [PinWatch.after, moveOn, comparison, renews, phaseOf]
    rw [hafter]
    simpa using h.store i
  | @cleared userId newPin currentPin currentPassword salt s₁ s₂ s =>
    obtain rfl : userId = u := hconcerns
    have hbusy : (i, .storing) ∈ W.busy := (hknows _).2 (by simp [phaseOf])
    have hzero : W.wrong = 0 := h.storing ⟨_, hbusy, rfl⟩
    have hafter : W.after env userId i (.set userId newPin currentPin currentPassword salt)
        [(s₂, s₂.stored userId (env.argonHash salt newPin)), (s₁, s₁)] s (s.cleared userId) =
          { W with busy := W.busy.filter fun e => e.1 ≠ i, wrong := 0 } := by
      simp [PinWatch.after, moveOn, comparison, renews, phaseOf, hzero]
    rw [hafter]
    simpa [PinState.cleared] using h.delete i
  | waited => exact hconcerns.elim

end Steps

/-- The watch has the calls that are under way. -/
theorem busy_watch (env : Env) (u : Uuid) (tr : List (Step PinState PinCall)) :
    (watch env u tr).busy = underWay (phaseOf env u) tr := by
  induction tr with
  | nil => rfl
  | cons x earlier ih =>
    rw [watch, underWay, ← ih]
    unfold PinWatch.after
    dsimp only
    split <;> rfl

/-- The trace tells where each thread is. -/
theorem knows_watch {env : Env} {u : Uuid} {i : ℕ} {c : PinCall} {tr : List (Step PinState PinCall)}
    (hcalls : ∀ y ∈ tr, y.tid = i → y.call = c) :
    Knows env u (watch env u tr) i c (own i tr) := by
  intro phase
  rw [busy_watch]
  exact mem_underWay (fun c => by cases c <;> rfl) hcalls phase

/-- The runs of calls on PINs. -/
abbrev PinRun (env : Env) := Run (fun _ => pinProgram env) (fun _ => True)

theorem within_start (env : Env) (u : Uuid) {s₀ : PinState} (hstart : s₀.attempts = ∅) :
    Within (watch env u []) (s₀.of u) s₀.now := by
  have hof : s₀.of u = ⟨[], none⟩ := by
    simp [PinState.of, hstart]
  rw [hof]
  refine ⟨rfl, Nat.zero_le _, ?_, ?_, fun _ => rfl, fun _ => ⟨Nat.zero_le _, maxAttempts_pos⟩, ?_, ?_⟩
  · intro ref href
    cases href
  · intro e he
    cases he
  · intro i ref hmem
    cases hmem
  · intro i ref right hmem
    cases hmem

/-- User 1 has the PIN 2580. -/
def samplePins : PinState where
  users := (∅ : Table Uuid PinUser).insert 1
    ⟨sampleEnv.argonHash 0 "secret", some (sampleEnv.argonHash 0 "2580"), false⟩
  attempts := ∅
  now := 0

/-- The run of a schedule of calls on it. -/
def pinsRun (sched : List (Choice PinCall)) :
    List (Step PinState PinCall) × Pool PinState PinError PinAnswer PinCall :=
  exec (fun _ => pinProgram sampleEnv) samplePins sched

/-- A guess of the PIN. -/
def guess (pin : String) : PinCall := .verify 1 pin .transferAuthorize 7

/-- A call, and its steps. -/
def inFull (tid : ℕ) (c : PinCall) : List (Choice PinCall) := [.call c, .step tid, .step tid, .step tid]

/-- Five wrong PINs, a try while the user is locked, and the right PIN after the lock. -/
def lockedOut : List (Choice PinCall) :=
  ((List.range 5).flatMap fun tid => inFull tid (guess "1111")) ++ inFull 5 (guess "2580") ++
    [.call (.wait 900000), .step 6] ++ inFull 7 (guess "2580")

/-- Six wrong PINs at once. -/
def atOnce : List (Choice PinCall) :=
  List.replicate 6 (.call (guess "1111")) ++ (List.range 6).map .step ++ (List.range 6).map .step

/-- The user is locked by five wrong PINs, and asks for a new one with a wrong current PIN. -/
def changedWhileLocked : List (Choice PinCall) :=
  ((List.range 5).flatMap fun tid => inFull tid (guess "1111")) ++
    [.call (.set 1 "9731" (some "2222") none 1), .step 5]

/-- Six times, a new PIN is asked for with a wrong current one. -/
def changedByGuess : List (Choice PinCall) :=
  (List.range 6).flatMap fun tid => [.call (.set 1 "9731" (some "2222") none 1), .step tid]

end BankDemo.Pins
