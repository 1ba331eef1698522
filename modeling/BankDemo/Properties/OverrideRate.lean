import BankDemo.Properties.Overrides

/-!
# The rate of edits

`patch`, `create`, `delete` and `hide` pass a counter of their actor and minute, which they read first
and set afterwards; `clearOverride` does not pass it. So calls that overlap can set the counter to one
number, and more of them pass than the limit says. Where every call finds the counter as it has read
it when it sets it, the counter is the number of calls that passed; and where no `clearOverride` takes
back an amount or shows a hidden row, every edit that matters is counted (`edits_rated`).
-/

namespace BankDemo

open Ledger Transfers Admin

/-! ## Counters -/

/-- A counter, zero as long as it is not set. -/
def World.recent (w : World) (key : Uuid × ℤ) : ℕ := (w.overrideRate.lookup key).getD 0

/-- Set a counter. -/
def World.setRecent (w : World) (key : Uuid × ℤ) (n : ℕ) : World :=
  { w with overrideRate := w.overrideRate.insert key n }

theorem World.recent_setRecent (w : World) (key k : Uuid × ℤ) (n : ℕ) :
    (w.setRecent key n).recent k = if k = key then n else w.recent k := by
  unfold recent setRecent
  rw [Table.lookup_insert_ite]
  split <;> rfl

theorem World.recent_congr {w w' : World} (h : w'.overrideRate = w.overrideRate) (key : Uuid × ℤ) :
    w'.recent key = w.recent key := by
  unfold recent
  rw [h]

/-- The counter that a call passes. -/
def Call.rated : Call → Option (Uuid × ℤ)
  | .patch c _ | .create c _ | .delete c | .hide c => some (rateKey c.actorUserId c.now)
  | _ => none

/-- The step is that with which a call passes the counter: its second one. -/
def PassesRate (key : Uuid × ℤ) (x : Step World Call) (earlier : List (Step World Call)) : Bool :=
  x.call.rated = some key && (own x.tid earlier).length = 1

/-- How many calls have passed the counter. -/
def passed (key : Uuid × ℤ) : List (Step World Call) → ℕ
  | [] => 0
  | x :: earlier => passed key earlier + if PassesRate key x earlier then 1 else 0

/-! ## What matters -/

/-- The override of a transaction hides it. -/
def Db.hides (db : Db) (id : Uuid) : Bool :=
  (db.overrides.lookup id).bind TransactionOverride.overrideStatus == some .hidden

/-- A transaction is there to be seen. -/
def Db.shows (db : Db) (id : Uuid) : Bool := (db.transactions.lookup id).isSome && !db.hides id

/-- A balance has changed, or what there is to be seen. -/
def Matters (w w' : World) : Prop :=
  (∃ a, w'.db.balance a ≠ w.db.balance a) ∨ ∃ id, w'.db.shows id ≠ w.db.shows id

theorem not_matters {w w' : World} (h : w'.db = w.db) : ¬ Matters w w' := by
  rintro (⟨a, ha⟩ | ⟨id, hid⟩)
  · exact ha (by rw [h])
  · exact hid (by rw [h])

/-! ## The condition -/

/-- The removal of an override that a call asks for. -/
def Call.clears : Call → Option EditCall
  | .clearOverride ec => some ec
  | _ => none

/-- A call that sets its counter finds it as it has read it. -/
def Fresh (c : Call) : List (World × World) → Prop
  | [(w, _), (read, _)] => ∀ key ∈ c.rated, w.recent key = read.recent key
  | _ => True

/-- The newest of a thread's steps, if it is the one with which `clearOverride` commits, takes back
no amount and shows no hidden row. -/
def Harmless (c : Call) : List (World × World) → Prop
  | [(w, _), (found, _)] => ∀ ec ∈ c.clears,
    (∀ t ∈ findWithOverride ec.transactionId found.db, overrideDelta t = 0) ∧
      w.db.hides ec.transactionId = false
  | _ => True

instance (c : Call) : (own : List (World × World)) → Decidable (Fresh c own)
  | [(w, _), (read, _)] =>
    inferInstanceAs (Decidable (∀ key ∈ c.rated, w.recent key = read.recent key))
  | [] | [_] | _ :: _ :: _ :: _ => .isTrue trivial

instance (c : Call) : (own : List (World × World)) → Decidable (Harmless c own)
  | [(w, _), (found, _)] => inferInstanceAs (Decidable (∀ ec ∈ c.clears,
    (∀ t ∈ findWithOverride ec.transactionId found.db, overrideDelta t = 0) ∧
      w.db.hides ec.transactionId = false))
  | [] | [_] | _ :: _ :: _ :: _ => .isTrue trivial

/-! ## What the calls do -/

/-- The steps of an edit: a call that is rated reads its counter, sets it and then leaves the counters
alone, and the others leave them alone throughout. -/
inductive RateStep (env : Env) : Call → List (World × World) → Prop
  | reads {c : Call} {w : World} : RateStep env c [(w, w)]
  | sets {c : Call} {key : Uuid × ℤ} {w read : World} (hc : c.rated = some key)
      (hlimit : (read.recent key : ℤ) < env.overrideRateLimit) :
      RateStep env c [(w, w.setRecent key (read.recent key + 1)), (read, read)]
  | edits {c : Call} {key : Uuid × ℤ} {w w' : World} {later : List (World × World)}
      {own : List (World × World)} (hc : c.rated = some key) (hown : own.length = 2)
      (hrate : w'.overrideRate = w.overrideRate) : RateStep env c ((w, w') :: (later ++ own))
  | unrated {c : Call} {w w' : World} {own : List (World × World)} (hc : c.rated = none)
      (hrate : w'.overrideRate = w.overrideRate)
      (hharmless : Harmless c ((w, w') :: own) → ¬ Matters w w') :
      RateStep env c ((w, w') :: own)

/-- Every action leaves the counters alone. -/
def KeepsRate {α : Type} (p : Service α) : Prop := p.Each fun w w' => w'.overrideRate = w.overrideRate

/-- Every action leaves the counters alone, and changes nothing that matters. -/
def Minor {α : Type} (p : Service α) : Prop :=
  p.Each fun w w' => w'.overrideRate = w.overrideRate ∧ ¬ Matters w w'

section Pieces

variable {α β : Type} {env : Env} {i : ℕ} {c : Call} {own : List (World × World)}

theorem OnlyEmits.keepsRate {p : Service α} (hp : OnlyEmits p) : KeepsRate p := by
  refine Prog.Each.imp hp fun w w' h => ?_
  obtain ⟨events, rfl⟩ := h
  rfl

theorem OnlyEmits.minor {p : Service α} (hp : OnlyEmits p) : Minor p := by
  refine Prog.Each.imp hp fun w w' h => ?_
  obtain ⟨events, rfl⟩ := h
  exact ⟨rfl, not_matters rfl⟩

theorem keepsRate_bind {p : Service α} {k : α → Service β} (hp : KeepsRate p)
    (hk : ∀ a, KeepsRate (k a)) : KeepsRate (p >>= k) :=
  Prog.each_bind hp hk

theorem minor_bind {p : Service α} {k : α → Service β} (hp : Minor p) (hk : ∀ a, Minor (k a)) :
    Minor (p >>= k) :=
  Prog.each_bind hp hk

theorem keepsRate_transaction (rows : List Uuid) (body : Tx α) :
    KeepsRate (transaction i rows body) :=
  transaction_each (fun _ => rfl) fun _ _ _ => rfl

/-- Further steps, all of one kind. -/
theorem does_of_each {R : World → World → Prop} {G : List (World × World) → Prop} {p : Service α}
    (hp : p.Each R) (hG : ∀ w w' later, R w w' → G ((w, w') :: (later ++ own))) :
    p.Does G (fun _ _ => True) own := by
  rw [← bind_pure p]
  exact Prog.Each.does_bind hp hG (fun _ _ _ => trivial) fun _ _ => trivial

/-- A call that passes the counter, and what it does then. -/
theorem does_rated {actor : Uuid} {now : Instant} {k : Unit → Service Answer}
    (hc : c.rated = some (rateKey actor now)) (hk : KeepsRate (k ())) :
    (assertRate env actor now >>= k).Does (RateStep env c) (fun _ _ => True) [] := by
  refine Prog.does_bind (Prog.does_bind (Prog.does_read fun read => ⟨.reads, ?_⟩))
  dsimp only
  split
  · exact Prog.does_throw trivial
  · rename_i hlimit
    refine Prog.does_modify fun w _ => ⟨.sets hc (not_le.1 hlimit), ?_⟩
    exact does_of_each hk fun _ _ _ hrate => .edits hc rfl hrate

/-- A call that is not rated and changes nothing that matters. -/
theorem does_minor {p : Service Answer} (hc : c.rated = none) (hp : Minor p) :
    p.Does (RateStep env c) (fun _ _ => True) own :=
  does_of_each hp fun _ _ _ h => .unrated hc h.1 fun _ => h.2

end Pieces

/-! ## The edits -/

section Edits

variable {env : Env} {i : ℕ}

theorem patch_rated (ec : EditCall) (dto : PatchDto) :
    (program env i (.patch ec dto)).Does (RateStep env (.patch ec dto)) (fun _ _ => True) [] := by
  simp only [program, silently, patch, bind_assoc]
  refine does_rated rfl ?_
  refine keepsRate_bind (onlyEmits_readTransaction _ _).keepsRate fun t => ?_
  refine keepsRate_bind (onlyEmits_checkPatch _ _ _).keepsRate fun _ => ?_
  refine keepsRate_bind (keepsRate_transaction _ _) fun _ => ?_
  refine keepsRate_bind (onlyEmits_readTransaction _ _).keepsRate fun fresh => ?_
  refine keepsRate_bind (onlyEmits_emitTxUpdated _ _ _).keepsRate fun _ => ?_
  refine keepsRate_bind (onlyEmits_emitBalanceIf _ _).keepsRate fun _ => ?_
  exact (onlyEmits_pure _).keepsRate

theorem keepsRate_createOn (ec : EditCall) (dto : CreateDto) (account : Account) :
    KeepsRate (createOn i ec dto account) := by
  unfold createOn
  cases dto.amountCents with
  | none => exact (onlyEmits_throw _).keepsRate
  | some amount =>
    dsimp only
    split
    · exact (onlyEmits_throw _).keepsRate
    · refine keepsRate_bind (onlyEmits_checkCreate _ _ _).keepsRate fun _ => ?_
      refine keepsRate_bind (keepsRate_transaction _ _) fun _ => ?_
      refine keepsRate_bind (onlyEmits_emit _).keepsRate fun _ => ?_
      refine keepsRate_bind (onlyEmits_emitBalance _).keepsRate fun _ => ?_
      refine keepsRate_bind (onlyEmits_readTransaction _ _).keepsRate fun _ => ?_
      exact (onlyEmits_pure _).keepsRate

theorem create_rated (ec : EditCall) (dto : CreateDto) :
    (program env i (.create ec dto)).Does (RateStep env (.create ec dto)) (fun _ _ => True) [] := by
  simp only [program, silently, create, bind_assoc]
  refine does_rated rfl ?_
  refine keepsRate_bind (onlyEmits_query _).keepsRate fun account => ?_
  cases account with
  | none => exact keepsRate_bind (onlyEmits_throw _).keepsRate fun _ => (onlyEmits_pure _).keepsRate
  | some account =>
    exact keepsRate_bind (keepsRate_createOn _ _ _) fun _ => (onlyEmits_pure _).keepsRate

theorem delete_rated (ec : EditCall) :
    (program env i (.delete ec)).Does (RateStep env (.delete ec)) (fun _ _ => True) [] := by
  simp only [program, silently, delete, bind_assoc]
  refine does_rated rfl ?_
  refine keepsRate_bind (onlyEmits_readTransaction _ _).keepsRate fun t => ?_
  refine keepsRate_bind (keepsRate_transaction _ _) fun _ => ?_
  refine keepsRate_bind (onlyEmits_emit _).keepsRate fun _ => ?_
  refine keepsRate_bind (onlyEmits_emitBalanceIf _ _).keepsRate fun _ => ?_
  exact (onlyEmits_pure _).keepsRate

theorem hide_rated (ec : EditCall) :
    (program env i (.hide ec)).Does (RateStep env (.hide ec)) (fun _ _ => True) [] := by
  simp only [program, silently, hide, bind_assoc]
  refine does_rated rfl ?_
  refine keepsRate_bind (onlyEmits_readTransaction _ _).keepsRate fun _ => ?_
  refine keepsRate_bind (keepsRate_transaction _ _) fun _ => ?_
  refine keepsRate_bind (onlyEmits_readTransaction _ _).keepsRate fun fresh => ?_
  refine keepsRate_bind (onlyEmits_emitTxUpdated _ _ _).keepsRate fun _ => ?_
  exact (onlyEmits_pure _).keepsRate

/-- What a removal of an override changes that matters: the amount, and whether the row is hidden. -/
theorem clearTx_minor {ec : EditCall} {t : TransactionWithOverride} {w : World} {r : Unit × Db}
    (h : clearTx ec t w.db = .ok r) (hdelta : overrideDelta t = 0)
    (hshown : w.db.hides ec.transactionId = false) : ¬ Matters w { w with db := r.2 } := by
  obtain ⟨hT, hO⟩ := clearTx_feed h
  rintro (⟨a, ha⟩ | ⟨id, hid⟩)
  · refine ha ?_
    rw [(clearTx_ok h).balance, hdelta]
    simp
  · refine hid ?_
    have hhides : r.2.hides id = w.db.hides id := by
      by_cases heq : id = ec.transactionId
      · subst heq
        rw [hshown]
        simp [Db.hides, hO]
      · unfold Db.hides
        rw [hO, AList.lookup_erase_ne heq]
    simp only [Db.shows, hT, hhides]

/-- An upsert that leaves the status of the override alone. -/
theorem upsertOverride_minor {id : Uuid} {set : TransactionOverride → TransactionOverride}
    {o : TransactionOverride} {w : World} {r : Unit × Db}
    (h : Tx.upsertOverride id set o w.db = .ok r)
    (hset : ∀ o, (set o).overrideStatus = o.overrideStatus) (ho : o.overrideStatus = none) :
    ¬ Matters w { w with db := r.2 } := by
  have hrow := Tx.upsertOverride_row h
  rintro (⟨a, ha⟩ | ⟨x, hx⟩)
  · refine ha ?_
    simp [Db.balance, hrow]
  · refine hx ?_
    have hhides : r.2.hides x = w.db.hides x := by
      unfold Db.hides
      rw [hrow]
      dsimp only
      rw [Table.lookup_insert_ite]
      split
      · rename_i heq
        subst heq
        cases w.db.overrides.lookup x with
        | none => simp [ho]
        | some o' => simp [hset]
      · rfl
    have hT : r.2.transactions = w.db.transactions := by rw [hrow]
    simp only [Db.shows, hT, hhides]

theorem clearOverride_unrated (ec : EditCall) :
    (program env i (.clearOverride ec)).Does (RateStep env (.clearOverride ec))
      (fun _ _ => True) [] := by
  simp only [program, silently, clearOverride, readTransaction, bind_assoc]
  refine Prog.does_bind (Prog.does_read fun found => ⟨.reads, ?_⟩)
  dsimp only
  cases ht : findWithOverride ec.transactionId found.db with
  | none => exact Prog.does_throw trivial
  | some t =>
    simp only [pure_bind]
    split
    · exact Prog.does_throw trivial
    · simp only [clearRead, bind_assoc]
      refine Prog.does_bind (transaction_does (fun w r hr => ?_) fun w e => ?_)
      · have hstep : Harmless (.clearOverride ec) [(w, { w with db := r.2 }), (found, found)] →
            ¬ Matters w { w with db := r.2 } := by
          intro h
          obtain ⟨hdelta, hshown⟩ := h ec rfl
          exact clearTx_minor hr (hdelta t ht) hshown
        refine ⟨.unrated rfl rfl hstep, does_minor rfl ?_⟩
        refine minor_bind (onlyEmits_readTransaction _ _).minor fun fresh => ?_
        refine minor_bind (onlyEmits_emitTxUpdated _ _ _).minor fun _ => ?_
        refine minor_bind (onlyEmits_emitBalanceIf _ _).minor fun _ => ?_
        exact (onlyEmits_pure _).minor
      · exact ⟨.unrated rfl rfl fun _ => not_matters rfl, trivial⟩

theorem minor_shiftOne (ec : EditCall) (days : ℤ) (id : Uuid) : Minor (shiftOne i ec days id) := by
  refine minor_bind (onlyEmits_query _).minor fun row => ?_
  cases row with
  | none => exact (onlyEmits_pure _).minor
  | some t =>
    refine minor_bind (transaction_each (fun _ => ⟨rfl, not_matters rfl⟩) fun w r hr => ?_) fun _ => ?_
    · exact ⟨rfl, upsertOverride_minor hr (fun _ => rfl) rfl⟩
    · refine minor_bind (onlyEmits_readTransaction _ _).minor fun fresh => ?_
      refine minor_bind (onlyEmits_emitTxUpdated _ _ _).minor fun _ => ?_
      exact (onlyEmits_pure _).minor

theorem minor_shiftAll (ec : EditCall) (days : ℤ) (ids : List Uuid) :
    Minor (shiftAll i ec days ids) := by
  induction ids with
  | nil => exact (onlyEmits_pure _).minor
  | cons id ids ih =>
    exact minor_bind (minor_shiftOne _ _ _) fun n => minor_bind ih fun m => (onlyEmits_pure _).minor

theorem bulkShift_unrated (superadmin : Bool) (ec : EditCall) (ids : List Uuid) (days : ℤ) :
    (program env i (.bulkShift superadmin ec ids days)).Does
      (RateStep env (.bulkShift superadmin ec ids days)) (fun _ _ => True) [] := by
  refine does_minor rfl (minor_bind ?_ fun _ => (onlyEmits_pure _).minor)
  unfold bulkShift
  split
  · exact (onlyEmits_throw _).minor
  · split
    · exact (onlyEmits_throw _).minor
    · exact minor_shiftAll _ _ _

theorem edit_does {c : Call} (hc : c.isEdit = true) :
    (program env i c).Does (RateStep env c) (fun _ _ => True) [] := by
  cases c with
  | patch ec dto => exact patch_rated ec dto
  | create ec dto => exact create_rated ec dto
  | delete ec => exact delete_rated ec
  | hide ec => exact hide_rated ec
  | clearOverride ec => exact clearOverride_unrated ec
  | bulkShift superadmin ec ids days => exact bulkShift_unrated superadmin ec ids days
  | _ => cases hc

end Edits

/-! ## Runs -/

/-- A counter stands at what it was at the start and the calls that have passed it since, and within
the limit. -/
structure Tallied (env : Env) (key : Uuid × ℤ) (w₀ : World) (tr : List (Step World Call)) (w : World) :
    Prop where
  recent : w.recent key = w₀.recent key + passed key tr
  limit : passed key tr ≠ 0 → (w.recent key : ℤ) ≤ env.overrideRateLimit

section Runs

variable {env : Env} {w₀ : World} {tr : List (Step World Call)} {P : Pool World Error Answer Call}
  {key : Uuid × ℤ}

/-- A step with which no call passes the counter leaves it as it is. -/
theorem Tallied.idle {x : Step World Call} (h : Tallied env key w₀ tr x.pre)
    (hpasses : PassesRate key x tr = false) (hrecent : x.post.recent key = x.pre.recent key) :
    Tallied env key w₀ (x :: tr) x.post := by
  have hpassed : passed key (x :: tr) = passed key tr := by simp [passed, hpasses]
  refine ⟨?_, ?_⟩
  · rw [hpassed, hrecent]
    exact h.recent
  · rw [hpassed, hrecent]
    exact h.limit

/-- What one step of an edit does to the tally. -/
theorem Tallied.step {x : Step World Call} (h : Tallied env key w₀ tr x.pre)
    (hstep : RateStep env x.call ((x.pre, x.post) :: own x.tid tr))
    (hfresh : Fresh x.call ((x.pre, x.post) :: own x.tid tr)) :
    Tallied env key w₀ (x :: tr) x.post := by
  have hpasses : PassesRate key x tr = true ↔
      x.call.rated = some key ∧ (own x.tid tr).length = 1 := by
    simp [PassesRate]
  have hidle : ¬ (x.call.rated = some key ∧ (own x.tid tr).length = 1) →
      x.post.recent key = x.pre.recent key → Tallied env key w₀ (x :: tr) x.post :=
    fun hnot => h.idle (Bool.eq_false_iff.2 fun hp => hnot (hpasses.1 hp))
  obtain ⟨i, c, w, w'⟩ := x
  dsimp only at *
  generalize own i tr = before at *
  cases hstep with
  | reads => exact hidle (by simp) rfl
  | @sets k _ read hc hlimit =>
    by_cases hk : k = key
    · subst hk
      -- the call finds the counter as it has read it, so it is one call further
      have hsame : w.recent k = read.recent k := hfresh k hc
      have hpassed : passed k (⟨i, c, w, w.setRecent k (read.recent k + 1)⟩ :: tr) =
          passed k tr + 1 := by
        rw [passed, if_pos (hpasses.2 ⟨hc, rfl⟩)]
      have hrecent := h.recent
      refine ⟨?_, fun _ => ?_⟩
      · rw [World.recent_setRecent, if_pos rfl, hpassed]
        omega
      · rw [World.recent_setRecent, if_pos rfl]
        omega
    · refine hidle (fun hp => hk (Option.some.inj (hc.symm.trans hp.1))) ?_
      rw [World.recent_setRecent, if_neg (Ne.symm hk)]
  | edits hc hown hrate =>
    refine hidle (fun hp => ?_) (World.recent_congr hrate key)
    have hlength := hp.2
    rw [List.length_append] at hlength
    omega
  | unrated hc hrate hharmless =>
    refine hidle (fun hp => ?_) (World.recent_congr hrate key)
    rw [hc] at hp
    cases hp.1

/-- A change that matters is of a call that has passed its counter. -/
theorem RateStep.counted {c : Call} {w w' : World} {before : List (World × World)}
    (h : RateStep env c ((w, w') :: before)) (hharmless : Harmless c ((w, w') :: before))
    (hmatters : Matters w w') :
    ∃ key later own, c.rated = some key ∧ before = later ++ own ∧ own.length = 2 := by
  cases h with
  | reads => exact absurd hmatters (not_matters rfl)
  | sets hc hlimit => exact absurd hmatters (not_matters rfl)
  | edits hc hown hrate => exact ⟨_, _, _, hc, rfl, hown⟩
  | unrated hc hrate hminor => exact absurd hmatters (hminor hharmless)

/-- The second step of a call that is rated raises its counter by one. -/
theorem RateStep.raises {c : Call} {w w' : World} {y : World × World}
    (h : RateStep env c [(w, w'), y]) (hc : c.rated = some key) (hfresh : Fresh c [(w, w'), y]) :
    w'.recent key = w.recent key + 1 := by
  generalize hown : [y] = before at h
  cases h with
  | reads => cases hown
  | @sets k _ read hk hlimit =>
    obtain ⟨rfl, -⟩ := List.cons.inj hown
    obtain rfl := Option.some.inj (hc.symm.trans hk)
    rw [World.recent_setRecent, if_pos rfl, hfresh key hc]
  | edits hk hlength hrate =>
    have hone := congrArg List.length hown
    rw [List.length_append, List.length_singleton] at hone
    omega
  | unrated hk hrate hminor =>
    rw [hc] at hk
    cases hk

/-- **Edits are rated.** In every interleaving of the edits of any admins, in which every call finds
its counter as it has read it when it sets it: no more calls of an admin in a minute pass than the
limit says, and the counter is the number of those that passed. If further no `clearOverride` takes
back an amount or shows a hidden row, every change of a balance or of what there is to be seen is by
a call that has raised its counter by one. -/
theorem edits_rated (env : Env) (w₀ : World) (tr : List (Step World Call))
    (P : Pool World Error Answer Call)
    (hrun : Run (program env) (fun c => c.isEdit = true) w₀ tr P)
    (hfresh : ∀ later x earlier, tr = later ++ x :: earlier →
      Fresh x.call ((x.pre, x.post) :: own x.tid earlier)) :
    (∀ key, passed key tr ≤ env.overrideRateLimit.toNat ∧
      P.state.recent key = w₀.recent key + passed key tr) ∧
    ((∀ later x earlier, tr = later ++ x :: earlier →
        Harmless x.call ((x.pre, x.post) :: own x.tid earlier)) →
      ∀ later x earlier, tr = later ++ x :: earlier → Matters x.pre x.post →
        ∃ key, x.call.rated = some key ∧ ∃ y ∈ earlier, y.tid = x.tid ∧
          y.post.recent key = y.pre.recent key + 1) := by
  obtain ⟨hsteps, -⟩ := hrun.does (G := fun _ => RateStep env) fun i c hc => edit_does hc
  refine ⟨fun key => ?_, fun hharmless later x earlier hsplit hmatters => ?_⟩
  · have htallied : Tallied env key w₀ tr P.state := by
      refine hrun.induct (I := Tallied env key w₀) ⟨rfl, fun h => absurd rfl h⟩ ?_
      exact fun later x earlier hsplit h =>
        h.step (hsteps later x earlier hsplit) (hfresh later x earlier hsplit)
    refine ⟨?_, htallied.recent⟩
    have hrecent := htallied.recent
    have hlimit := htallied.limit
    omega
  · obtain ⟨key, after, before, hc, hown, hlength⟩ :=
      (hsteps later x earlier hsplit).counted (hharmless later x earlier hsplit) hmatters
    refine ⟨key, hc, ?_⟩
    obtain ⟨y₂, y₁, rfl⟩ := List.length_eq_two.1 hlength
    -- the thread's second step, which set the counter
    obtain ⟨late, y, rest, hearlier, htid, hy, -, hrest⟩ := own_eq_append hown
    have hsplit' : tr = (later ++ x :: late) ++ y :: rest := by
      rw [hsplit, hearlier]
      simp
    have hcall : y.call = x.call :=
      hrun.call_eq (by rw [hsplit']; simp) (by rw [hsplit]; simp) htid
    have hstep := hsteps _ y rest hsplit'
    have hfresh' := hfresh _ y rest hsplit'
    rw [htid, hrest, hcall] at hstep hfresh'
    exact ⟨y, by rw [hearlier]; simp, htid, hstep.raises hc hfresh'⟩

end Runs

/-! ## Two at a time -/

/-- A schedule in which two calls take turns. -/
def byTurns (c₀ c₁ : Call) : List (Choice Call) :=
  .call c₀ :: .call c₁ :: (List.replicate 9 [Choice.step 0, Choice.step 1]).flatten

theorem byTurns_run (env : Env) (c₀ c₁ : Call) (h₀ : c₀.isEdit = true) (h₁ : c₁.isEdit = true) :
    Run (program env) (fun c => c.isEdit = true) sampleWorld
      (exec (program env) sampleWorld (byTurns c₀ c₁)).1
      (exec (program env) sampleWorld (byTurns c₀ c₁)).2 := by
  refine exec_run _ fun c hc => ?_
  simp only [byTurns, List.mem_cons, Choice.call.injEq] at hc
  rcases hc with rfl | rfl | hc
  · exact h₀
  · exact h₁
  · simp at hc

/-- The purchase, as an admin makes it. -/
def samplePurchaseBy (actor id : Uuid) : Call := .create ⟨actor, id, "missing", 0⟩ samplePurchase

/-- All steps of a run meet both conditions. -/
def rateSteps (tr : List (Step World Call)) : Prop :=
  EachStep (fun _ x earlier => Fresh x.call ((x.pre, x.post) :: own x.tid earlier) ∧
    Harmless x.call ((x.pre, x.post) :: own x.tid earlier)) [] tr

instance (tr : List (Step World Call)) : Decidable (rateSteps tr) :=
  inferInstanceAs (Decidable (EachStep _ _ _))

/-- Two admins make a purchase each, by turns. -/
def sampleTurns : List (Step World Call) × Pool World Error Answer Call :=
  exec (program sampleEnv) sampleWorld (byTurns (samplePurchaseBy 8 50) (samplePurchaseBy 9 51))

theorem edits_rated_by_turns :
    sampleTurns.2.state.recent (9, 0) = 1 ∧ passed (9, 0) sampleTurns.1 ≤ 60 ∧
    ∀ x ∈ sampleTurns.1, Matters x.pre x.post → x.call.rated.isSome := by
  have hsteps : rateSteps sampleTurns.1 := by decide +kernel
  obtain ⟨hcounter, hedits⟩ := edits_rated sampleEnv sampleWorld _ _ (byTurns_run _ _ _ rfl rfl)
    fun later x earlier hsplit => (EachStep.split (hsplit ▸ hsteps)).1
  refine ⟨by decide +kernel, (hcounter (9, 0)).1, fun x hx hmatters => ?_⟩
  obtain ⟨later, earlier, hsplit⟩ := List.append_of_mem hx
  obtain ⟨key, hkey, -⟩ := hedits
    (fun later x earlier hsplit => (EachStep.split (hsplit ▸ hsteps)).2) later x earlier hsplit hmatters
  rw [hkey]
  rfl

/-- A purchase is hidden, and its override cleared. -/
def sampleHidden : List Call :=
  [samplePurchaseBy 9 50, .hide sampleEdit, .clearOverride sampleEdit]

/-- Under a limit of one, an admin makes two purchases by turns; and one that is hidden is shown again
by a `clearOverride`, which passes no counter. -/
theorem edits_unrated :
    (¬ ∀ (env : Env) (w₀ : World) (tr : List (Step World Call)) (P : Pool World Error Answer Call),
      Run (program env) (fun c => c.isEdit = true) w₀ tr P →
      ∀ key, passed key tr ≤ env.overrideRateLimit.toNat) ∧
    ¬ ∀ (env : Env) (w₀ : World) (tr : List (Step World Call)) (P : Pool World Error Answer Call),
      Run (program env) (fun c => c.isEdit = true) w₀ tr P →
      ∀ later x earlier, tr = later ++ x :: earlier → Matters x.pre x.post →
        ∃ key, x.call.rated = some key ∧ ∃ y ∈ earlier, y.tid = x.tid ∧
          y.post.recent key = y.pre.recent key + 1 := by
  refine ⟨fun h => ?_, fun h => ?_⟩
  · have hpassed := h { sampleEnv with overrideRateLimit := 1 } sampleWorld _ _
      (byTurns_run _ (samplePurchaseBy 9 50) (samplePurchaseBy 9 51) rfl rfl) (9, 0)
    revert hpassed
    decide +kernel
  · have hrun : Run (program sampleEnv) (fun c => c.isEdit = true) sampleWorld
        (exec (program sampleEnv) sampleWorld (oneByOne sampleHidden)).1
        (exec (program sampleEnv) sampleWorld (oneByOne sampleHidden)).2 := by
      refine exec_run _ fun c hc => ?_
      have hmem := mem_oneByOne hc
      simp only [sampleHidden, List.mem_cons, List.not_mem_nil, or_false] at hmem
      rcases hmem with rfl | rfl | rfl <;> rfl
    have hshown : ∃ x ∈ (exec (program sampleEnv) sampleWorld (oneByOne sampleHidden)).1,
        x.call.rated = none ∧ x.post.db.shows 50 ≠ x.pre.db.shows 50 := by decide +kernel
    obtain ⟨x, hx, hnone, hchanged⟩ := hshown
    obtain ⟨later, earlier, hsplit⟩ := List.append_of_mem hx
    obtain ⟨key, hkey, -⟩ := h _ _ _ _ hrun later x earlier hsplit (.inr ⟨50, hchanged⟩)
    rw [hnone] at hkey
    cases hkey

end BankDemo
