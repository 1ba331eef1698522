import BankDemo.Foundations.Periods
import BankDemo.Statements.Service
import BankDemo.System.Calls

/-!
# Statements balance

What the three ways of making a statement give the renderer: opening, rows, totals and closing
(`StatementVars.figures`). Each statement adds up, and statements of periods that follow one another
fit together. A stored statement is rendered again as it was made.

A statement of a chosen period is the same as well, as long as the last day is not in the years 0 to
99: `Date.UTC` takes such a year for one of the twentieth century, so that the period goes on for
1900 years (`statementsBalance_iff`).
-/

namespace BankDemo.Statements

open JsDate

/-! ## What a statement shows -/

/-- Opening, rows, totals and closing. -/
structure Figures where
  openingBalanceCents : ℤ
  transactions : List StatementRow
  totalInCents : ℤ
  totalOutCents : ℤ
  closingBalanceCents : ℤ

def StatementVars.figures (v : StatementVars) : Figures where
  openingBalanceCents := v.openingBalanceCents
  transactions := v.transactions
  totalInCents := v.totalInCents
  totalOutCents := v.totalOutCents
  closingBalanceCents := v.closingBalanceCents

/-- The totals lead from the opening to the closing, and so do the rows. -/
structure StatementVars.Balanced (v : StatementVars) : Prop where
  closing : v.openingBalanceCents + v.totalInCents - v.totalOutCents = v.closingBalanceCents
  running : ∀ i row, v.transactions[i]? = some row → row.runningBalanceCents =
    v.openingBalanceCents + ((v.transactions.take (i + 1)).map StatementRow.amountCents).sum

/-- The figures of a period, from what is posted to the account. -/
def periodFigures (db : Db) (accountId : Uuid) (periodStart periodEnd : Instant) : Figures :=
  let s := tally (balanceAt db accountId periodStart)
    (findPosted db accountId periodStart periodEnd)
  { openingBalanceCents := balanceAt db accountId periodStart
    transactions := s.rows
    totalInCents := s.totalIn
    totalOutCents := s.totalOut
    closingBalanceCents := s.running }

/-! ## Adding up -/

def amounts (transactions : List (Uuid × Transaction)) : List ℤ :=
  transactions.map fun t => t.2.amountCents

/-- The rows with the balances in sequence. -/
def rowsFrom (opening : ℤ) (transactions : List (Uuid × Transaction)) : List StatementRow :=
  List.zipWith (fun t balance => ⟨t.2.occurredAt, t.2.description, t.2.amountCents, balance⟩)
    transactions (Periods.balances opening (amounts transactions))

theorem foldl_add (s : Tally) (ts : List (Uuid × Transaction)) :
    ts.foldl (fun s t => s.add t.2) s =
      { running := s.running + (amounts ts).sum
        totalIn := s.totalIn + ((amounts ts).filter fun x => 0 < x).sum
        totalOut := s.totalOut + (((amounts ts).filter fun x => !decide (0 < x)).map Neg.neg).sum
        rows := s.rows ++ rowsFrom s.running ts } := by
  induction ts generalizing s with
  | nil => simp [amounts, rowsFrom, Periods.balances]
  | cons t ts ih =>
    rw [List.foldl_cons, ih]
    by_cases hin : 0 < t.2.amountCents
    · simp [Tally.add, amounts, rowsFrom, Periods.balances, hin, add_assoc]
    · simp [Tally.add, amounts, rowsFrom, Periods.balances, hin, add_assoc]

theorem tally_eq (opening : ℤ) (ts : List (Uuid × Transaction)) : tally opening ts =
    { running := opening + (amounts ts).sum
      totalIn := ((amounts ts).filter fun x => 0 < x).sum
      totalOut := (((amounts ts).filter fun x => !decide (0 < x)).map Neg.neg).sum
      rows := rowsFrom opening ts } := by
  simp [tally, foldl_add]

theorem rowsFrom_amounts (opening : ℤ) (ts : List (Uuid × Transaction)) :
    (rowsFrom opening ts).map StatementRow.amountCents = amounts ts := by
  induction ts generalizing opening with
  | nil => rfl
  | cons t ts ih =>
    have hrest := ih (opening + t.2.amountCents)
    simp only [rowsFrom, amounts] at hrest ⊢
    simp [Periods.balances, hrest]

/-- **Statements add up.** -/
theorem statementVars_balanced (account : AccountWithUser) (s e : Instant) (opening : ℤ)
    (ts : List (Uuid × Transaction)) : (statementVars account s e opening ts).Balanced where
  closing := by
    have hsum := Periods.sum_filter_sub (fun x : ℤ => decide (0 < x)) (amounts ts)
    simp only [statementVars, tally_eq]
    omega
  running := by
    intro i row hrow
    simp only [statementVars, tally_eq] at hrow ⊢
    rw [List.map_take, rowsFrom_amounts]
    rw [rowsFrom, List.getElem?_zipWith_eq_some] at hrow
    obtain ⟨t, balance, -, hbalance, rfl⟩ := hrow
    exact Periods.balances_getElem? hbalance

/-! ## Periods -/

/-- What is posted to an account. -/
def posted (db : Db) (accountId : Uuid) : List (Uuid × Transaction) :=
  (db.transactions.entries.filter fun e => postedOf accountId e.2).map fun e => (e.1, e.2)

theorem balanceAt_eq (db : Db) (accountId : Uuid) (t : Instant) : balanceAt db accountId t =
    Periods.upTo (fun e => e.2.occurredAt) (fun e => e.2.amountCents) (posted db accountId) t := by
  simp only [balanceAt, Periods.upTo, posted, List.filter_map, List.filter_filter, List.map_map]
  congr 2
  apply List.filter_congr
  intro e _
  simp [Bool.and_comm]

/-- What is posted to an account in a period. -/
abbrev postedDuring (db : Db) (accountId : Uuid) (s e : Instant) : List (Uuid × Transaction) :=
  Periods.during (fun e => e.2.occurredAt) (posted db accountId) s e

theorem findPosted_eq (db : Db) (accountId : Uuid) (s e : Instant) :
    findPosted db accountId s e = (postedDuring db accountId s e).insertionSort earlier := by
  simp only [findPosted, Periods.during, posted, List.filter_map, List.filter_filter]
  congr 2
  apply List.filter_congr
  intro e _
  simp [Bool.and_comm]

/-- **Periods fit together**: a statement closes with what is posted before its end. -/
theorem closing_eq (db : Db) (accountId : Uuid) {s e : Instant} (h : s ≤ e) :
    (periodFigures db accountId s e).closingBalanceCents = balanceAt db accountId e := by
  have hfit : Periods.upTo (fun t => t.2.occurredAt) (fun t => t.2.amountCents)
      (posted db accountId) s + ((postedDuring db accountId s e).map fun t => t.2.amountCents).sum =
      Periods.upTo (fun t => t.2.occurredAt) (fun t => t.2.amountCents) (posted db accountId) e :=
    Periods.upTo_add_during (posted db accountId) h
  have hsum := ((List.perm_insertionSort earlier (postedDuring db accountId s e)).map
    fun t => t.2.amountCents).sum_eq
  simp only [periodFigures, tally_eq, amounts, findPosted_eq]
  rw [balanceAt_eq, balanceAt_eq, hsum, hfit]

theorem length_transactions (db : Db) (accountId : Uuid) (s e : Instant) :
    (periodFigures db accountId s e).transactions.length =
      (postedDuring db accountId s e).length := by
  have hlength := congrArg List.length (rowsFrom_amounts (balanceAt db accountId s)
    (findPosted db accountId s e))
  simp only [periodFigures, tally_eq]
  simpa [amounts, findPosted_eq] using hlength

/-- When periods that begin together show the same. -/
theorem periodFigures_eq_iff (db : Db) (accountId : Uuid) {s t u : Instant} (hst : s ≤ t)
    (htu : t ≤ u) : periodFigures db accountId s u = periodFigures db accountId s t ↔
      postedDuring db accountId t u = [] := by
  constructor
  · intro h
    have hlength := congrArg (fun f => f.transactions.length) h
    simp only [length_transactions] at hlength
    exact (Periods.during_eq_iff _ hst htu).1 hlength
  · intro h
    have hsame := Periods.during_of_empty (s := s) (posted db accountId) htu h
    simp only [periodFigures, findPosted_eq, postedDuring, hsame]

/-! ## What the renderer is given -/

/-- What a call gives the renderer. -/
def given {α : Type} (p : Call α) (w : State) : List StatementVars :=
  (p.run w).2.rendered.drop w.rendered.length

/-- The renderer was given `l` on the way from `w` to `w'`, and the bank is as it was. -/
structure Gave (w : State) (l : List StatementVars) (w' : State) : Prop where
  rendered : w'.rendered = w.rendered ++ l
  db : w'.db = w.db
  accountNumbers : w'.accountNumbers = w.accountNumbers

theorem Gave.refl (w : State) : Gave w [] w := ⟨by simp, rfl, rfl⟩

theorem Gave.trans {w w₁ w₂ : State} {l₁ l₂ : List StatementVars} (h₁ : Gave w l₁ w₁)
    (h₂ : Gave w₁ l₂ w₂) : Gave w (l₁ ++ l₂) w₂ where
  rendered := by rw [h₂.rendered, h₁.rendered, List.append_assoc]
  db := h₂.db.trans h₁.db
  accountNumbers := h₂.accountNumbers.trans h₁.accountNumbers

/-- The call gives the renderer `l`. -/
def Gives {α : Type} (p : Call α) (w : State) (l : List StatementVars) : Prop :=
  Gave w l (p.run w).2

section Gives

variable {α β : Type} {p : Call α} {k : α → Call β} {w : State} {l l' : List StatementVars}

theorem Gives.given_eq (h : Gives p w l) : given p w = l := by
  rw [given, h.rendered, List.drop_left]

theorem gives_pure (a : α) : Gives (pure a) w [] := Gave.refl w

theorem gives_throw (e : Error) : Gives (throw e : Call α) w [] := Gave.refl w

theorem gives_read {γ : Type} {f : State → γ} {k : γ → Call β} (h : Gives (k (f w)) w l) :
    Gives (Prog.read f >>= k) w l := h

/-- What follows gives the renderer nothing. -/
theorem Gives.then_nothing (hp : Gives p w l) (hk : ∀ a w', Gives (k a) w' []) :
    Gives (p >>= k) w l := by
  unfold Gives at *
  rw [Prog.run_bind]
  cases hrun : p.run w with
  | mk r w' =>
    rw [hrun] at hp
    cases r with
    | error e => exact hp
    | ok a =>
      have h := hp.trans (hk a w')
      rwa [List.append_nil] at h

/-- A call that does not fail, and what follows. -/
theorem Gives.then (hp : Gives p w l) (hok : ∀ e, (p.run w).1 ≠ .error e)
    (hk : ∀ a, Gives (k a) (p.run w).2 l') : Gives (p >>= k) w (l ++ l') := by
  unfold Gives at hp hk ⊢
  rw [Prog.run_bind]
  cases hrun : p.run w with
  | mk r w' =>
    rw [hrun] at hp hok hk
    cases r with
    | error e => exact absurd rfl (hok e)
    | ok a => exact hp.trans (hk a)

theorem Gives.tryCatch {handler : Error → Call α} (hp : Gives p w l)
    (hk : ∀ e w', Gives (handler e) w' []) : Gives (tryCatch p handler) w l := by
  unfold Gives at *
  rw [Prog.run_tryCatch]
  cases hrun : p.run w with
  | mk r w' =>
    rw [hrun] at hp
    cases r with
    | ok a => exact hp
    | error e =>
      have h := hp.trans (hk e w')
      rwa [List.append_nil] at h

/-- An action on the other parts of the state. -/
theorem gives_attempt {body : State → Except Error (α × State)}
    (h : ∀ r, body w = .ok r → Gave w [] r.2) : Gives (Prog.attempt (fun _ => true) body) w [] := by
  unfold Gives
  rw [Prog.run_attempt]
  cases hbody : body w with
  | error e => exact Gave.refl w
  | ok r => exact h r hbody

end Gives

theorem render_gives (env : Env) (vars : StatementVars) (w : State) :
    Gives (render env vars) w [vars] := by
  have hrun : (render env vars).run w =
      (env.render vars, { w with rendered := w.rendered ++ [vars] }) := by
    rw [render, Prog.run_bind, Prog.run_modify]
    cases env.render vars <;> rfl
  rw [Gives, hrun]
  exact ⟨rfl, rfl, rfl⟩

theorem putFile_gives (env : Env) (key : String) (body : Pdf) (w : State) :
    Gives (putFile env key body) w [] := by
  apply gives_attempt
  intro r hr
  cases hput : env.put key body with
  | error e => simp [hput, Except.map] at hr
  | ok a =>
    simp only [hput, Except.map, Except.ok.injEq] at hr
    subst hr
    exact ⟨by simp, rfl, rfl⟩

theorem createStatement_gives (id : Uuid) (row : Statement) (w : State) :
    Gives (createStatement id row) w [] := by
  apply gives_attempt
  intro r hr
  split at hr
  · cases hr
  · cases hr
    exact ⟨by simp, rfl, rfl⟩

theorem updateSize_gives (id : Uuid) (sizeBytes : ℕ) (w : State) :
    Gives (updateSize id sizeBytes) w [] := by
  apply gives_attempt
  intro r hr
  split at hr
  · cases hr
  · cases hr
    exact ⟨by simp, rfl, rfl⟩

/-! ## The three functions -/

variable (env : Env)

/-- A statement is made once. -/
theorem generateOne_gives {w : State} {id accountId : Uuid} {s e : Instant}
    (hnew : findStatement w accountId s = none) {account : AccountWithUser}
    (hfound : findAccount w accountId = some account) :
    Gives (generateOne env id accountId s e) w [statementVars account s (e - 1)
      (balanceAt w.db accountId s) (findPosted w.db accountId s e)] := by
  apply gives_read
  rw [hnew]
  apply gives_read
  rw [hfound]
  apply gives_read
  apply gives_read
  refine (render_gives env _ w).then_nothing fun pdf w' => ?_
  refine (putFile_gives env _ pdf w').then_nothing fun _ w' => ?_
  exact createStatement_gives id _ w'

theorem generateOne_gives_nothing {w : State} {id accountId : Uuid} {s e : Instant}
    (h : (findStatement w accountId s).isSome ∨ findAccount w accountId = none) :
    Gives (generateOne env id accountId s e) w [] := by
  apply gives_read
  cases hold : findStatement w accountId s with
  | some row => exact gives_pure row
  | none =>
    have hmissing : findAccount w accountId = none := by simpa [hold] using h
    apply gives_read
    rw [hmissing]
    exact gives_throw _

/-- What the monthly run gives the renderer for an account. -/
def monthlyVars (w : State) (periodStart periodEnd : Instant) (accountId : Uuid) :
    List StatementVars :=
  if (findStatement w accountId periodStart).isSome then []
  else (findAccount w accountId).toList.map fun account =>
    statementVars account periodStart (periodEnd - 1) (balanceAt w.db accountId periodStart)
      (findPosted w.db accountId periodStart periodEnd)

theorem generateOne_monthly (w : State) (id accountId : Uuid) (s e : Instant) :
    Gives (generateOne env id accountId s e) w (monthlyVars w s e accountId) := by
  cases hold : findStatement w accountId s with
  | some row =>
    rw [monthlyVars, hold]
    exact generateOne_gives_nothing env (.inl (by simp [hold]))
  | none =>
    cases hfound : findAccount w accountId with
    | none =>
      rw [monthlyVars, hold, hfound]
      exact generateOne_gives_nothing env (.inr hfound)
    | some account =>
      rw [monthlyVars, hold, hfound]
      exact generateOne_gives env hold hfound

/-- The statements of other accounts are found as before. -/
def Leaves (accountId : Uuid) (w w' : State) : Prop :=
  ∀ other s, other ≠ accountId → findStatement w' other s = findStatement w other s

theorem Leaves.refl (accountId : Uuid) (w : State) : Leaves accountId w w := fun _ _ _ => rfl

theorem Leaves.trans {accountId : Uuid} {w w₁ w₂ : State} (h₁ : Leaves accountId w w₁)
    (h₂ : Leaves accountId w₁ w₂) : Leaves accountId w w₂ :=
  fun other s hother => (h₂ other s hother).trans (h₁ other s hother)

theorem createStatement_leaves (id : Uuid) (row : Statement) :
    (createStatement id row).Each (Leaves row.accountId) := by
  refine Prog.each_attempt (Leaves.refl _) fun w r hr other s hother => ?_
  split at hr
  · cases hr
  · rename_i hfree
    cases hr
    push Not at hfree
    apply Table.findRow_insert (by simpa using hfree.1)
    simp [hother.symm]

theorem generateOne_leaves (id accountId : Uuid) (s e : Instant) :
    (generateOne env id accountId s e).Each (Leaves accountId) := by
  have hrefl := Leaves.refl accountId
  refine Prog.each_bind (Prog.each_read _ hrefl) fun existing => ?_
  cases existing with
  | some row => exact Prog.each_pure row
  | none =>
    refine Prog.each_bind (Prog.each_read _ hrefl) fun found => ?_
    cases found with
    | none => exact Prog.each_throw _
    | some account =>
      refine Prog.each_bind (Prog.each_read _ hrefl) fun transactions => ?_
      refine Prog.each_bind (Prog.each_read _ hrefl) fun opening => ?_
      refine Prog.each_bind ?_ fun pdf => Prog.each_bind ?_ fun _ => ?_
      · exact Prog.each_bind (Prog.each_modify fun w _ _ _ => rfl) fun _ => Prog.each_lift _
      · refine Prog.each_attempt hrefl fun w r hr => ?_
        cases hput : env.put (statementKey account.account.userId accountId s) pdf with
        | error e => simp [hput, Except.map] at hr
        | ok a =>
          simp only [hput, Except.map, Except.ok.injEq] at hr
          subst hr
          exact fun _ _ _ => rfl
      · exact createStatement_leaves id
          ⟨accountId, s, e, statementKey account.account.userId accountId s, pdf.length⟩

/-- Each account's statement is made from its own rows, whatever becomes of the others'. -/
theorem generateEach_gives (ids : Uuid → Uuid) (s e : Instant) (accounts : List Uuid)
    (hdistinct : accounts.Nodup) (w : State) :
    Gives (generateEach env ids s e accounts) w (accounts.flatMap (monthlyVars w s e)) := by
  induction accounts generalizing w with
  | nil => exact gives_pure ()
  | cons a rest ih =>
    obtain ⟨ha, hrest⟩ := List.nodup_cons.1 hdistinct
    let one : Call Unit := tryCatch (do let _ ← generateOne env (ids a) a s e) fun _ => pure ()
    have hgave : Gives one w (monthlyVars w s e a) :=
      Gives.tryCatch ((generateOne_monthly env w (ids a) a s e).then_nothing
        fun _ w' => gives_pure ()) fun _ w' => gives_pure ()
    have hleaves : Leaves a w (one.run w).2 :=
      (Prog.each_tryCatch (Prog.each_bind (generateOne_leaves env (ids a) a s e)
        fun _ => Prog.each_pure ()) fun _ => Prog.each_pure ()).run (Leaves.refl a)
        Leaves.trans w
    have hok : ∀ error, (one.run w).1 ≠ .error error := by
      intro error
      rw [Prog.run_tryCatch]
      split <;> simp
    refine hgave.then hok fun _ => ?_
    have hsame : rest.flatMap (monthlyVars (one.run w).2 s e) =
        rest.flatMap (monthlyVars w s e) := by
      refine List.flatMap_congr fun other hother => ?_
      have hne : other ≠ a := fun h => ha (h ▸ hother)
      simp only [monthlyVars, hleaves other s hne, findAccount, hgave.db, hgave.accountNumbers]
    have hgives := ih hrest (one.run w).2
    rwa [hsame] at hgives

/-- **The monthly run** renders one statement of the prior month for each active account that has
none, in any case. -/
theorem monthlyRun_gives (ids : Uuid → Uuid) (now : Instant) (w : State) :
    Gives (monthlyRun env ids now) w
      (((w.db.accounts.entries.filter fun e => e.2.status == .active).map Sigma.fst).flatMap
        (monthlyVars w (startOfPriorMonthUTC now).1 (startOfPriorMonthUTC now).2)) := by
  apply gives_read
  refine generateEach_gives env ids _ _ _ ?_ w
  exact w.db.accounts.nodupKeys.sublist List.filter_sublist

/-- What is rendered for a stored statement. -/
def storedVars (w : State) (row : Statement) : List StatementVars :=
  (findAccount w row.accountId).toList.map fun account =>
    statementVars account row.periodStart (row.periodEnd - 1)
      (balanceAt w.db row.accountId row.periodStart)
      (findPosted w.db row.accountId row.periodStart row.periodEnd)

theorem storedVars_congr {w w' : State} (hdb : w'.db = w.db)
    (hnumbers : w'.accountNumbers = w.accountNumbers) (row : Statement) :
    storedVars w' row = storedVars w row := by
  simp only [storedVars, findAccount, hdb, hnumbers]

theorem regenerateStored_gives (w : State) (id : Uuid) (row : Statement) :
    Gives (regenerateStored env id row) w (storedVars w row) := by
  refine Gives.tryCatch ?_ fun _ w' => gives_pure false
  apply gives_read
  cases hfound : findAccount w row.accountId with
  | none =>
    have hnothing : storedVars w row = [] := by simp [storedVars, hfound]
    rw [hnothing]
    exact gives_pure false
  | some account =>
    have hvars : storedVars w row = [statementVars account row.periodStart (row.periodEnd - 1)
        (balanceAt w.db row.accountId row.periodStart)
        (findPosted w.db row.accountId row.periodStart row.periodEnd)] := by
      simp [storedVars, hfound]
    rw [hvars]
    apply gives_read
    apply gives_read
    refine (render_gives env _ w).then_nothing fun pdf w' => ?_
    refine (putFile_gives env _ pdf w').then_nothing fun _ w' => ?_
    exact (updateSize_gives id _ w').then_nothing fun _ w' => gives_pure true

/-- A statement that fails to be rendered again is counted. -/
theorem regenerateStored_ok (w : State) (id : Uuid) (row : Statement) (e : Error) :
    ((regenerateStored env id row).run w).1 ≠ .error e := by
  rw [regenerateStored, Prog.run_tryCatch]
  split <;> simp

theorem regenerateEach_gives (rows : List (Uuid × Statement)) (n : Regenerated) (w : State) :
    Gives (regenerateEach env rows n) w (rows.flatMap fun e => storedVars w e.2) := by
  induction rows generalizing n w with
  | nil => exact gives_pure n
  | cons e rows ih =>
    have hgave := regenerateStored_gives env w e.1 e.2
    refine hgave.then (regenerateStored_ok env w e.1 e.2) fun done => ?_
    have hrest := ih (if done then { n with regenerated := n.regenerated + 1 }
      else { n with failed := n.failed + 1 }) ((regenerateStored env e.1 e.2).run w).2
    have hsame : storedVars ((regenerateStored env e.1 e.2).run w).2 = storedVars w :=
      funext fun row => storedVars_congr hgave.db hgave.accountNumbers row
    rwa [hsame] at hrest

/-- **Every stored statement is rendered again**, in any case. -/
theorem regenerateAllStored_gives (w : State) : Gives (regenerateAllStored env) w
    (w.statements.entries.flatMap fun e => storedVars w e.2) := by
  apply gives_read
  have h := regenerateEach_gives env (w.statements.entries.map fun e => (e.1, e.2)) ⟨0, 0⟩ w
  rwa [List.flatMap_map] at h

/-- The instant before which `renderCustom` looks for rows. -/
def endExclusive (periodEnd : Instant) : Option Instant :=
  timeClip (utc (getUTCFullYear periodEnd) (getUTCMonth periodEnd) (getUTCDate periodEnd + 1))

/-- What `renderCustom` asks of the period and of the account. -/
structure Accepted (w : State) (userId accountId : Uuid) (periodStart periodEnd : Instant) :
    Prop where
  range : periodStart < periodEnd
  width : periodEnd - periodStart ≤ 366 * 24 * 60 * 60 * 1000
  account : ∃ account, findAccount w accountId = some account ∧ account.account.userId = userId

/-- `renderCustom` on a period and an account that it accepts. -/
theorem renderCustom_gives {w : State} {userId accountId : Uuid} {s e : Instant}
    (h : Accepted w userId accountId s e) : ∃ account,
    Gives (renderCustom env userId accountId (some s) (some e)) w
      ((endExclusive e).toList.map fun t => statementVars account s e (balanceAt w.db accountId s)
        (findPosted w.db accountId s t)) := by
  obtain ⟨account, hfound, howner⟩ := h.account
  refine ⟨account, ?_⟩
  simp only [renderCustom]
  rw [if_neg (not_le.2 h.range), if_neg (not_lt.2 h.width)]
  apply gives_read
  rw [hfound]
  simp only [howner, ne_eq, not_true_eq_false, if_false]
  rw [← endExclusive]
  cases endExclusive e with
  | none => exact gives_throw _
  | some t =>
    apply gives_read
    apply gives_read
    exact (render_gives env _ w).then_nothing fun pdf w' => gives_pure _

/-- Otherwise nothing is rendered. -/
theorem renderCustom_refuses {w : State} {userId accountId : Uuid} {s e : Instant}
    (h : ¬ Accepted w userId accountId s e) :
    Gives (renderCustom env userId accountId (some s) (some e)) w [] := by
  simp only [renderCustom]
  split
  · exact gives_throw _
  · rename_i hrange
    split
    · exact gives_throw _
    · rename_i hwidth
      apply gives_read
      cases hfound : findAccount w accountId with
      | none => exact gives_throw _
      | some account =>
        have howner : account.account.userId ≠ userId := fun howner =>
          h ⟨not_le.1 hrange, not_lt.1 hwidth, account, hfound, howner⟩
        simp only [if_pos howner]
        exact gives_throw _

/-! ## Statements balance -/

/-- What a call of one of the three functions gives the renderer. -/
inductive Renders (env : Env) (w : State) : StatementVars → Prop
  | generateOne {id accountId : Uuid} {s e : Instant} {v : StatementVars}
      (h : v ∈ given (generateOne env id accountId s e) w) : Renders env w v
  | regenerateAllStored {v : StatementVars} (h : v ∈ given (regenerateAllStored env) w) :
      Renders env w v
  | renderCustom {userId accountId : Uuid} {s e : Option Instant} {v : StatementVars}
      (h : v ∈ given (renderCustom env userId accountId s e) w) : Renders env w v

/-- The renderer is given the rows of a list, added up. -/
theorem Renders.exists_rows {env : Env} {w : State} {v : StatementVars} (h : Renders env w v) :
    ∃ account s e opening ts, v = statementVars account s e opening ts := by
  cases h with
  | @generateOne id accountId s e _ h =>
    cases hfound : findAccount w accountId with
    | none =>
      rw [(generateOne_gives_nothing env (.inr hfound)).given_eq] at h
      simp at h
    | some account =>
      cases hnew : findStatement w accountId s with
      | some row =>
        rw [(generateOne_gives_nothing env (.inl (by simp [hnew]))).given_eq] at h
        simp at h
      | none =>
        rw [(generateOne_gives env hnew hfound).given_eq, List.mem_singleton] at h
        exact ⟨_, _, _, _, _, h⟩
  | regenerateAllStored h =>
    rw [(regenerateAllStored_gives env w).given_eq, List.mem_flatMap] at h
    obtain ⟨row, -, hv⟩ := h
    obtain ⟨account, -, rfl⟩ := List.mem_map.1 hv
    exact ⟨_, _, _, _, _, rfl⟩
  | @renderCustom userId accountId s e _ h =>
    cases s with
    | none =>
      have hthrow : Gives (Statements.renderCustom env userId accountId none e) w [] :=
        gives_throw _
      rw [hthrow.given_eq] at h
      simp at h
    | some s =>
      cases e with
      | none =>
        have hthrow : Gives (Statements.renderCustom env userId accountId (some s) none) w [] :=
          gives_throw _
        rw [hthrow.given_eq] at h
        simp at h
      | some e =>
        by_cases haccepted : Accepted w userId accountId s e
        · obtain ⟨account, hgives⟩ := renderCustom_gives env haccepted
          rw [hgives.given_eq] at h
          obtain ⟨t, -, rfl⟩ := List.mem_map.1 h
          exact ⟨_, _, _, _, _, rfl⟩
        · rw [(renderCustom_refuses env haccepted).given_eq] at h
          simp at h

theorem Renders.balanced {env : Env} {w : State} {v : StatementVars} (h : Renders env w v) :
    v.Balanced := by
  obtain ⟨account, s, e, opening, ts, rfl⟩ := h.exists_rows
  exact statementVars_balanced ..

/-- Statements balance, from what is in the bank of `w`: those of all periods, and the one for the
days from `periodStart` to that of `periodEnd`. -/
structure StatementsBalance (env : Env) (w : State) (userId accountId : Uuid)
    (periodStart periodEnd : Instant) : Prop where
  balanced : ∀ w₁ v, w₁.db = w.db → Renders env w₁ v → v.Balanced
  /-- The second of two periods opens with what the first closes with. -/
  continuous : ∀ w₁ w₂ id₁ id₂ a s m e, w₁.db = w.db → w₂.db = w.db → s ≤ m →
    (findAccount w₁ a).isSome → findStatement w₁ a s = none → findStatement w₂ a m = none →
    ∃ v₁ v₂, given (generateOne env id₁ a s m) w₁ = [v₁] ∧
      given (generateOne env id₂ a m e) w₂ = [v₂] ∧
      v₁.closingBalanceCents = v₂.openingBalanceCents
  /-- The stored statements are rendered again as they would be made. -/
  regenerated : ∀ w₁ w₂, w₁.db = w.db → w₂.db = w.db → w₂.statements = ∅ →
    (given (regenerateAllStored env) w₁).map StatementVars.figures =
      w₁.statements.entries.flatMap fun row => (given (generateOne env row.1 row.2.accountId
        row.2.periodStart row.2.periodEnd) w₂).map StatementVars.figures
  /-- The last day of a chosen period ends at the next midnight. -/
  custom : ∀ w₁ w₂ id, w₁.db = w.db → w₂.db = w.db → findStatement w₂ accountId periodStart = none →
    (given (renderCustom env userId accountId (some periodStart) (some periodEnd)) w₁).map
        StatementVars.figures =
      (given (generateOne env id accountId periodStart (nextMidnight periodEnd)) w₂).map
        StatementVars.figures

theorem findAccount_isSome {w w' : State} (hdb : w'.db = w.db) (id : Uuid) :
    (findAccount w' id).isSome = (findAccount w id).isSome := by
  simp only [findAccount, hdb]
  cases w.db.accounts.lookup id <;> simp

theorem Accepted.congr {w w' : State} (hdb : w'.db = w.db) {userId accountId : Uuid}
    {s e : Instant} (h : Accepted w userId accountId s e) : Accepted w' userId accountId s e where
  range := h.range
  width := h.width
  account := by
    obtain ⟨account, hfound, howner⟩ := h.account
    simp only [findAccount, Option.bind_eq_some_iff, Option.map_eq_some_iff] at hfound
    obtain ⟨row, hrow, user, huser, rfl⟩ := hfound
    exact ⟨⟨row, w'.accountNumbers accountId, user⟩, by simp [findAccount, hdb, hrow, huser], howner⟩

/-- What `generateOne` shows of a period. -/
theorem generateOne_figures {w : State} {id accountId : Uuid} {s e : Instant}
    (hnew : findStatement w accountId s = none) (hfound : (findAccount w accountId).isSome) :
    (given (generateOne env id accountId s e) w).map StatementVars.figures =
      [periodFigures w.db accountId s e] := by
  obtain ⟨account, haccount⟩ := Option.isSome_iff_exists.1 hfound
  rw [(generateOne_gives env hnew haccount).given_eq]
  rfl

/-- What `renderCustom` shows of a period. -/
theorem renderCustom_figures {w : State} {userId accountId : Uuid} {s e : Instant}
    (h : Accepted w userId accountId s e) :
    (given (renderCustom env userId accountId (some s) (some e)) w).map StatementVars.figures =
      (endExclusive e).toList.map (periodFigures w.db accountId s) := by
  obtain ⟨account, hgives⟩ := renderCustom_gives env h
  rw [hgives.given_eq, List.map_map]
  rfl

/-- The midnight after an instant in the years 0 to 99, in the year of the twentieth century that
`Date.UTC` takes the year for. -/
def centuryMidnight (t : Instant) : Instant :=
  makeDay (1900 + getUTCFullYear t) (getUTCMonth t) (getUTCDate t + 1) * msPerDay

/-- When `renderCustom` ends the last day where it ends. -/
structure LastDayEnds (db : Db) (accountId : Uuid) (periodEnd : Instant) : Prop where
  /-- It does end. -/
  date : (timeClip (nextMidnight periodEnd)).isSome
  /-- In the years 0 to 99, nothing is posted to the account in the 1900 years after it. -/
  nothing : 0 ≤ getUTCFullYear periodEnd → getUTCFullYear periodEnd ≤ 99 → ∀ id t,
    db.transactions.lookup id = some t → t.accountId = accountId → t.status = .posted →
    ¬ (nextMidnight periodEnd ≤ t.occurredAt ∧ t.occurredAt < centuryMidnight periodEnd)

theorem postedDuring_eq_nil_iff {db : Db} {accountId : Uuid} {s e : Instant} :
    postedDuring db accountId s e = [] ↔ ∀ id t, db.transactions.lookup id = some t →
      t.accountId = accountId → t.status = .posted → ¬ (s ≤ t.occurredAt ∧ t.occurredAt < e) := by
  rw [List.eq_nil_iff_forall_not_mem]
  simp only [postedDuring, Periods.mem_during, posted, List.mem_map, List.mem_filter, postedOf,
    Bool.and_eq_true, beq_iff_eq]
  constructor
  · intro h id t hlookup haccount hposted hdated
    exact h (id, t) ⟨⟨⟨id, t⟩, ⟨Table.mem_entries_iff.2 hlookup, haccount, hposted⟩, rfl⟩, hdated⟩
  · rintro h ⟨id, t⟩ ⟨⟨e, ⟨hmem, haccount, hposted⟩, heq⟩, hdated⟩
    cases heq
    exact h e.1 e.2 (Table.mem_entries_iff.1 hmem) haccount hposted hdated

/-- The two ends of the last day. -/
theorem custom_iff (db : Db) (accountId : Uuid) {s e : Instant} (h : s < e) :
    (endExclusive e).toList.map (periodFigures db accountId s) =
        [periodFigures db accountId s (nextMidnight e)] ↔ LastDayEnds db accountId e := by
  have hafter : s ≤ nextMidnight e := h.le.trans (lt_nextMidnight e).le
  by_cases hyear : 0 ≤ getUTCFullYear e ∧ getUTCFullYear e ≤ 99
  · have hcentury : endExclusive e = some (centuryMidnight e) := by
      rw [endExclusive, timeClip_utc hyear, utc, if_pos hyear, centuryMidnight]
    have hlate : nextMidnight e ≤ centuryMidnight e := by
      have hle := nextMidnight_le_utc hyear
      rwa [utc, if_pos hyear] at hle
    rw [hcentury, Option.toList_some, List.map_singleton, List.cons.injEq,
      periodFigures_eq_iff db accountId hafter hlate, postedDuring_eq_nil_iff]
    constructor
    · rintro ⟨hnothing, -⟩
      exact ⟨by rw [timeClip_nextMidnight hyear]; rfl, fun _ _ => hnothing⟩
    · intro hends
      exact ⟨hends.nothing hyear.1 hyear.2, rfl⟩
  · have hmidnight : endExclusive e = timeClip (nextMidnight e) := by
      rw [endExclusive, utc_tomorrow hyear]
    rw [hmidnight]
    constructor
    · intro heq
      refine ⟨?_, fun hlo hhi => absurd ⟨hlo, hhi⟩ hyear⟩
      cases hclip : timeClip (nextMidnight e) with
      | none => simp [hclip] at heq
      | some t => rfl
    · intro hends
      have hdate := hends.date
      unfold timeClip at hdate ⊢
      split at hdate
      · rename_i hrange
        simp [hrange]
      · cases hdate

/-- **Statements balance** exactly if the last day of the chosen period is taken to end where it
does, or nothing is posted in between. -/
theorem statementsBalance_iff (env : Env) {w : State} {userId accountId : Uuid} {s e : Instant}
    (h : Accepted w userId accountId s e) :
    StatementsBalance env w userId accountId s e ↔ LastDayEnds w.db accountId e := by
  have hfound : ∀ w' : State, w'.db = w.db → (findAccount w' accountId).isSome := by
    intro w' hdb
    obtain ⟨account, haccount, -⟩ := (h.congr hdb).account
    simp [haccount]
  rw [← custom_iff w.db accountId h.range]
  constructor
  · intro hbalance
    let fresh : State := { w with statements := ∅ }
    have hnew : findStatement fresh accountId s = none := rfl
    have hcustom := hbalance.custom w fresh 0 rfl rfl hnew
    rwa [renderCustom_figures env h, generateOne_figures env hnew (hfound fresh rfl)] at hcustom
  · intro hends
    constructor
    · exact fun _ _ _ hrenders => hrenders.balanced
    · intro w₁ w₂ id₁ id₂ a s m e hdb₁ hdb₂ hsm hisSome hnew₁ hnew₂
      obtain ⟨account₁, hfound₁⟩ := Option.isSome_iff_exists.1 hisSome
      rw [findAccount_isSome hdb₁, ← findAccount_isSome hdb₂] at hisSome
      obtain ⟨account₂, hfound₂⟩ := Option.isSome_iff_exists.1 hisSome
      refine ⟨_, _, (generateOne_gives env hnew₁ hfound₁).given_eq,
        (generateOne_gives env hnew₂ hfound₂).given_eq, ?_⟩
      have hclosing := closing_eq w.db a hsm
      rw [hdb₁, hdb₂]
      exact hclosing
    · intro w₁ w₂ hdb₁ hdb₂ hempty
      rw [(regenerateAllStored_gives env w₁).given_eq, List.map_flatMap]
      refine List.flatMap_congr fun row _ => ?_
      have hnew : findStatement w₂ row.2.accountId row.2.periodStart = none := by
        rw [findStatement, hempty]
        rfl
      cases hmissing : findAccount w₂ row.2.accountId with
      | none =>
        have hisSome := findAccount_isSome (hdb₁.trans hdb₂.symm) row.2.accountId
        rw [hmissing, Option.isSome_none, Option.isSome_eq_false_iff, Option.isNone_iff_eq_none]
          at hisSome
        rw [(generateOne_gives_nothing env (.inr hmissing)).given_eq, storedVars, hisSome]
        rfl
      | some account =>
        have hisSome := findAccount_isSome (hdb₁.trans hdb₂.symm) row.2.accountId
        rw [hmissing, Option.isSome_some, Option.isSome_iff_exists] at hisSome
        obtain ⟨account₁, haccount₁⟩ := hisSome
        rw [(generateOne_gives env hnew hmissing).given_eq, storedVars, haccount₁, hdb₁, hdb₂]
        rfl
    · intro w₁ w₂ id hdb₁ hdb₂ hnew
      rw [renderCustom_figures env (h.congr hdb₁), generateOne_figures env hnew (hfound w₂ hdb₂),
        hdb₁, hdb₂]
      exact hends

/-- Ann's account, with one posted row. -/
def sampleBooks (occurredAt : Instant) : State where
  db :=
    let row : Transaction := ⟨10, .deposit, .posted, 2500, "Deposit", .income, none, occurredAt,
      some occurredAt, none⟩
    { sampleDb with transactions := (∅ : Table Uuid Transaction).insert 101 row }
  accountNumbers := fun _ => ⟨"000012345678", "021000021"⟩
  statements := ∅
  files := ∅
  rendered := []

/-- A renderer and a storage that do what they are asked to. -/
def samplePress : Env where
  render := fun _ => .ok [37, 80, 68, 70]
  put := fun _ _ => .ok ()
  toLowerCase := fun s => String.ofList (s.toList.map Char.toLower)

/-- February 2026, with a deposit on the 10th. -/
theorem statementsBalance_february : StatementsBalance samplePress (sampleBooks 1770681600000) 1 10
    1769904000000 1772236800000 := by
  have haccepted : Accepted (sampleBooks 1770681600000) 1 10 1769904000000 1772236800000 :=
    ⟨by decide, by decide, _, rfl, rfl⟩
  refine (statementsBalance_iff samplePress haccepted).2 ⟨by decide +kernel, fun _ hhi => ?_⟩
  exact absurd hhi (by decide +kernel)

/-- February of the year 50, and a deposit that was booked on 8 May 1945: `renderCustom` shows it. -/
theorem year_fifty_goes_on : ¬ StatementsBalance samplePress (sampleBooks (-777945600000)) 1 10
    (-60586617600000) (-60584284800000) := by
  intro h
  let books := sampleBooks (-777945600000)
  have hcustom := congrArg (fun l => l.map fun f => f.closingBalanceCents)
    (h.custom books books 0 rfl rfl rfl)
  revert hcustom
  decide +kernel

end BankDemo.Statements
