import BankDemo.Admin.Users
import BankDemo.System.Frame
import BankDemo.System.Owners
import BankDemo.System.Progress
import BankDemo.System.Rows

/-!
# Transfers from before a history reset

A reset deletes the transactions of a user's accounts and empties the accounts, and leaves the
transfers as they are. The settlement of a transfer from before it, or its rejection, then throws
for want of the pending transaction, while the reversal of a wire does without it and refunds the
user.
-/

namespace BankDemo

open Ledger Transfers Admin

/-! ## Resets among the other calls -/

/-- The calls on transfers and transactions, and resets of histories. -/
abbrev HistoryCall := Call ⊕ ResetCall

/-- The program of a call, for thread `me`. -/
def historyProgram (env : Env) (me : ℕ) : HistoryCall → Service Answer :=
  Sum.elim (program env me) fun c => silently (resetHistory me c)

/-- What an action of a reset can do to the database: it empties the accounts that it has seen to
be the user's, or nothing. -/
def ResetChange (c : ResetCall) (h : List World) (db db' : Db) : Prop :=
  db' = db ∨ ∃ w ∈ h, db' = wiped (accountsOf c.targetUserId w.db) db

/-- What an action of thread `i` guarantees. -/
def resetGuar (i : ℕ) (c : ResetCall) (h : List World) (w' : World) : Prop :=
  ∀ w past, h = w :: past → ResetChange c h w.db w'.db ∧ ∀ j, j ≠ i → Keeps j w w'

/-- The discipline of resets. -/
def resets : Discipline World Error Answer ResetCall where
  rely := rely
  guar := resetGuar
  post := fun _ _ _ => True
  rely_trans := rely_trans
  rely_of_guar := fun hij hg => rely_own ((hg _ _ rfl).2 _ (Ne.symm hij))
  post_mono := fun _ => trivial

/-- The discipline of all these calls. -/
def history (env : Env) : Discipline World Error Answer HistoryCall := (owners env).sum resets rfl

instance {i : ℕ} {c : ResetCall} : Idles i (resetGuar i c) where
  idle := by
    intro w w' past hdb hkeeps x px hx
    cases hx
    exact ⟨.inl hdb, hkeeps⟩

theorem resetHistory_follows (i : ℕ) (c : ResetCall) (h : List World) :
    (resetHistory i c).Follows (rely i) (resetGuar i c) (fun _ _ => True) h := by
  unfold resetHistory
  split
  · exact Prog.follows_throw trivial
  · refine Quiet.follows_bind (quiet_query _) (fun target h₁ _ => ?_) fun _ _ _ => trivial
    cases target with
    | none => exact Prog.follows_throw trivial
    | some user =>
      refine follows_query fun w past _ => ?_
      split
      · exact Prog.follows_pure trivial
      · refine Prog.follows_bind (follows_commit (fun w' past' r db' hR hb => ?_)
          fun _ _ _ => trivial)
        have hdb' : db' = wiped (accountsOf c.targetUserId w.db) w'.db := resetTx_ok hb
        subst hdb'
        refine ⟨fun x hx => balance_wiped hx w'.db, fun hkeeps x px hx => ?_, ?_⟩
        · cases hx
          exact ⟨.inr ⟨w, hR.1 w List.mem_cons_self, rfl⟩, hkeeps⟩
        · exact (quiet_bind (quiet_announceZero _ _) fun _ => quiet_pure _).follows
            fun _ _ _ => trivial

theorem history_follows (env : Env) (i : ℕ) (c : HistoryCall) (h : List World) :
    (historyProgram env i c).Follows ((history env).rely i) ((history env).guar i c)
      ((history env).post c) h := by
  cases c with
  | inl c => exact program_owns env i c h
  | inr c => exact (resetHistory_follows i c h).seq fun _ _ => Prog.follows_pure trivial

/-! ## What a step can do -/

/-- What a step of a call can do to the database, after the worlds `h`. -/
def HistoryStep (env : Env) (h : List World) (db db' : Db) : HistoryCall → Prop
  | .inl c => Change env h db db' c ∧ Framed c.deletes c.draws db db' ∧
      ∀ ic, c = .initiate ic → db' = db ∨ OwnerSeen h ic.dto.fromAccountId ic.userId
  | .inr c => ResetChange c h db db'

/-- The ids a call draws for the rows it makes. -/
def historyDraws : HistoryCall → List Uuid := Sum.elim Call.draws fun _ => []

section Steps

variable {env : Env} {w₀ : World} {tr : List (Step World HistoryCall)}
  {P : Pool World Error Answer HistoryCall} {h : List World} {db db' : Db} {c : HistoryCall}

/-- An action of a call on transfers moves nothing but money. -/
def HistoryFrame : HistoryCall → World → World → Prop
  | .inl c, w, w' => Framed c.deletes c.draws w.db w'.db
  | .inr _, _, _ => True

theorem history_steps (hrun : Run (historyProgram env) (fun _ => True) w₀ tr P) :
    (history env).Steps w₀ tr ∧ ∀ x ∈ tr, HistoryFrame x.call x.pre x.post := by
  refine ⟨(hrun.follows (history env) (fun i c h _ => history_follows env i c h) rely_refl).1, ?_⟩
  refine (hrun.each (Q := HistoryFrame) fun i c _ => ?_).1
  cases c with
  | inl c => exact program_confined env i c
  | inr c => exact Prog.each_of_forall _ fun _ _ => trivial

theorem historyStep_of_guar {i : ℕ} {w w' : World} {past : List World}
    (hguar : (history env).guar i c (w :: past) w') (hframe : HistoryFrame c w w') :
    HistoryStep env (w :: past) w.db w'.db c := by
  cases c with
  | inl c => exact ⟨(hguar.1 _ _ rfl).1, hframe, fun ic hc => hguar.2 ic _ _ hc rfl⟩
  | inr c => exact (hguar _ _ rfl).1

theorem ResetChange.transfers {c : ResetCall} (hchange : ResetChange c h db db') :
    db'.transfers = db.transfers := by
  rcases hchange with rfl | ⟨w, -, rfl⟩ <;> rfl

theorem HistoryStep.rowChange (hstep : HistoryStep env h db db' c) :
    ∃ c', RowChange env db.transfers db'.transfers c' ∧ ∀ ic, c' = .initiate ic → c = .inl c' := by
  cases c with
  | inl c => exact ⟨c, hstep.1.rowChange, fun _ _ => rfl⟩
  | inr c =>
    refine ⟨.markFailed 0 "" 0, .same (ResetChange.transfers hstep), fun ic hic => ?_⟩
    cases hic

theorem HistoryStep.userId (hstep : HistoryStep env h db db' c) (a : Uuid) :
    (db'.accounts.lookup a).map Account.userId = (db.accounts.lookup a).map Account.userId := by
  cases c with
  | inl c => exact hstep.2.1.userId a
  | inr c =>
    rcases hstep with rfl | ⟨w, -, rfl⟩
    · rfl
    · simp only [wiped, Table.lookup_updateMany, Option.map_map]
      congr 1
      funext acct
      simp only [Function.comp]
      split <;> rfl

theorem HistoryStep.chart (hstep : HistoryStep env h db db' c) :
    Extends db.ledgerAccounts db'.ledgerAccounts := by
  cases c with
  | inl c => exact hstep.2.1.chart
  | inr c => rcases hstep with rfl | ⟨w, -, rfl⟩ <;> exact .refl _

/-- A transaction that the call has not drawn the id of was there before, on the same account. -/
theorem HistoryStep.origin (hstep : HistoryStep env h db db' c) {p : Uuid} {row' : Transaction}
    (hp : p ∉ historyDraws c) (hrow' : db'.transactions.lookup p = some row') :
    ∃ row, db.transactions.lookup p = some row ∧ row'.accountId = row.accountId := by
  cases c with
  | inl c => exact hstep.2.1.origin p row' hp hrow'
  | inr c =>
    rcases hstep with rfl | ⟨w, -, rfl⟩
    · exact ⟨row', hrow', rfl⟩
    · exact ⟨row', (Table.lookup_deleteMany.1 hrow').1, rfl⟩

end Steps

/-! ## Transfers and their rows -/

/-- What is true of every transfer: where it comes from, that its account is the user's, and that
its pending transaction, if there is one, is on that account. -/
structure Rooted (tr : List (Step World HistoryCall)) (db : Db) (id : Uuid) (t : Transfer) :
    Prop where
  born : ∃ x ∈ tr, ∃ ic, x.call = .inl (.initiate ic) ∧ ic.transferId = id ∧
    t.pendingTransactionId = some ic.pendingTxId
  owner : ∃ acct, db.accounts.lookup t.fromAccountId = some acct ∧
    acct.userId = t.initiatedByUserId
  onSource : ∀ p row, t.pendingTransactionId = some p → db.transactions.lookup p = some row →
    row.accountId = t.fromAccountId

/-- Different calls draw different ids. -/
def DrawsApart (tr : List (Step World HistoryCall)) : Prop :=
  ∀ x ∈ tr, ∀ y ∈ tr, x.tid ≠ y.tid → ∀ p ∈ historyDraws x.call, p ∉ historyDraws y.call

section Rooted

variable {env : Env} {w₀ : World} {tr earlier : List (Step World HistoryCall)}
  {P : Pool World Error Answer HistoryCall} {x : Step World HistoryCall} {past : List World}

/-- A step that draws the id of the pending transaction of a transfer that exists is one of the
call that made the transfer, and that has no more to do. -/
theorem pending_not_drawn (hrun : Run (historyProgram env) (fun _ => True) w₀ tr P)
    (happart : DrawsApart tr) (hx : x ∈ tr) (hearlier : ∀ y ∈ earlier, y ∈ tr) {id p : Uuid}
    {t : Transfer} (hroot : Rooted earlier x.pre.db id t)
    (hstep : HistoryStep env (x.pre :: past) x.pre.db x.post.db x.call)
    (ht : x.pre.db.transfers.lookup id = some t) (hp : t.pendingTransactionId = some p)
    (hdraw : p ∈ historyDraws x.call) : x.post.db = x.pre.db := by
  obtain ⟨y, hy, ic, hcall, hid, hp'⟩ := hroot.born
  obtain rfl := Option.some.inj (hp.symm.trans hp')
  by_cases htid : y.tid = x.tid
  · have hxcall : x.call = .inl (.initiate ic) := by
      rw [← hcall]
      exact (hrun.call_eq (hearlier y hy) hx htid).symm
    rw [hxcall] at hstep
    rcases hstep.1.of_initiate with hdb | ⟨t', -, hinit⟩
    · exact hdb
    · have hnone := hinit.transfers.1
      rw [hid, ht] at hnone
      cases hnone
  · have hmem : ic.pendingTxId ∈ historyDraws y.call := by
      rw [hcall]
      simp [historyDraws, Call.draws]
    exact absurd hdraw (happart y (hearlier y hy) x hx htid _ hmem)

/-- The facts about a transfer that exists are kept. -/
theorem Rooted.step (hrun : Run (historyProgram env) (fun _ => True) w₀ tr P)
    (happart : DrawsApart tr) (hx : x ∈ tr) (hearlier : ∀ y ∈ earlier, y ∈ tr) {id : Uuid}
    {t t' : Transfer} (hroot : Rooted earlier x.pre.db id t)
    (hstep : HistoryStep env (x.pre :: past) x.pre.db x.post.db x.call)
    (ht : x.pre.db.transfers.lookup id = some t) (hterms : t'.terms = t.terms) :
    Rooted (x :: earlier) x.post.db id t' := by
  refine ⟨?_, ?_, ?_⟩
  · obtain ⟨y, hy, ic, hcall, hid, hp⟩ := hroot.born
    refine ⟨y, List.mem_cons_of_mem _ hy, ic, hcall, hid, ?_⟩
    rw [pendingTransaction_of_terms hterms]
    exact hp
  · obtain ⟨acct, hacct, huser⟩ := hroot.owner
    have hmap := hstep.userId t.fromAccountId
    rw [hacct, Option.map_some] at hmap
    obtain ⟨acct', hacct', huser'⟩ := Option.map_eq_some_iff.1 hmap
    rw [from_of_terms hterms, user_of_terms hterms]
    exact ⟨acct', hacct', huser'.trans huser⟩
  · intro p row' hp hrow'
    rw [pendingTransaction_of_terms hterms] at hp
    rw [from_of_terms hterms]
    by_cases hdraw : p ∈ historyDraws x.call
    · rw [pending_not_drawn hrun happart hx hearlier hroot hstep ht hp hdraw] at hrow'
      exact hroot.onSource p row' hp hrow'
    · obtain ⟨row, hrow, haccount⟩ := hstep.origin hdraw hrow'
      rw [haccount]
      exact hroot.onSource p row hp hrow

/-- What a run keeps, of the history and of every transfer there is. -/
structure Kept (w₀ : World) (tr : List (Step World HistoryCall)) (db : Db) : Prop where
  lineage : Lineage (visited w₀ tr)
  owners : SameOwners (visited w₀ tr)
  rooted : ∀ id t, db.transfers.lookup id = some t → Rooted tr db id t
  chart : Charted db.ledgerAccounts

theorem rooted_new {ic : InitiateCall} {t : Transfer} {w w' : World} {tid : ℕ}
    (hsame : SameOwners (w' :: w :: past)) (hadmitted : Admitted env ic t)
    (hinit : Initiated ic t w.db w'.db)
    (howner : OwnerSeen (w :: past) ic.dto.fromAccountId ic.userId) :
    Rooted (⟨tid, .inl (.initiate ic), w, w'⟩ :: earlier) w'.db ic.transferId t := by
  obtain ⟨s, fx, toAccount, -, -, rfl⟩ := hadmitted.row
  refine ⟨⟨_, List.mem_cons_self, ic, rfl, rfl, rfl⟩, ?_, ?_⟩
  · exact hsame.owner (howner.mono fun v hv => List.mem_cons_of_mem _ hv)
  · intro p row hp hrow
    obtain ⟨row', haccount, -, -, hcreated⟩ := hinit.feed
    have hp' : p = ic.pendingTxId := (Option.some.inj hp).symm
    rw [hcreated.lookup, if_pos hp'] at hrow
    cases hrow
    exact haccount

/-- What a step keeps. -/
theorem Kept.step (hrun : Run (historyProgram env) (fun _ => True) w₀ tr P)
    (happart : DrawsApart tr) (hx : x ∈ tr) (hearlier : ∀ y ∈ earlier, y ∈ tr)
    (hpast : visited w₀ earlier = x.pre :: past) (hkept : Kept w₀ earlier x.pre.db)
    (hstep : HistoryStep env (x.pre :: past) x.pre.db x.post.db x.call) :
    Kept w₀ (x :: earlier) x.post.db := by
  have hvisited : visited w₀ (x :: earlier) = x.post :: x.pre :: past := by
    rw [← hpast]
    rfl
  have hlineage := hkept.lineage
  have hsame := hkept.owners
  rw [hpast] at hlineage hsame
  obtain ⟨c', hrows, hc'⟩ := hstep.rowChange
  have hsame' := hsame.step hstep.userId
  refine ⟨?_, ?_, ?_, hkept.chart.mono hstep.chart⟩
  · rw [hvisited]
    exact hlineage.step hrows
  · rw [hvisited]
    exact hsame'
  · intro id t' ht'
    rcases hrows.origin ht' with ⟨t, ht, hterms⟩ | ⟨ic, hic, rfl, -⟩
    · exact (hkept.rooted id t ht).step hrun happart hx hearlier hstep ht hterms
    · have hcall : x.call = .inl (.initiate ic) := by rw [hc' ic hic, hic]
      obtain ⟨tid, c, w, w'⟩ := x
      simp only at hcall
      subst hcall
      rcases hstep.1.of_initiate with hdb | ⟨t, hadmitted, hinit⟩
      · have ht := ht'
        simp only at ht hdb
        rw [hdb] at ht
        exact (hkept.rooted _ t' ht).step hrun happart hx hearlier hstep ht rfl
      · have ht := hinit.transfers.lookup ic.transferId
        rw [if_pos rfl] at ht
        obtain rfl := Option.some.inj (ht.symm.trans ht')
        rcases hstep.2.2 ic rfl with hdb | howner
        · have hnone := hinit.transfers.1
          simp only at ht' hdb
          rw [hdb, hnone] at ht'
          cases ht'
        · exact rooted_new hsame' hadmitted hinit howner

/-- What every run from a bank without transfers keeps. -/
theorem history_kept (hrun : Run (historyProgram env) (fun _ => True) w₀ tr P)
    (happart : DrawsApart tr) (hchart : Charted w₀.db.ledgerAccounts)
    (hstart : ∀ id, w₀.db.transfers.lookup id = none)
    (hsteps : (history env).Steps w₀ earlier) (hearlier : ∀ y ∈ earlier, y ∈ tr) :
    ∀ w past, visited w₀ earlier = w :: past → Kept w₀ earlier w.db := by
  have hframes := (history_steps hrun).2
  have hinduct := hsteps.induct (I := fun earlier w => (∀ y ∈ earlier, y ∈ tr) ∧
    Kept w₀ earlier w.db) ⟨by simp, ?_⟩ ?_
  · exact fun w past hw => (hinduct w past hw).2
  · refine ⟨lineage_start w₀, sameOwners_start w₀, fun id t ht => ?_, hchart⟩
    rw [hstart id] at ht
    cases ht
  · intro before x past hx _ hpast hI hguar
    rw [hpast] at hguar
    have hxtr := hearlier x hx
    refine ⟨List.forall_mem_cons.2 ⟨hxtr, hI.1⟩, ?_⟩
    exact hI.2.step hrun happart hxtr hI.1 hpast (historyStep_of_guar hguar (hframes x hxtr))

end Rooted

/-! ## After a reset -/

/-- The step is that of a reset which empties the accounts of the user. -/
def Resets (u : Uuid) (x : Step World HistoryCall) : Prop :=
  (∃ c, x.call = .inr c ∧ c.targetUserId = u) ∧
    x.post.db = wiped (accountsOf u x.pre.db) x.pre.db

theorem wiped_congr {ids ids' : List Uuid} (h : ∀ a, a ∈ ids ↔ a ∈ ids') (db : Db) :
    wiped ids db = wiped ids' db := by
  have hon : onAccounts ids = onAccounts ids' := by
    funext row
    simp only [onAccounts, h]
  simp only [wiped, hon, h]

/-- Every step of a reset that changes anything empties the accounts of the user, as they are
then. -/
theorem reset_step {env : Env} {w₀ : World} {tr : List (Step World HistoryCall)}
    {P : Pool World Error Answer HistoryCall} {x : Step World HistoryCall} {c : ResetCall}
    (hrun : Run (historyProgram env) (fun _ => True) w₀ tr P) (hx : x ∈ tr)
    (hc : x.call = .inr c) : x.post.db = x.pre.db ∨ Resets c.targetUserId x := by
  obtain ⟨hsteps, hframes⟩ := history_steps hrun
  obtain ⟨later, earlier, rfl⟩ := List.append_of_mem hx
  obtain ⟨hearlier, past, hpast, hguar⟩ := hsteps.split
  have hsame : SameOwners (visited w₀ earlier) := by
    refine hearlier.invariant (I := SameOwners) (sameOwners_start w₀) fun y hy past _ hI hguar => ?_
    exact hI.step (historyStep_of_guar hguar (hframes y (by simp [hy]))).userId
  rw [hpast] at hguar hsame
  have hstep := historyStep_of_guar hguar (hframes x hx)
  rw [hc] at hstep
  rcases hstep with hdb | ⟨w, hw, hdb⟩
  · exact .inl hdb
  · refine .inr ⟨⟨c, hc, rfl⟩, ?_⟩
    rw [hdb]
    refine wiped_congr (fun a => ?_) _
    have howner := hsame x.pre past rfl w hw a
    have hmem : ∀ db : Db, a ∈ accountsOf c.targetUserId db ↔
        (db.accounts.lookup a).map Account.userId = some c.targetUserId := by
      intro db
      rw [mem_accountsOf, Option.map_eq_some_iff]
    rw [hmem, hmem, howner]

/-- The user had initiated the transfer when the step was taken. -/
def InitiatedBefore (u : Uuid) (x : Step World HistoryCall) (id : Uuid) : Prop :=
  ∃ t, x.pre.db.transfers.lookup id = some t ∧ t.initiatedByUserId = u

/-- The calls that settle, decide or reverse a transfer. -/
def Call.endsTransfer : Call → Bool
  | .process _ | .forceSettle _ | .decide _ | .approve _ | .reverse _ => true
  | _ => false

/-- What a reset at the step `x` is to mean for the steps after it, which lead to `w`. -/
structure ResetFinal (env : Env) (u : Uuid) (x : Step World HistoryCall)
    (later : List (Step World HistoryCall)) (w : World) : Prop where
  /-- A step on a transfer from before changes no balance of the user. -/
  frozen : ∀ id, InitiatedBefore u x id → ∀ y ∈ later, ∀ c, y.call = .inl c →
    c.subject = some id → ∀ a acct, y.pre.db.accounts.lookup a = some acct → acct.userId = u →
      y.post.db.balance a = y.pre.db.balance a
  /-- A transfer from before that is open can be brought to an end by a call that does not
  throw. -/
  finishable : ∀ id, InitiatedBefore u x id → ∀ t, w.db.transfers.lookup id = some t →
    t.status = .pending → ∃ (c : Call) (a : Answer) (w' : World), c.endsTransfer = true ∧
      c.subject = some id ∧ (program env 0 c).run w = (.ok a, w') ∧
      ∃ t', w'.db.transfers.lookup id = some t' ∧ t'.status ≠ .pending

/-- When a reset at the step `x` is final: the user's open transfers are wires, of the user's
earlier wires none is reversed later, and of the user's earlier transfers that are not wires none
is opened again. -/
structure ResetClear (u : Uuid) (x : Step World HistoryCall)
    (later : List (Step World HistoryCall)) : Prop where
  openWires : ∀ id t, x.pre.db.transfers.lookup id = some t → t.initiatedByUserId = u →
    t.status = .pending → t.kind = .wireOut
  noReversal : ∀ y ∈ later, ∀ rc, y.call = .inl (.reverse rc) →
    InitiatedBefore u x rc.transferId → y.post.db = y.pre.db
  noReopening : ∀ y ∈ later, ∀ id t t', InitiatedBefore u x id →
    y.pre.db.transfers.lookup id = some t → t.kind ≠ .wireOut → t.status ≠ .pending →
    y.post.db.transfers.lookup id = some t' → t'.status ≠ .pending

/-- The transfer has lost its pending transaction, and is open only if it is a wire. -/
def Detached (db : Db) (id : Uuid) : Prop :=
  ∃ t p, db.transfers.lookup id = some t ∧ t.pendingTransactionId = some p ∧
    db.transactions.lookup p = none ∧ (t.status = .pending → t.kind = .wireOut)

theorem draws_of_worker {c : Call} {pc : ProcessCall} (h : c.worker = some pc) :
    pc.settledTxId ∈ c.draws ∧ pc.inflowTxId ∈ c.draws := by
  cases c with
  | process | runJob | forceSettle | approve =>
    cases h
    simp [Call.draws]
  | decide dc =>
    simp only [Call.worker] at h
    split at h
    · cases h
      simp [Call.draws]
    · cases h
  | _ => cases h

/-- A call on a transfer that moves money, other than a reversal, counts on the pending
transaction. -/
theorem Change.needsRow {env : Env} {h : List World} {db db' : Db} {c : Call} {id : Uuid}
    (hchange : Change env h db db' c) (hc : c.subject = some id) :
    (∀ a, db'.balance a = db.balance a) ∨ (∃ rc, c = .reverse rc) ∨
      ∃ t, Seen h id t ∧ ∀ p, t.pendingTransactionId = some p →
        p ∈ c.draws ∨ (db.transactions.lookup p).isSome := by
  cases hchange with
  | quiet hdb =>
    rw [hdb]
    exact .inl fun _ => rfl
  | initiated => cases hc
  | @settled _ pc t hw hseen _ hsettled =>
    obtain rfl := Option.some.inj ((Call.subject_of_worker hw).symm.trans hc)
    refine .inr (.inr ⟨t, hseen, fun p hp => ?_⟩)
    obtain ⟨T, hfed, hupdated⟩ := hsettled.feed
    rw [hp] at hupdated
    obtain ⟨row, hrow, -⟩ := hupdated
    unfold CreditFed at hfed
    split at hfed
    · obtain ⟨row', -, -, -, hcreated⟩ := hfed
      rw [hcreated.lookup] at hrow
      split at hrow
      · rename_i hpid
        obtain ⟨hsettledId, hinflowId⟩ := draws_of_worker hw
        rw [hpid, creditTxId]
        split
        · exact .inl hsettledId
        · exact .inl hinflowId
      · rw [hrow]
        exact .inr rfl
    · rw [← hfed, hrow]
      exact .inr rfl
  | reopened _ _ _ hreset => exact .inl fun a => hreset.balance a
  | approved _ _ _ _ hstamp => exact .inl fun a => hstamp.balance a
  | @rejected dc t _ hseen _ _ hrejected =>
    cases hc
    refine .inr (.inr ⟨t, hseen, fun p hp => .inr ?_⟩)
    have hupdated := hrejected.feed
    rw [hp] at hupdated
    obtain ⟨row, hrow, -⟩ := hupdated
    rw [hrow]
    rfl
  | @reversed rc => exact .inr (.inl ⟨rc, rfl⟩)
  | failed _ hstamp => exact .inl fun a => hstamp.balance a
  | adjusted hedit _ =>
    cases c with
    | patch | create | delete | hide | clearOverride | bulkShift => cases hc
    | _ => cases hedit

section Reset

variable {env : Env} {u : Uuid} {w₀ : World} {tr before : List (Step World HistoryCall)}
  {P : Pool World Error Answer HistoryCall} {y : Step World HistoryCall} {past : List World}
  {id : Uuid}

/-- A reset takes the pending transactions of the user's transfers away. -/
theorem reset_detaches {x : Step World HistoryCall} {later : List (Step World HistoryCall)}
    (hkept : Kept w₀ before x.pre.db) (hreset : Resets u x) (hclear : ResetClear u x later)
    (hid : InitiatedBefore u x id) : Detached x.post.db id := by
  obtain ⟨t, ht, huser⟩ := hid
  have hroot := hkept.rooted id t ht
  obtain ⟨-, -, ic, -, -, hp⟩ := hroot.born
  obtain ⟨acct, hacct, howner⟩ := hroot.owner
  refine ⟨t, ic.pendingTxId, ?_, hp, ?_, hclear.openWires id t ht huser⟩
  · rw [hreset.2]
    exact ht
  · rw [hreset.2]
    by_contra hsome
    obtain ⟨row, hrow⟩ := Option.ne_none_iff_exists'.1 hsome
    obtain ⟨hrow, hon⟩ := Table.lookup_deleteMany.1 hrow
    have haccount := hroot.onSource _ row hp hrow
    have hmem : t.fromAccountId ∈ accountsOf u x.pre.db :=
      mem_accountsOf.2 ⟨acct, hacct, howner.trans huser⟩
    simp only [onAccounts, haccount, hmem, decide_true] at hon
    cases hon

/-- What a later step does to a transfer without its pending transaction. -/
theorem Detached.step (hrun : Run (historyProgram env) (fun _ => True) w₀ tr P)
    (happart : DrawsApart tr) (hy : y ∈ tr) (hbefore : ∀ z ∈ before, z ∈ tr)
    (hkept : Kept w₀ before y.pre.db)
    (hstep : HistoryStep env (y.pre :: past) y.pre.db y.post.db y.call)
    (hreopen : ∀ t t', y.pre.db.transfers.lookup id = some t → t.kind ≠ .wireOut →
      t.status ≠ .pending → y.post.db.transfers.lookup id = some t' → t'.status ≠ .pending)
    (hdetached : Detached y.pre.db id) : Detached y.post.db id := by
  obtain ⟨t, p, ht, hp, hgone, hopen⟩ := hdetached
  obtain ⟨c', hrows, -⟩ := hstep.rowChange
  obtain ⟨t', ht', hterms⟩ := hrows.keep ht
  refine ⟨t', p, ht', ?_, ?_, fun hpending => ?_⟩
  · rw [pendingTransaction_of_terms hterms]
    exact hp
  · by_cases hdraw : p ∈ historyDraws y.call
    · rw [pending_not_drawn hrun happart hy hbefore (hkept.rooted id t ht) hstep ht hp hdraw]
      exact hgone
    · by_contra hsome
      obtain ⟨row', hrow'⟩ := Option.ne_none_iff_exists'.1 hsome
      obtain ⟨row, hrow, -⟩ := hstep.origin hdraw hrow'
      rw [hgone] at hrow
      cases hrow
  · rw [kind_of_terms hterms]
    by_contra hkind
    exact hreopen t t' ht hkind (fun hpending => hkind (hopen hpending)) ht' hpending

/-- A step on a transfer without its pending transaction moves no money, if it is not a
reversal. -/
theorem Detached.frozen (hrun : Run (historyProgram env) (fun _ => True) w₀ tr P)
    (happart : DrawsApart tr) (hy : y ∈ tr) (hbefore : ∀ z ∈ before, z ∈ tr)
    (hpast : visited w₀ before = y.pre :: past) (hkept : Kept w₀ before y.pre.db)
    (hstep : HistoryStep env (y.pre :: past) y.pre.db y.post.db y.call) {c : Call}
    (hc : y.call = .inl c) (hsubject : c.subject = some id)
    (hreverse : ∀ rc, c = .reverse rc → y.post.db = y.pre.db)
    (hdetached : Detached y.pre.db id) (a : Uuid) :
    y.post.db.balance a = y.pre.db.balance a := by
  obtain ⟨t, p, ht, hp, hgone, -⟩ := hdetached
  have hchange : Change env (y.pre :: past) y.pre.db y.post.db c := by
    rw [hc] at hstep
    exact hstep.1
  rcases hchange.needsRow hsubject with hbalance | ⟨rc, hrc⟩ | ⟨t₁, hseen, hneeds⟩
  · exact hbalance a
  · rw [hreverse rc hrc]
  · rw [← hpast] at hseen
    obtain ⟨t₂, ht₂, hterms⟩ := hkept.lineage y.pre past hpast id t₁ hseen
    obtain rfl := Option.some.inj (ht.symm.trans ht₂)
    have hp₁ : t₁.pendingTransactionId = some p := by
      rw [← pendingTransaction_of_terms hterms]
      exact hp
    rcases hneeds p hp₁ with hdraw | hsome
    · have hdraw' : p ∈ historyDraws y.call := by
        rw [hc]
        exact hdraw
      rw [pending_not_drawn hrun happart hy hbefore (hkept.rooted id t ht) hstep ht hp hdraw']
    · rw [hgone] at hsome
      cases hsome

/-- An open transfer without its pending transaction is a wire, which can be reversed. -/
theorem Detached.finishable {w : World} (hkept : Kept w₀ before w.db)
    (hdetached : Detached w.db id) {t : Transfer} (ht : w.db.transfers.lookup id = some t)
    (hpending : t.status = .pending) :
    ∃ (c : Call) (a : Answer) (w' : World), c.endsTransfer = true ∧ c.subject = some id ∧
      (program env 0 c).run w = (.ok a, w') ∧
      ∃ t', w'.db.transfers.lookup id = some t' ∧ t'.status ≠ .pending := by
  obtain ⟨t₁, p, ht₁, -, -, hopen⟩ := hdetached
  obtain rfl := Option.some.inj (ht.symm.trans ht₁)
  obtain ⟨acct, hacct, -⟩ := (hkept.rooted id t ht).owner
  obtain ⟨fresh, hfresh⟩ := exists_unused w.db.transactions
  obtain ⟨w', hrun, ht'⟩ := reverseWire_goes 0 (c := ⟨0, id, "", fresh, 0⟩) ht (hopen hpending)
    (by rw [hpending]; decide) (by rw [hacct]; rfl) hkept.chart hfresh
  refine ⟨.reverse ⟨0, id, "", fresh, 0⟩, none, w', rfl, rfl, ?_, _, ht', ?_⟩
  · show (silently _).run w = _
    rw [silently, Prog.run_bind, hrun]
    rfl
  · simp [stampReversed]

end Reset

/-- **A history reset and earlier transfers.** In every run from a bank without transfers, with
resets among the calls on transfers and transactions, and every call drawing ids of its own: a
reset of a user whose open transfers are all wires, with none of the user's earlier wires reversed
later and none of the user's other earlier transfers opened again, is final. No later step on one
of these transfers changes a balance of the user, and those that are open can be ended. -/
theorem reset_final (env : Env) (w₀ : World)
    (hseeds : ∀ s ∈ systemLedgerSeeds, (w₀.db.ledgerAccounts.lookup s.1).isSome)
    (hstart : ∀ id, w₀.db.transfers.lookup id = none)
    (later earlier : List (Step World HistoryCall)) (x : Step World HistoryCall)
    (P : Pool World Error Answer HistoryCall)
    (hrun : Run (historyProgram env) (fun _ => True) w₀ (later ++ x :: earlier) P)
    (happart : DrawsApart (later ++ x :: earlier)) (u : Uuid) (hreset : Resets u x)
    (hclear : ResetClear u x later) : ResetFinal env u x later P.state := by
  obtain ⟨hsteps, hframes⟩ := history_steps hrun
  have hkept : ∀ {before : List (Step World HistoryCall)}, (history env).Steps w₀ before →
      (∀ z ∈ before, z ∈ later ++ x :: earlier) →
      ∀ w past, visited w₀ before = w :: past → Kept w₀ before w.db :=
    fun hbefore hmem => history_kept hrun happart (charted_seeds hseeds) hstart hbefore hmem
  obtain ⟨hearlier, past, hpast, -⟩ := hsteps.split
  have hxkept := hkept hearlier (by simp +contextual) x.pre past hpast
  -- from the reset on, the earlier transfers of the user are without their pending transactions
  have hdetached := fun id (hid : InitiatedBefore u x id) =>
    hsteps.after (I := fun w => Detached w.db id) (reset_detaches hxkept hreset hclear hid)
      fun y mid past hy hmid hpast hmem hguar hpre =>
        Detached.step hrun happart (List.mem_append_left _ hy) hmem (hkept hmid hmem _ _ hpast)
          (historyStep_of_guar hguar (hframes y (List.mem_append_left _ hy)))
          (fun t t' ht hkind hstatus ht' =>
            hclear.noReopening y hy id t t' hid ht hkind hstatus ht') hpre
  refine ⟨?_, ?_⟩
  · intro id hid y hy c hc hsubject a acct _ _
    obtain ⟨l, mid, rfl⟩ := List.append_of_mem hy
    have hsplit := hsteps
    rw [List.append_assoc, List.cons_append] at hsplit
    obtain ⟨hmid, past', hpast', hguar⟩ := hsplit.split
    have hmem : ∀ z ∈ mid ++ x :: earlier, z ∈ l ++ y :: mid ++ x :: earlier := by
      intro z hz
      rw [List.append_assoc, List.cons_append]
      exact List.mem_append_right _ (List.mem_cons_of_mem _ hz)
    have hytr : y ∈ l ++ y :: mid ++ x :: earlier := List.mem_append_left _ hy
    rw [hpast'] at hguar
    refine Detached.frozen hrun happart hytr hmem hpast' (hkept hmid hmem _ _ hpast')
      (historyStep_of_guar hguar (hframes y hytr)) hc hsubject ?_ ((hdetached id hid).1 y hy) a
    rintro rc rfl
    cases hsubject
    exact hclear.noReversal y hy rc hc hid
  · intro id hid t ht hpending
    obtain ⟨past', hlast⟩ := hrun.visited_eq
    have hnewest : ∃ s past'', visited x.post later = s :: past'' ∧ s = P.state := by
      cases hvisited : visited x.post later with
      | nil => simp [visited] at hvisited
      | cons s past'' =>
        rw [visited_from, hvisited] at hlast
        exact ⟨s, past'', rfl, (List.cons.inj hlast).1⟩
    obtain ⟨s, past'', hs, rfl⟩ := hnewest
    exact Detached.finishable (hkept hsteps (fun _ hz => hz) _ _ hlast)
      ((hdetached id hid).2 _ _ hs) ht hpending

/-- A schedule that takes calls one after the other, with resets among them. -/
def historyOneByOne (cs : List HistoryCall) : List (Choice HistoryCall) :=
  (cs.zipIdx.map fun c => Choice.call c.1 :: List.replicate 16 (Choice.step c.2)).flatten

/-- An admin resets the history of Ann. -/
def sampleReset : HistoryCall := .inr ⟨9, 1, "demo"⟩

/-- Ann's payment of 20.00 to Bob settles and she wires 30.00; her history is reset, and the
payment is settled once more. -/
def sampleResetSettled : List (Choice HistoryCall) :=
  historyOneByOne [.inl (.initiate (samplePay .p2p 20 100 2000 false)),
    .inl (.process (sampleSettle 100 200)), .inl (.initiate (samplePay .wireOut 20 110 3000 false)),
    sampleReset, .inl (.process (sampleSettle 100 300))]

/-- The step of a reset that empties an account. -/
theorem resets_of_balance {env : Env} {w₀ : World} {tr : List (Step World HistoryCall)}
    {P : Pool World Error Answer HistoryCall} {x : Step World HistoryCall} {c : ResetCall}
    (hrun : Run (historyProgram env) (fun _ => True) w₀ tr P) (hx : x ∈ tr)
    (hc : x.call = .inr c) {a : Uuid} (ha : x.post.db.balance a ≠ x.pre.db.balance a) :
    Resets c.targetUserId x := by
  rcases reset_step hrun hx hc with hdb | hreset
  · rw [hdb] at ha
    exact absurd rfl ha
  · exact hreset

/-- The call is a reset of Ann's history. -/
def resetsAnn (c : HistoryCall) : Bool :=
  match c with
  | .inr c => c.targetUserId = 1
  | .inl _ => false

theorem call_of_resetsAnn {c : HistoryCall} (h : resetsAnn c = true) :
    ∃ c', c = .inr c' ∧ c'.targetUserId = 1 := by
  cases c with
  | inl c => cases h
  | inr c => exact ⟨c, rfl, of_decide_eq_true h⟩

theorem reset_final_sample :
    ∃ x later, x ∈ (exec (historyProgram sampleEnv) sampleWorld sampleResetSettled).1 ∧
      Resets 1 x ∧ later ≠ [] ∧ ResetFinal sampleEnv 1 x later
        (exec (historyProgram sampleEnv) sampleWorld sampleResetSettled).2.state := by
  have hrun : Run (historyProgram sampleEnv) (fun _ => True) sampleWorld _ _ :=
    exec_run sampleResetSettled fun _ _ => trivial
  -- of the 33 steps, newest first, the reset is number 2
  have hreset : ((exec (historyProgram sampleEnv) sampleWorld sampleResetSettled).1[2]?).any
      fun x => resetsAnn x.call && x.post.db.balance 10 ≠ x.pre.db.balance 10 &&
        x.pre.db.transfers.entries.all fun e => e.2.status ≠ .pending || e.2.kind = .wireOut := by
    decide +kernel
  have hlater : ∀ y ∈ (exec (historyProgram sampleEnv) sampleWorld sampleResetSettled).1.take 2,
      y.post.db.transfers.entries = y.pre.db.transfers.entries ∧
        (match y.call with | .inl (.reverse _) => false | _ => true) = true := by
    decide +kernel
  have happart : DrawsApart (exec (historyProgram sampleEnv) sampleWorld sampleResetSettled).1 := by
    unfold DrawsApart
    decide +kernel
  obtain ⟨x, hx, hcheck⟩ := (Option.any_eq_true _ _).1 hreset
  simp only [Bool.and_eq_true, decide_eq_true_eq] at hcheck
  obtain ⟨⟨hann, hbalance⟩, hwires⟩ := hcheck
  obtain ⟨c, hc, htarget⟩ := call_of_resetsAnn hann
  have hmem := List.mem_of_getElem? hx
  have hresets := resets_of_balance hrun hmem hc hbalance
  rw [htarget] at hresets
  have hclear : ResetClear 1 x
      ((exec (historyProgram sampleEnv) sampleWorld sampleResetSettled).1.take 2) := by
    refine ⟨fun id t ht _ hpending => ?_, fun y hy rc hrc _ => ?_, ?_⟩
    · have hwire := List.all_eq_true.1 hwires ⟨id, t⟩ (Table.mem_entries_iff.2 ht)
      simpa [hpending] using hwire
    · have hcall := (hlater y hy).2
      rw [hrc] at hcall
      cases hcall
    · intro y hy id t t' _ ht _ hstatus ht'
      rw [AList.ext (hlater y hy).1, ht] at ht'
      cases ht'
      exact hstatus
  have hne : (exec (historyProgram sampleEnv) sampleWorld sampleResetSettled).1.take 2 ≠ [] := by
    decide +kernel
  rw [eq_take_cons_drop hx] at hrun happart
  exact ⟨x, _, hmem, hresets, hne, reset_final sampleEnv sampleWorld (by decide) (fun _ => rfl) _ _
    x _ hrun happart 1 hresets hclear⟩

/-- Ann wires 20.00, her history is reset, and the wire is reversed. -/
def sampleResetReversed : List (Choice HistoryCall) :=
  historyOneByOne [.inl (.initiate (samplePay .wireOut 20 100 2000 false)), sampleReset,
    .inl (.reverse (sampleReverse 100 300))]

/-- After the reset Ann gets 24.60 out of a wire from before it. -/
theorem refunded_after_reset :
    ¬ ∀ (env : Env) (w₀ : World),
        (∀ s ∈ systemLedgerSeeds, (w₀.db.ledgerAccounts.lookup s.1).isSome) →
        (∀ id, w₀.db.transfers.lookup id = none) →
        ∀ (later earlier : List (Step World HistoryCall)) (x : Step World HistoryCall)
          (P : Pool World Error Answer HistoryCall),
        Run (historyProgram env) (fun _ => True) w₀ (later ++ x :: earlier) P →
        DrawsApart (later ++ x :: earlier) → ∀ u, Resets u x →
        ResetFinal env u x later P.state := by
  intro h
  have hrun : Run (historyProgram sampleEnv) (fun _ => True) sampleWorld _ _ :=
    exec_run sampleResetReversed fun _ _ => trivial
  -- of the 20 steps, newest first, the reset is number 8 and the reversal number 5
  have hreset : ((exec (historyProgram sampleEnv) sampleWorld sampleResetReversed).1[8]?).any
      fun x => resetsAnn x.call && x.post.db.balance 10 ≠ x.pre.db.balance 10 &&
        (x.pre.db.transfers.lookup 100).any fun t => t.initiatedByUserId = 1 := by
    decide +kernel
  have hreversal : (((exec (historyProgram sampleEnv) sampleWorld
      sampleResetReversed).1.take 8)[5]?).any fun y =>
        (match y.call with | .inl (.reverse rc) => rc.transferId = 100 | _ => false) &&
        y.post.db.balance 10 ≠ y.pre.db.balance 10 &&
        (y.pre.db.accounts.lookup 10).any fun acct => acct.userId = 1 := by
    decide +kernel
  have happart : DrawsApart (exec (historyProgram sampleEnv) sampleWorld
      sampleResetReversed).1 := by
    unfold DrawsApart
    decide +kernel
  obtain ⟨x, hx, hcheck⟩ := (Option.any_eq_true _ _).1 hreset
  obtain ⟨y, hy, hycheck⟩ := (Option.any_eq_true _ _).1 hreversal
  simp only [Bool.and_eq_true, decide_eq_true_eq, Option.any_eq_true] at hcheck hycheck
  obtain ⟨⟨hann, hbalance⟩, t, ht, huser⟩ := hcheck
  obtain ⟨⟨hycall, hybalance⟩, acct, hacct, howner⟩ := hycheck
  obtain ⟨c, hc, htarget⟩ := call_of_resetsAnn hann
  have hresets := resets_of_balance hrun (List.mem_of_getElem? hx) hc hbalance
  rw [htarget] at hresets
  rw [eq_take_cons_drop hx] at hrun happart
  have hfinal := h sampleEnv sampleWorld (by decide) (fun _ => rfl) _ _ x _ hrun happart 1 hresets
  split at hycall
  · rename_i rc hrc
    exact hybalance (hfinal.frozen 100 ⟨t, ht, huser⟩ y (List.mem_of_getElem? hy) _ hrc
      (congrArg some (of_decide_eq_true hycall)) 10 acct hacct howner)
  · cases hycall

end BankDemo
