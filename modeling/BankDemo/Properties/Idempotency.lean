import BankDemo.System.Rows

/-!
# Idempotency keys

Calls of `initiate` with one key may all pass the replay check, but the row of the transfer is
created by the last write of the transaction that debits the sender, and the key is unique: the
second transaction fails as a whole. Rows are never deleted and keep their key, so once there is
a row for a key, no call with it changes anything.

* `initiate_idempotent`: the effect of any number of calls with one key, in every interleaving.
-/

namespace BankDemo

open Ledger Transfers Admin

/-- The rows have distinct keys: the unique constraint of the schema. -/
def KeysUnique (db : Db) : Prop :=
  ∀ id id' t t', db.transfers.lookup id = some t → db.transfers.lookup id' = some t' →
    t.idempotencyKey = t'.idempotencyKey → id = id'

/-- The row of a key that was not found is not there. -/
theorem key_ne_of_fresh {T : Table Uuid Transfer} {k : String}
    (h : (T.findRow fun x => x.idempotencyKey = k) = none) {id : Uuid} {t : Transfer}
    (ht : T.lookup id = some t) : t.idempotencyKey ≠ k :=
  of_decide_eq_false (Table.findRow_none h ht)

/-- A new row is of a call of `initiate`, under a key that no row had. -/
theorem RowChange.new_row {env : Env} {T T' : Table Uuid Transfer} {c : Call}
    (h : RowChange env T T' c) {id : Uuid} {t : Transfer} (hnone : T.lookup id = none)
    (ht : T'.lookup id = some t) : (∃ ic, c = .initiate ic ∧ Admitted env ic t) ∧
      ∀ id' t', T.lookup id' = some t' → t'.idempotencyKey ≠ t.idempotencyKey := by
  cases h with
  | same h => simp [h, hnone] at ht
  | @created ic t' hc hadmitted hfresh h =>
    rw [h.lookup, hnone] at ht
    split at ht
    · cases ht
      exact ⟨⟨ic, hc, hadmitted⟩, fun id' t' ht' => key_ne_of_fresh hfresh ht'⟩
    · cases ht
  | stamped h hf => simp [h.lookup, hnone] at ht

theorem RowChange.keysUnique {env : Env} {db db' : Db} {c : Call}
    (h : RowChange env db.transfers db'.transfers c) (hkeys : KeysUnique db) : KeysUnique db' := by
  intro id id' t t' ht ht' hkey
  cases h with
  | same h =>
    rw [h] at ht ht'
    exact hkeys id id' t t' ht ht' hkey
  | @created ic s _ _ hfresh h =>
    rw [h.lookup] at ht ht'
    split at ht <;> split at ht'
    · rename_i hid hid'
      rw [hid, hid']
    · cases ht
      exact absurd hkey.symm (key_ne_of_fresh hfresh ht')
    · cases ht'
      exact absurd hkey (key_ne_of_fresh hfresh ht)
    · exact hkeys id id' t t' ht ht' hkey
  | @stamped id₀ f h hf =>
    have hold : ∀ {x y}, db'.transfers.lookup x = some y →
        ∃ z, db.transfers.lookup x = some z ∧ y.terms = z.terms := by
      intro x y hy
      rw [h.lookup] at hy
      split at hy
      · obtain ⟨z, hz, rfl⟩ := Option.map_eq_some_iff.1 hy
        exact ⟨z, hz, hf z⟩
      · exact ⟨y, hy, rfl⟩
    obtain ⟨s, hs, hterms⟩ := hold ht
    obtain ⟨s', hs', hterms'⟩ := hold ht'
    refine hkeys id id' s s' hs hs' ?_
    rw [← key_of_terms hterms, ← key_of_terms hterms', hkey]

theorem Admitted.key_user {env : Env} {ic : InitiateCall} {t : Transfer} (h : Admitted env ic t) :
    t.idempotencyKey = ic.idempotencyKey ∧ t.initiatedByUserId = ic.userId := by
  obtain ⟨s, fx, toAccount, -, -, rfl⟩ := h.row
  exact ⟨rfl, rfl⟩

/-- The step is the debit of a call with key `k`. -/
def DebitsFor (k : String) (x : Step World Call) : Prop :=
  ∃ ic, x.call = .initiate ic ∧ ic.idempotencyKey = k ∧ x.post.db ≠ x.pre.db

/-- What the debit of a call with key `k` is: the transaction of `initiate`, on a database without
the key. -/
theorem debit_initiated {env : Env} {h : List World} {k : String} {x : Step World Call}
    {ic : InitiateCall} (hchange : Change env h x.pre.db x.post.db x.call)
    (hc : x.call = .initiate ic) (hk : ic.idempotencyKey = k) (hne : x.post.db ≠ x.pre.db) :
    ∃ t, t.idempotencyKey = k ∧ t.initiatedByUserId = ic.userId ∧
      Initiated ic t x.pre.db x.post.db ∧
      ∀ id t', x.pre.db.transfers.lookup id = some t' → t'.idempotencyKey ≠ k := by
  rw [hc] at hchange
  rcases hchange.of_initiate with hdb | ⟨t, hadmitted, hinit⟩
  · exact absurd hdb hne
  · obtain ⟨hkey, huser⟩ := hadmitted.key_user
    refine ⟨t, hkey.trans hk, huser, hinit, fun id t' ht' => ?_⟩
    have hfresh := key_ne_of_fresh hinit.fresh ht'
    rw [hkey, hk] at hfresh
    exact hfresh

section Run

variable {env : Env} {w₀ : World} {tr : List (Step World Call)}

theorem steps_keysUnique (hsteps : (system env).Steps w₀ tr) (hkeys : KeysUnique w₀.db) :
    ∀ w ∈ visited w₀ tr, KeysUnique w.db := by
  refine steps_invariant (I := fun h => ∀ w ∈ h, KeysUnique w.db) hsteps ?_ ?_
  · intro w hw
    obtain rfl := List.mem_singleton.1 hw
    exact hkeys
  · intro x _ past _ hI hchange w hw
    rcases List.mem_cons.1 hw with rfl | hw
    · exact hchange.rowChange.keysUnique (hI x.pre List.mem_cons_self)
    · exact hI w hw

/-- The row created by the debit of a call with key `k` is there in the end. -/
theorem debit_row (hsteps : (system env).Steps w₀ tr) {k : String} {x : Step World Call}
    (hx : x ∈ tr) {ic : InitiateCall} (hc : x.call = .initiate ic) (hk : ic.idempotencyKey = k)
    (hne : x.post.db ≠ x.pre.db) {w : World} {past : List World}
    (hw : visited w₀ tr = w :: past) : ∃ id t, w.db.transfers.lookup id = some t ∧
      t.idempotencyKey = k ∧ t.initiatedByUserId = ic.userId := by
  obtain ⟨past', hpast, hchange⟩ := step_change hsteps hx
  obtain ⟨t, hkey, huser, hinit, -⟩ := debit_initiated hchange hc hk hne
  have hpost : x.post.db.transfers.lookup ic.transferId = some t := by
    rw [hinit.transfers.lookup, if_pos rfl]
  have hseen : Seen (visited w₀ tr) ic.transferId t :=
    ⟨x.post, List.mem_append_left _ (List.mem_map_of_mem hx), hpost⟩
  obtain ⟨t', ht', hterms⟩ := steps_lineage hsteps w past hw _ _ hseen
  exact ⟨_, t', ht', (key_of_terms hterms).trans hkey, (user_of_terms hterms).trans huser⟩

/-- There are not two debits for one key. -/
theorem debit_once (hsteps : (system env).Steps w₀ tr) (k : String) :
    AtMostOnce (DebitsFor k) tr := by
  induction hsteps with
  | nil => exact .nil
  | @cons tr y past steps hpre hy ih =>
    refine List.pairwise_cons.2 ⟨fun x hx hdy hdx => ?_, ih⟩
    obtain ⟨ic, hc, hk, hne⟩ := hdx
    obtain ⟨ic', hc', hk', hne'⟩ := hdy
    -- the earlier debit left a row with the key, so that the later one finds it
    obtain ⟨id, t, ht, hkey, -⟩ := debit_row steps hx hc hk hne hpre
    obtain ⟨-, -, -, -, hfresh⟩ := debit_initiated (hy _ _ rfl).1 hc' hk' hne'
    exact hfresh id t ht hkey

end Run

/-- A call that finds its key used answers with the transfer to its own user, and refuses others;
it changes nothing. -/
theorem initiate_replay {env : Env} {me : ℕ} {ic : InitiateCall} {w : World} {id : Uuid}
    {t : Transfer} (hkeys : KeysUnique w.db) (ht : w.db.transfers.lookup id = some t)
    (hkey : t.idempotencyKey = ic.idempotencyKey) (hne : ic.idempotencyKey ≠ "")
    (henabled : ∀ u, w.db.users.lookup ic.userId = some u → u.transfersDisabled = false) :
    (initiate env me ic).run w = if t.initiatedByUserId = ic.userId then
      (.ok ⟨id, t.status, t.pendingTransactionId, t.feeCents, settleMs env t.instant, none⟩, w)
    else (.error (.conflict "Idempotency key already used by another user"), w) := by
  have hreplay : findByIdempotencyKey w.db ic.idempotencyKey = some (id, t) := by
    cases hfound : findByIdempotencyKey w.db ic.idempotencyKey with
    | none => exact absurd hkey (key_ne_of_fresh hfound ht)
    | some r =>
      obtain ⟨id', t'⟩ := r
      obtain ⟨ht', hkey'⟩ := Table.findRow_some hfound
      obtain rfl := hkeys id' id t' t ht' ht ((of_decide_eq_true hkey').trans hkey.symm)
      obtain rfl := Option.some.inj (ht'.symm.trans ht)
      rfl
  have huser : ((w.db.users.lookup ic.userId).map User.transfersDisabled).getD false = false := by
    cases hu : w.db.users.lookup ic.userId with
    | none => rfl
    | some u => exact henabled u hu
  simp only [initiate, query, replayed, hne, if_false, Prog.run_bind, Prog.run_read, huser,
    Bool.false_eq_true, hreplay]
  by_cases hown : t.initiatedByUserId = ic.userId
  · simp [hown]
  · simp [hown]

/-- A call of `initiate` has ended with an answer. -/
def Ended (P : Pool World Error Answer Call) (ic : InitiateCall) (a : Answer) : Prop :=
  ∃ i : ℕ, P.threads[i]? = some ⟨.initiate ic, .ret a⟩

/-- **Idempotency of `initiate`.** For every key, in every interleaving of calls, by any users and
with any requests:
* there is at most one transfer with the key, in every state visited;
* at most one step of the calls with the key changes the database, and this step is the
  transaction of `initiate`, with one entry, one pending transaction and one debit;
* a call with the key that ends without an error answers with the transfer of the key, which is
  one of its own user; from the moment there is a transfer with the key, no step of a call with
  the key changes the database;
* the calls by other users than that of the transfer do not end without an error, and none of
  their steps changes the database;
* a call that finds the transfer answers with it, or refuses another user, and changes nothing. -/
theorem initiate_idempotent (env : Env) (w₀ : World) (hkeys : KeysUnique w₀.db)
    (tr : List (Step World Call)) (P : Pool World Error Answer Call)
    (hrun : Run (program env) (fun _ => True) w₀ tr P) (k : String) :
    (∀ w ∈ visited w₀ tr, ∀ id id' t t', w.db.transfers.lookup id = some t →
      w.db.transfers.lookup id' = some t' → t.idempotencyKey = k → t'.idempotencyKey = k →
      id = id') ∧
    (AtMostOnce (DebitsFor k) tr ∧
      ∀ x ∈ tr, ∀ ic, x.call = .initiate ic → ic.idempotencyKey = k → x.post.db ≠ x.pre.db →
        ∃ t, t.idempotencyKey = k ∧ t.initiatedByUserId = ic.userId ∧
          Initiated ic t x.pre.db x.post.db) ∧
    ((∀ ic a, Ended P ic a → ic.idempotencyKey = k →
        ∃ res t, a = some res ∧ P.state.db.transfers.lookup res.transferId = some t ∧
          t.idempotencyKey = k ∧ t.initiatedByUserId = ic.userId) ∧
      ∀ x ∈ tr, ∀ ic id t, x.call = .initiate ic → ic.idempotencyKey = k →
        x.pre.db.transfers.lookup id = some t → t.idempotencyKey = k → x.post.db = x.pre.db) ∧
    (∀ id t, P.state.db.transfers.lookup id = some t → t.idempotencyKey = k →
      (∀ ic a, ic.idempotencyKey = k → ic.userId ≠ t.initiatedByUserId → ¬ Ended P ic a) ∧
      ∀ x ∈ tr, ∀ ic, x.call = .initiate ic → ic.idempotencyKey = k →
        ic.userId ≠ t.initiatedByUserId → x.post.db = x.pre.db) ∧
    ∀ w ∈ visited w₀ tr, ∀ me ic id t, w.db.transfers.lookup id = some t →
      t.idempotencyKey = k → ic.idempotencyKey = k → k ≠ "" →
      (∀ u, w.db.users.lookup ic.userId = some u → u.transfersDisabled = false) →
      (initiate env me ic).run w = if t.initiatedByUserId = ic.userId then
        (.ok ⟨id, t.status, t.pendingTransactionId, t.feeCents, settleMs env t.instant, none⟩, w)
      else (.error (.conflict "Idempotency key already used by another user"), w) := by
  have hunique := steps_keysUnique hrun.steps hkeys
  obtain ⟨past, hpast⟩ := hrun.visited_eq
  have hlast : KeysUnique P.state.db := hunique _ (by rw [hpast]; exact List.mem_cons_self)
  have hanswer : ∀ ic a, Ended P ic a → ic.idempotencyKey = k →
      ∃ res t, a = some res ∧ P.state.db.transfers.lookup res.transferId = some t ∧
        t.idempotencyKey = k ∧ t.initiatedByUserId = ic.userId := by
    rintro ic a ⟨i, hi⟩ hk
    have hpromise := hrun.outcome (system env) (fun i c h _ => program_follows env i c h)
      rely_refl hi
    obtain ⟨res, t, hres, hseen, hkey, huser⟩ := hpromise ic a rfl rfl
    obtain ⟨t', ht', hterms⟩ := steps_lineage hrun.steps _ past hpast _ _ hseen
    exact ⟨res, t', hres, ht', ((key_of_terms hterms).trans hkey).trans hk,
      (user_of_terms hterms).trans huser⟩
  refine ⟨fun w hw id id' t t' ht ht' hk hk' => hunique w hw id id' t t' ht ht' (hk.trans hk'.symm),
    ⟨debit_once hrun.steps k, ?_⟩, ⟨hanswer, ?_⟩, fun id t ht hk => ⟨?_, ?_⟩, ?_⟩
  · intro x hx ic hc hk hne
    obtain ⟨past', -, hchange⟩ := step_change hrun.steps hx
    obtain ⟨t, hkey, huser, hinit, -⟩ := debit_initiated hchange hc hk hne
    exact ⟨t, hkey, huser, hinit⟩
  · intro x hx ic id t hc hk ht hkey
    by_contra hne
    obtain ⟨past', -, hchange⟩ := step_change hrun.steps hx
    obtain ⟨-, -, -, -, hfresh⟩ := debit_initiated hchange hc hk hne
    exact hfresh id t ht hkey
  · intro ic a hic huser hended
    obtain ⟨res, t', -, ht', hkey', huser'⟩ := hanswer ic a hended hic
    obtain rfl := hlast id res.transferId t t' ht ht' (hk.trans hkey'.symm)
    obtain rfl := Option.some.inj (ht.symm.trans ht')
    exact huser huser'.symm
  · intro x hx ic hc hic huser
    by_contra hne
    obtain ⟨id', t', ht', hkey', huser'⟩ := debit_row hrun.steps hx hc hic hne hpast
    obtain rfl := hlast id id' t t' ht ht' (hk.trans hkey'.symm)
    obtain rfl := Option.some.inj (ht.symm.trans ht')
    exact huser huser'.symm
  · intro w hw me ic id t ht hkey hic hne henabled
    subst hic
    exact initiate_replay (hunique w hw) ht hkey hne henabled

/-- Two calls by Ann with one key, step by step in turn. -/
def sampleReplay : List (Choice Call) :=
  [.call (.initiate (samplePay .p2p 20 100 2000 false)),
    .call (.initiate { samplePay .p2p 20 110 3000 false with idempotencyKey := "key-100" })] ++
    (List.replicate 16 [Choice.step 0, Choice.step 1]).flatten

theorem initiate_idempotent_replay :
    (exec (program sampleEnv) sampleWorld sampleReplay).2.state.db.balance 10 = 498000 ∧
      AtMostOnce (DebitsFor "key-100") (exec (program sampleEnv) sampleWorld sampleReplay).1 :=
  ⟨by decide +kernel, (initiate_idempotent sampleEnv sampleWorld
    (fun id _ t _ ht => absurd ht (sample_no_transfers id t)) _ _
    (exec_run sampleReplay fun _ _ => trivial) "key-100").2.1.1⟩

end BankDemo
