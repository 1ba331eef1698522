import BankDemo.System.Rows

/-!
# The review gate

A transfer that requires a review settles only after an approval. The worker checks the row as it
was read, but an approval is never taken back to nothing and the flag is never cleared, so a stale
row that shows an approval proves that one was written before (`approved_before`).

* `review_gate`: the gate holds in every interleaving.
-/

namespace BankDemo

open Ledger Transfers Admin

/-! ## Steps that settle -/

/-- The change is a settlement of transfer `id`, which was seen as one that may settle. -/
def Settles (h : List World) (db db' : Db) (c : Call) (id : Uuid) : Prop :=
  ∃ pc t, c.worker = some pc ∧ pc.transferId = id ∧ Seen h id t ∧ settleable t = true ∧
    Settled pc t db db'

/-- Only a settlement writes a settle entry. -/
theorem Change.settles_of_entry {env : Env} {h : List World} {db db' : Db} {c : Call}
    (hchange : Change env h db db' c) {id : Uuid}
    (hentry : db'.entriesOf (.settle id) ≠ db.entriesOf (.settle id)) : Settles h db db' c id := by
  cases hchange with
  | quiet hdb => exact absurd (by rw [hdb]) hentry
  | initiated _ _ hinit => exact absurd (hinit.booked.entriesOf_ne (by simp)) hentry
  | @settled _ pc t hc hseen hs hsettled =>
    by_cases hid : pc.transferId = id
    · subst hid
      exact ⟨pc, t, hc, rfl, hseen, hs, hsettled⟩
    · exact absurd (hsettled.booked.entriesOf_ne (by simpa using hid)) hentry
  | reopened _ _ _ hreset => exact absurd (hreset.entriesOf _) hentry
  | approved _ _ _ _ hstamp => exact absurd (hstamp.entriesOf _) hentry
  | rejected _ _ _ _ hrej => exact absurd (hrej.refunded.booked.entriesOf_ne (by simp)) hentry
  | reversed _ _ _ hrev => exact absurd (hrev.refunded.booked.entriesOf_ne (by simp)) hentry
  | failed _ hstamp => exact absurd (hstamp.entriesOf _) hentry
  | @adjusted _ a d _ _ hadj =>
    by_cases hd : d = 0
    · exact absurd (by rw [Db.entriesOf, (hadj.zero hd).2.2]; rfl) hentry
    · exact absurd ((hadj.nonzero hd).2.entriesOf_ne (by simp)) hentry

/-- The status of transfer `id`. -/
def Db.statusOf (db : Db) (id : Uuid) : Option TransactionStatus :=
  (db.transfers.lookup id).map Transfer.status

/-- A stamp that does not set the status to posted makes no transfer posted. -/
theorem posted_of_stamp {id id' : Uuid} {f : Transfer → Transfer} {T T' : Table Uuid Transfer}
    (h : Table.UpdatedMany id' f T T') (hf : ∀ t, (f t).status = .posted → t.status = .posted)
    (hposted : (T'.lookup id).map Transfer.status = some .posted) :
    (T.lookup id).map Transfer.status = some .posted := by
  rw [h.lookup] at hposted
  split at hposted
  · cases ht : T.lookup id with
    | none => simp [ht] at hposted
    | some t =>
      simp only [ht, Option.map_some, Option.some.injEq] at hposted ⊢
      exact hf t hposted
  · exact hposted

theorem posted_of_restamped {id id' : Uuid} {f : Transfer → Transfer} {db db' : Db}
    (h : Restamped id' f db db') (hf : ∀ t, (f t).status = .posted → t.status = .posted)
    (hposted : db'.statusOf id = some .posted) : db.statusOf id = some .posted := by
  obtain ⟨T, rfl, hT⟩ := h
  exact posted_of_stamp hT hf hposted

/-- Only a settlement sets the status to posted. -/
theorem Change.settles_of_posted {env : Env} {h : List World} {db db' : Db} {c : Call}
    (hchange : Change env h db db' c) {id : Uuid} (hbefore : db.statusOf id ≠ some .posted)
    (hafter : db'.statusOf id = some .posted) : Settles h db db' c id := by
  cases hchange with
  | quiet hdb =>
    rw [hdb] at hafter
    exact absurd hafter hbefore
  | @initiated ic t hadmitted _ hinit =>
    rw [Db.statusOf, hinit.transfers.lookup] at hafter
    split at hafter
    · obtain ⟨s, fx, toAccount, -, -, rfl⟩ := hadmitted.row
      cases hafter
    · exact absurd hafter hbefore
  | @settled _ pc t hc hseen hs hsettled =>
    by_cases hid : id = pc.transferId
    · subst hid
      exact ⟨pc, t, hc, rfl, hseen, hs, hsettled⟩
    · rw [Db.statusOf, hsettled.transfers.lookup, if_neg hid] at hafter
      exact absurd hafter hbefore
  | reopened _ _ _ hreset =>
    refine absurd (posted_of_restamped hreset (fun t ht => ?_) hafter) hbefore
    cases ht
  | approved hc _ _ _ hstamp =>
    obtain ⟨_, _, _, rfl⟩ := approval_stamp hc
    exact absurd (posted_of_restamped hstamp (fun t ht => ht) hafter) hbefore
  | rejected _ _ _ _ hrej =>
    refine absurd (posted_of_stamp hrej.transfers (fun t ht => ?_) hafter) hbefore
    cases ht
  | reversed _ _ _ hrev =>
    refine absurd (posted_of_stamp (.inl hrev.transfers) (fun t ht => ?_) hafter) hbefore
    cases ht
  | failed _ hstamp =>
    refine absurd (posted_of_restamped hstamp (fun t ht => ?_) hafter) hbefore
    cases ht
  | adjusted _ hadj =>
    rw [Db.statusOf, hadj.transfers] at hafter
    exact absurd hafter hbefore

/-- Among the calls that settle, only a settlement moves a balance. -/
theorem Change.settles_of_credit {env : Env} {h : List World} {db db' : Db} {c : Call}
    (hchange : Change env h db db' c) {pc : ProcessCall} (hc : c.worker = some pc) {a : Uuid}
    (hbalance : db'.balance a ≠ db.balance a) : Settles h db db' c pc.transferId := by
  cases hchange with
  | quiet hdb => exact absurd (by rw [hdb]) hbalance
  | initiated => cases hc
  | @settled _ pc' t hc' hseen hs hsettled =>
    obtain rfl := Option.some.inj (hc.symm.trans hc')
    exact ⟨pc, t, hc, rfl, hseen, hs, hsettled⟩
  | reopened _ _ _ hreset => exact absurd (hreset.balance a) hbalance
  | approved _ _ _ _ hstamp => exact absurd (hstamp.balance a) hbalance
  | rejected hd =>
    simp [Call.worker, hd] at hc
  | reversed => cases hc
  | failed _ hstamp => exact absurd (hstamp.balance a) hbalance
  | adjusted hedit _ =>
    rw [Call.worker_of_isEdit hedit] at hc
    cases hc

/-! ## Approvals -/

/-- The step writes the decision that approves transfer `id`. -/
def WritesApproval (id : Uuid) (x : Step World Call) : Prop :=
  (∀ t, x.pre.db.transfers.lookup id = some t → t.reviewDecision ≠ some .approved) ∧
    ∃ t, x.post.db.transfers.lookup id = some t ∧ t.reviewDecision = some .approved

/-- A row that was seen as approved was approved by a step of the run. -/
theorem approved_before {env : Env} {w₀ : World} {tr : List (Step World Call)}
    (hsteps : (system env).Steps w₀ tr)
    (hstart : ∀ id t, w₀.db.transfers.lookup id = some t → t.reviewDecision ≠ some .approved)
    {id : Uuid} {t : Transfer} (ht : Seen (visited w₀ tr) id t)
    (happroved : t.reviewDecision = some .approved) : ∃ y ∈ tr, WritesApproval id y := by
  induction hsteps generalizing t with
  | nil =>
    obtain ⟨w, hw, ht⟩ := ht
    obtain rfl := List.mem_singleton.1 hw
    exact absurd happroved (hstart id t ht)
  | @cons tr x past steps hpre hx ih =>
    have hold : (∃ t, Seen (visited w₀ tr) id t ∧ t.reviewDecision = some .approved) →
        ∃ y ∈ x :: tr, WritesApproval id y := by
      rintro ⟨t', ht', happroved'⟩
      obtain ⟨y, hy, hwrites⟩ := ih ht' happroved'
      exact ⟨y, List.mem_cons_of_mem _ hy, hwrites⟩
    obtain ⟨w, hw, ht⟩ := ht
    rcases List.mem_cons.1 hw with rfl | hw
    · -- the row after the step: approved before it, or by it
      by_cases hbefore : ∀ t, x.pre.db.transfers.lookup id = some t →
          t.reviewDecision ≠ some .approved
      · exact ⟨x, List.mem_cons_self, hbefore, t, ht, happroved⟩
      · push Not at hbefore
        obtain ⟨t', ht', happroved'⟩ := hbefore
        exact hold ⟨t', ⟨x.pre, by rw [hpre]; exact List.mem_cons_self, ht'⟩, happroved'⟩
    · exact hold ⟨t, ⟨w, hw, ht⟩, happroved⟩

/-! ## The gate -/

/-- The step writes a settlement of transfer `id`: an entry, the status or a credit. -/
def WritesSettlement (id : Uuid) (x : Step World Call) : Prop :=
  x.post.db.entriesOf (.settle id) ≠ x.pre.db.entriesOf (.settle id) ∨
    (x.pre.db.statusOf id ≠ some .posted ∧ x.post.db.statusOf id = some .posted) ∨
    ((∃ pc, x.call.worker = some pc ∧ pc.transferId = id) ∧
      ∃ a, x.post.db.balance a ≠ x.pre.db.balance a)

theorem settles_of_writes {env : Env} {h : List World} {id : Uuid} {x : Step World Call}
    (hchange : Change env h x.pre.db x.post.db x.call) (hwrites : WritesSettlement id x) :
    Settles h x.pre.db x.post.db x.call id := by
  rcases hwrites with hentry | ⟨hbefore, hafter⟩ | ⟨⟨pc, hc, rfl⟩, a, hbalance⟩
  · exact hchange.settles_of_entry hentry
  · exact hchange.settles_of_posted hbefore hafter
  · exact hchange.settles_of_credit hc hbalance

/-- **Review gate.** In every interleaving of the calls, from a store without approved transfers:
outbound wires, transfers to linked accounts and payments from the threshold on are created with
the flag; the flag is never cleared; and for a transfer with the flag nothing of a settlement is
written before a step that writes its approval. -/
theorem review_gate (env : Env) (w₀ : World)
    (hstart : ∀ id t, w₀.db.transfers.lookup id = some t → t.reviewDecision ≠ some .approved)
    (tr : List (Step World Call)) (P : Pool World Error Answer Call)
    (hrun : Run (program env) (fun _ => True) w₀ tr P) :
    (∀ x ∈ tr, ∀ id t, x.pre.db.transfers.lookup id = none →
      x.post.db.transfers.lookup id = some t →
      (t.kind = .wireOut ∨ t.kind = .achOut ∨
        (t.kind = .p2p ∧ env.cfg.reviewThresholdCents ≤ t.amountCents)) →
      t.requiresReview = true) ∧
    (∀ x ∈ tr, ∀ id t, x.pre.db.transfers.lookup id = some t → t.requiresReview = true →
      ∃ t', x.post.db.transfers.lookup id = some t' ∧ t'.requiresReview = true) ∧
    ∀ later x earlier, tr = later ++ x :: earlier → ∀ id t,
      x.post.db.transfers.lookup id = some t → t.requiresReview = true →
      WritesSettlement id x → ∃ y ∈ earlier, WritesApproval id y := by
  refine ⟨fun x hx id t hnone ht hkind => ?_, fun x hx id t ht hflag => ?_, ?_⟩
  · obtain ⟨past, -, hchange⟩ := step_change hrun.steps hx
    rcases hchange.rowChange.origin ht with ⟨t₀, ht₀, -⟩ | ⟨ic, -, -, hadmitted⟩
    · rw [hnone] at ht₀
      cases ht₀
    · obtain ⟨s, fx, toAccount, -, -, rfl⟩ := hadmitted.row
      simp only [newTransfer] at hkind ⊢
      rcases hkind with hkind | hkind | ⟨hkind, hamount⟩
      · simp [requiresReview, hkind]
      · simp [requiresReview, hkind]
      · simp [requiresReview, hkind, hamount]
  · obtain ⟨past, -, hchange⟩ := step_change hrun.steps hx
    obtain ⟨t', ht', hterms⟩ := hchange.rowChange.keep ht
    exact ⟨t', ht', by rw [requiresReview_of_terms hterms, hflag]⟩
  · rintro later x earlier rfl id t ht hflag hwrites
    obtain ⟨hsteps, past, hpast, hchange⟩ := steps_split hrun.steps
    obtain ⟨pc, t₀, -, rfl, hseen, hs, hsettled⟩ := settles_of_writes hchange hwrites
    -- the row that was seen has the flag too, so it was approved
    obtain ⟨t₁, ht₁, hterms₁⟩ := steps_lineage hsteps x.pre past hpast _ _ hseen
    obtain ⟨t₂, ht₂, hterms₂⟩ := hchange.rowChange.keep ht₁
    obtain rfl := Option.some.inj (ht.symm.trans ht₂)
    have hflag₀ : t₀.requiresReview = true := by
      rw [← requiresReview_of_terms hterms₁, ← requiresReview_of_terms hterms₂, hflag]
    exact approved_before hsteps hstart hseen (approved_of_settleable hs hflag₀)

/-- A wire of 20.00, and its approval, which settles it. -/
def sampleApproval : List (Choice Call) :=
  oneByOne [.initiate (samplePay .wireOut 20 100 2000 false), .approve (sampleApprove 100 200)]

theorem review_gate_approval :
    (exec (program sampleEnv) sampleWorld sampleApproval).2.state.db.statusOf 100 = some .posted ∧
      ∀ later x earlier,
        (exec (program sampleEnv) sampleWorld sampleApproval).1 = later ++ x :: earlier →
        ∀ id t, x.post.db.transfers.lookup id = some t → t.requiresReview = true →
          WritesSettlement id x → ∃ y ∈ earlier, WritesApproval id y :=
  ⟨by decide +kernel, (review_gate sampleEnv sampleWorld
    (fun id t ht => absurd ht (sample_no_transfers id t)) _ _
    (exec_run sampleApproval fun _ _ => trivial)).2.2⟩

end BankDemo
