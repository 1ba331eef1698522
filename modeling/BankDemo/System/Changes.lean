import BankDemo.System.Calls
import BankDemo.System.Initiate

/-!
# What the actions of the system do

`Change` lists all that an action of a call can do to the database: nothing, or one of the
movements of money, with the row of the transfer as the call saw it some time before. Together
with the respect for other threads' row locks it is the guarantee of the discipline `system`, which
every call follows in whatever company (`program_follows`). So every step of every interleaving of
calls is a `Change`, and the properties of interleavings are proved from there.
-/

namespace BankDemo

open Ledger Transfers Admin

/-- Only columns of one transfer were set. -/
def Restamped (id : Uuid) (f : Transfer → Transfer) (db db' : Db) : Prop :=
  ∃ T, db' = { db with transfers := T } ∧ Table.UpdatedMany id f db.transfers T

/-- What an action of a call can do to the database, after the worlds `h`. -/
inductive Change (env : Env) (h : List World) (db db' : Db) : Call → Prop
  | quiet {c : Call} (hdb : db' = db) : Change env h db db' c
  | initiated {c : InitiateCall} {t : Transfer} (hadmitted : Admitted env c t)
      (hfunds : t.amountCents + t.feeCents ≤ db.balance t.fromAccountId)
      (hinitiated : Initiated c t db db') : Change env h db db' (.initiate c)
  | settled {c : Call} {pc : ProcessCall} {t : Transfer} (hc : c.worker = some pc)
      (hseen : Seen h pc.transferId t) (hsettleable : settleable t = true)
      (hsettled : Settled pc t db db') : Change env h db db' c
  | reopened {c : Call} {fc : ForceSettleCall} {t : Transfer} (hc : c.force = some fc)
      (hseen : Seen h fc.transferId t) (hstatus : t.status ≠ .pending)
      (hreset : Restamped fc.transferId resetToPending db db') : Change env h db db' c
  | approved {c : Call} {id : Uuid} {f : Transfer → Transfer} {t : Transfer}
      (hc : c.approval = some (id, f)) (hseen : Seen h id t) (hreview : t.requiresReview = true)
      (hnew : t.reviewedAt = none) (hstamp : Restamped id f db db') : Change env h db db' c
  | rejected {c : DecideCall} {t : Transfer} (hc : c.decision = .rejected)
      (hseen : Seen h c.transferId t) (hreview : t.requiresReview = true)
      (hnew : t.reviewedAt = none) (hrejected : Rejected c t db db') :
      Change env h db db' (.decide c)
  | reversed {c : ReverseCall} {t : Transfer} (hseen : Seen h c.transferId t)
      (hkind : t.kind = .wireOut) (hstatus : t.status ≠ .reversed)
      (hreversed : Reversed c t db db') : Change env h db db' (.reverse c)
  | failed {c : Call} {id : Uuid} {reason : String} {now : Instant} (hc : c.failing = some id)
      (hstamp : Restamped id (stampFailed reason now) db db') : Change env h db db' c
  | adjusted {c : Call} {a : Uuid} {d : ℤ} {id : Uuid} (hc : c.isEdit = true)
      (hadjusted : Adjusted a d id db db') : Change env h db db' c

/-! ## The discipline -/

/-- What an action of thread `i` guarantees: it is a `Change`, and it keeps what others have
locked. -/
def guar (env : Env) (i : ℕ) (c : Call) (h : List World) (w' : World) : Prop :=
  ∀ w past, h = w :: past → Change env h w.db w'.db c ∧ ∀ j, j ≠ i → Keeps j w w'

/-- What a call promises about its answer: `initiate` answers with a transfer of its user under
its key. -/
def promise (c : Call) (h : List World) (r : Except Error Answer) : Prop :=
  ∀ ic a, c = .initiate ic → r = .ok a → ∃ res t, a = some res ∧ Seen h res.transferId t ∧
    t.idempotencyKey = ic.idempotencyKey ∧ t.initiatedByUserId = ic.userId

theorem promise_mono {c : Call} {h : List World} {w : World} {r : Except Error Answer}
    (hp : promise c h r) : promise c (w :: h) r := by
  intro ic a hc hr
  obtain ⟨res, t, ha, ht, hkey, huser⟩ := hp ic a hc hr
  exact ⟨res, t, ha, ht.mono fun _ hv => List.mem_cons_of_mem _ hv, hkey, huser⟩

/-- The discipline of the system. -/
def system (env : Env) : Discipline World Error Answer Call where
  rely := rely
  guar := guar env
  post := promise
  rely_trans := rely_trans
  rely_of_guar := fun hij hg => rely_own ((hg _ _ rfl).2 _ (Ne.symm hij))
  post_mono := promise_mono

/-! ## Rules for services -/

section Rules

variable {env : Env} {i : ℕ} {c : Call} {h : List World} {α β : Type}

instance : Idles i (guar env i c) where
  idle := by
    intro w w' past hdb hkeeps x px hx
    cases hx
    exact ⟨.quiet hdb, hkeeps⟩

/-- A transaction: it commits, as a `Change` on the rows it was to update, or nothing happens. -/
theorem follows_transaction {rows : List Uuid} {body : Tx α}
    {Q : List World → Except Error α → Prop}
    (hok : ∀ w past a db', rely i h (w :: past) → body w.db = .ok (a, db') →
      Change env (w :: past) w.db db' c ∧ (∀ x, x ∉ rows → db'.balance x = w.db.balance x) ∧
        Q ({ w with db := db' } :: w :: past) (.ok a))
    (herr : ∀ e h', rely i h h' → Q h' (.error e)) :
    (transaction i rows body).Follows (rely i) (guar env i c) Q h := by
  refine follows_commit (fun w past a db' hR hb => ?_) herr
  obtain ⟨hchange, hbalance, hQ⟩ := hok w past a db' hR hb
  refine ⟨hbalance, fun hkeeps x px hx => ?_, hQ⟩
  cases hx
  exact ⟨hchange, hkeeps⟩

end Rules

/-! ## The services follow the discipline -/

/-- The program follows the discipline as a part of the call `c`. -/
def Obeys (env : Env) (i : ℕ) (c : Call) {α : Type} (p : Service α) : Prop :=
  ∀ h, p.Follows (rely i) (guar env i c) (fun _ _ => True) h

section Services

variable {env : Env} {i : ℕ} {c : Call} {α β : Type}

theorem Quiet.obeys {p : Service α} (hp : Quiet p) : Obeys env i c p :=
  fun _ => hp.follows fun _ _ _ => trivial

theorem obeys_bind {p : Service α} {k : α → Service β} (hp : Obeys env i c p)
    (hk : ∀ a, Obeys env i c (k a)) : Obeys env i c (p >>= k) := by
  intro h
  refine Prog.follows_bind ((hp h).imp fun h' r _ => ?_)
  cases r with
  | ok a => exact hk a h'
  | error e => trivial

theorem obeys_tryCatch {p : Service α} {k : Error → Service α} (hp : Obeys env i c p)
    (hk : ∀ e, Obeys env i c (k e)) : Obeys env i c (tryCatch p k) := by
  intro h
  refine Prog.follows_tryCatch ((hp h).imp fun h' r _ => ?_)
  cases r with
  | ok a => trivial
  | error e => exact hk e h'

/-- A transaction that is a `Change` whatever the history. -/
theorem obeys_transaction {rows : List Uuid} {body : Tx α}
    (hok : ∀ h db a db', body db = .ok (a, db') →
      Change env h db db' c ∧ ∀ x, x ∉ rows → db'.balance x = db.balance x) :
    Obeys env i c (transaction i rows body) := by
  intro h
  refine follows_transaction (fun w past a db' _ hb => ?_) fun _ _ _ => trivial
  obtain ⟨hchange, hbalance⟩ := hok (w :: past) w.db a db' hb
  exact ⟨hchange, hbalance, trivial⟩

theorem process_obeys {pc : ProcessCall} (hc : c.worker = some pc) :
    Obeys env i c (process i pc) := by
  intro h
  refine follows_query fun w past _ => ?_
  cases ht : w.db.transfers.lookup pc.transferId with
  | none => exact Prog.follows_pure trivial
  | some t =>
    simp only
    split
    · rename_i hs
      refine Prog.follows_bind (follows_transaction (fun w' past' a db' hR hb => ?_) ?_)
      · have hsettled := settleTx_ok hb
        exact ⟨.settled hc (seen_of_read ht hR) hs hsettled,
          fun x hx => balance_of_credited? hsettled.balance hx,
          (quiet_announceSettled pc t).obeys _⟩
      · exact fun _ _ _ => trivial
    · exact Prog.follows_pure trivial

theorem restamped_of_update {id : Uuid} {f : Transfer → Transfer} {db : Db} {r : Unit × Db}
    (h : Tx.updateTransfer id f db = .ok r) : Restamped id f db r.2 := by
  obtain ⟨row, hrow, hr⟩ := Tx.updateTransfer_ok h
  exact ⟨_, hr, .inl ⟨row, hrow, rfl⟩⟩

theorem Restamped.balance {id : Uuid} {f : Transfer → Transfer} {db db' : Db}
    (h : Restamped id f db db') (x : Uuid) : db'.balance x = db.balance x := by
  obtain ⟨T, rfl, -⟩ := h
  rfl

theorem markFailed_obeys {id : Uuid} {reason : String} {now : Instant} (hc : c.failing = some id) :
    Obeys env i c (markFailed i id reason now) :=
  obeys_transaction fun _ _ _ _ hb =>
    have hstamp := restamped_of_update hb
    ⟨.failed hc hstamp, fun x _ => hstamp.balance x⟩

theorem runJob_obeys {pc : ProcessCall} : Obeys env i (.runJob pc) (runJob i pc) := by
  have hqueue : ∀ (f : Table Uuid Job → Table Uuid Job), Obeys env i (.runJob pc) (onQueue f) :=
    fun f => (quiet_onQueue f).obeys
  refine obeys_bind (Quiet.obeys (Prog.each_read _ fun _ => ⟨rfl, rfl⟩)) fun job => ?_
  cases job with
  | none => exact (quiet_pure ()).obeys
  | some job =>
    simp only
    split
    · exact (quiet_pure ()).obeys
    · refine obeys_tryCatch (obeys_bind (process_obeys rfl) fun _ => hqueue _) fun e => ?_
      refine obeys_bind (hqueue _) fun _ => ?_
      unfold onFailed
      split
      · exact obeys_tryCatch (markFailed_obeys rfl) fun _ => (quiet_pure ()).obeys
      · exact (quiet_pure ()).obeys

theorem forceSettle_obeys {fc : ForceSettleCall} (hc : c.force = some fc)
    (hw : c.worker = some fc.worker) : Obeys env i c (forceSettle i fc) := by
  intro h
  refine follows_query fun w past _ => ?_
  cases ht : w.db.transfers.lookup fc.transferId with
  | none => exact Prog.follows_throw trivial
  | some t =>
    have hagain : Obeys env i c (settleAgain i fc) := by
      unfold settleAgain
      split
      · exact (quiet_onQueue _).obeys
      · exact process_obeys hw
    refine Prog.follows_bind ?_
    unfold reopen
    split
    · exact Prog.follows_pure (hagain _)
    · rename_i hstatus
      refine follows_transaction (fun w' past' a db' hR hb => ?_) fun _ _ _ => trivial
      have hreset := restamped_of_update hb
      exact ⟨.reopened hc (seen_of_read ht hR) hstatus hreset, fun x _ => hreset.balance x,
        hagain _⟩

/-- The approval of a transfer that was read as not reviewed, and the settlement it asks for. -/
theorem approval_follows (fc : ForceSettleCall) {f : Transfer → Transfer} {t : Transfer}
    {w : World} {past : List World} {k : Unit → Service Unit}
    (hc : c.approval = some (fc.transferId, f))
    (ht : w.db.transfers.lookup fc.transferId = some t) (hreview : t.requiresReview = true)
    (hnew : t.reviewedAt = none) (hk : ∀ a, Obeys env i c (k a)) :
    (transaction i [] (Tx.executeUpdateTransfer fc.transferId f) >>= k).Follows (rely i)
      (guar env i c) (fun _ _ => True) (w :: w :: past) := by
  refine Prog.follows_bind (follows_transaction (fun w' past' a db' hR hb => ?_) ?_)
  · have hstamp : Restamped fc.transferId f w'.db db' := Tx.executeUpdateTransfer_ok hb
    exact ⟨.approved hc (seen_of_read ht hR) hreview hnew hstamp, fun x _ => hstamp.balance x,
      hk a _⟩
  · exact fun _ _ _ => trivial

theorem decideTransfer_obeys {dc : DecideCall} :
    Obeys env i (.decide dc) (decideTransfer i dc) := by
  intro h
  unfold decideTransfer
  split
  · exact Prog.follows_throw trivial
  · refine follows_query fun w past _ => ?_
    cases ht : w.db.transfers.lookup dc.transferId with
    | none => exact Prog.follows_throw trivial
    | some t =>
      simp only
      split
      · exact Prog.follows_throw trivial
      · rename_i hreview
        split
        · exact Prog.follows_throw trivial
        · rename_i hnew
          simp only [Bool.not_eq_true', Bool.not_eq_false] at hreview
          simp only [Option.isSome_iff_ne_none, not_not] at hnew
          unfold decideReviewable
          cases hd : dc.decision with
          | approved =>
            refine approval_follows dc.settle ?_ ht hreview hnew fun _ => ?_
            · simp only [Call.approval, hd, if_true]
              rfl
            · refine obeys_bind (quiet_emit _).obeys fun _ => ?_
              refine obeys_tryCatch (forceSettle_obeys ?_ ?_) fun _ => (quiet_pure ()).obeys
              · simp [Call.force, hd]
              · simp [Call.worker, hd]
          | rejected =>
            refine Prog.follows_bind (follows_transaction (fun w' past' a db' hR hb => ?_) ?_)
            · have hrejected := rejectTx_ok hb
              exact ⟨.rejected hd (seen_of_read ht hR) hreview hnew hrejected,
                fun x hx => balance_of_credited hrejected.refunded.balance hx,
                (quiet_announceRejected dc t).obeys _⟩
            · exact fun _ _ _ => trivial

theorem approveWire_obeys {ac : ApproveCall} : Obeys env i (.approve ac) (approveWire i ac) := by
  intro h
  refine follows_query fun w past _ => ?_
  cases ht : w.db.transfers.lookup ac.transferId with
  | none => exact Prog.follows_throw trivial
  | some t =>
    simp only
    split
    · exact Prog.follows_throw trivial
    · split
      · exact Prog.follows_throw trivial
      · rename_i hreview
        split
        · exact Prog.follows_throw trivial
        · rename_i hnew
          simp only [Bool.not_eq_true', Bool.not_eq_false] at hreview
          simp only [Option.isSome_iff_ne_none, not_not] at hnew
          refine approval_follows ac.settle rfl ht hreview hnew fun _ => ?_
          refine obeys_bind (obeys_tryCatch (forceSettle_obeys rfl rfl) fun _ =>
            (quiet_pure ()).obeys) fun _ => (quiet_emit _).obeys

theorem reverseWire_obeys {rc : ReverseCall} : Obeys env i (.reverse rc) (reverseWire i rc) := by
  intro h
  refine follows_query fun w past _ => ?_
  cases ht : w.db.transfers.lookup rc.transferId with
  | none => exact Prog.follows_throw trivial
  | some t =>
    simp only
    split
    · exact Prog.follows_throw trivial
    · rename_i hkind
      split
      · exact Prog.follows_throw trivial
      · rename_i hstatus
        refine Prog.follows_bind (follows_transaction (fun w' past' a db' hR hb => ?_) ?_)
        · have hreversed := reverseTx_ok hb
          exact ⟨.reversed (seen_of_read ht hR) (not_not.1 hkind) hstatus hreversed,
            fun x hx => balance_of_credited hreversed.refunded.balance hx,
            (quiet_afterReverse rc t).obeys _⟩
        · exact fun _ _ _ => trivial

/-! The edits of transactions. -/

theorem Adjusted.balance_ne {a : Uuid} {d : ℤ} {id : Uuid} {db db' : Db}
    (h : Adjusted a d id db db') {x : Uuid} (hx : x ∉ adjustedRows a d) :
    db'.balance x = db.balance x := by
  by_cases hd : d = 0
  · exact balance_of_accounts_eq (h.zero hd).1 x
  · rw [adjustedRows, if_neg hd] at hx
    exact balance_of_credited (h.nonzero hd).1 hx

theorem edit_obeys {a : Uuid} {d : ℤ} {id : Uuid} {body : Tx α} (hc : c.isEdit = true)
    (hbody : ∀ {db r}, body db = .ok r → Adjusted a d id db r.2) :
    Obeys env i c (transaction i (adjustedRows a d) body) :=
  obeys_transaction fun _ _ _ _ hb =>
    have hadjusted := hbody hb
    ⟨.adjusted hc hadjusted, fun _ hx => Adjusted.balance_ne hadjusted hx⟩

theorem upsert_obeys {id : Uuid} {f : TransactionOverride → TransactionOverride}
    {o : TransactionOverride} (hc : c.isEdit = true) :
    Obeys env i c (transaction i [] (Tx.upsertOverride id f o)) := by
  refine obeys_transaction fun h db a db' hb => ?_
  obtain ⟨T, O, hdb'⟩ := Tx.upsertOverride_ok hb
  simp only at hdb'
  subst hdb'
  have hadjusted : Adjusted 0 0 id db { db with transactions := T, overrides := O } :=
    ⟨fun _ => ⟨rfl, rfl, rfl⟩, fun hne => absurd rfl hne, rfl⟩
  exact ⟨.adjusted hc hadjusted, fun _ _ => rfl⟩

theorem patch_obeys {ec : EditCall} {dto : PatchDto} :
    Obeys env i (.patch ec dto) (patch env i ec dto) := by
  refine obeys_bind (quiet_assertRate _ _ _).obeys fun _ => ?_
  refine obeys_bind (quiet_readTransaction _ _).obeys fun t => ?_
  refine obeys_bind (quiet_checkPatch _ _ _).obeys fun _ => ?_
  refine obeys_bind (edit_obeys rfl patchTx_ok) fun _ => ?_
  refine obeys_bind (quiet_readTransaction _ _).obeys fun fresh => ?_
  refine obeys_bind (quiet_emitTxUpdated _ _ _).obeys fun _ => ?_
  exact obeys_bind (quiet_emitBalanceIf _ _).obeys fun _ => (quiet_pure _).obeys

theorem create_obeys {ec : EditCall} {dto : CreateDto} :
    Obeys env i (.create ec dto) (create env i ec dto) := by
  refine obeys_bind (quiet_assertRate _ _ _).obeys fun _ => ?_
  refine obeys_bind (quiet_query _).obeys fun account => ?_
  cases account with
  | none => exact (quiet_throw _).obeys
  | some account =>
    unfold createOn
    cases dto.amountCents with
    | none => exact (quiet_throw _).obeys
    | some amount =>
      simp only
      split
      · exact (quiet_throw _).obeys
      · refine obeys_bind (quiet_checkCreate _ _ _).obeys fun _ => ?_
        refine obeys_bind (edit_obeys rfl createTx_ok) fun _ => ?_
        refine obeys_bind (quiet_emit _).obeys fun _ => ?_
        refine obeys_bind (quiet_emitBalance _).obeys fun _ => ?_
        exact obeys_bind (quiet_readTransaction _ _).obeys fun _ => (quiet_pure _).obeys

theorem delete_obeys {ec : EditCall} : Obeys env i (.delete ec) (delete env i ec) := by
  refine obeys_bind (quiet_assertRate _ _ _).obeys fun _ => ?_
  refine obeys_bind (quiet_readTransaction _ _).obeys fun t => ?_
  refine obeys_bind (edit_obeys rfl deleteTx_ok) fun _ => ?_
  exact obeys_bind (quiet_emit _).obeys fun _ => (quiet_emitBalanceIf _ _).obeys

theorem hide_obeys {ec : EditCall} : Obeys env i (.hide ec) (hide env i ec) := by
  refine obeys_bind (quiet_assertRate _ _ _).obeys fun _ => ?_
  refine obeys_bind (quiet_readTransaction _ _).obeys fun t => ?_
  refine obeys_bind (upsert_obeys rfl) fun _ => ?_
  exact obeys_bind (quiet_readTransaction _ _).obeys fun _ => (quiet_emitTxUpdated _ _ _).obeys

theorem clearOverride_obeys {ec : EditCall} :
    Obeys env i (.clearOverride ec) (clearOverride i ec) := by
  refine obeys_bind (quiet_readTransaction _ _).obeys fun t => ?_
  split
  · exact (quiet_throw _).obeys
  · refine obeys_bind (edit_obeys rfl clearTx_ok) fun _ => ?_
    refine obeys_bind (quiet_readTransaction _ _).obeys fun _ => ?_
    exact obeys_bind (quiet_emitTxUpdated _ _ _).obeys fun _ => (quiet_emitBalanceIf _ _).obeys

theorem shiftOne_obeys {ec : EditCall} {days : ℤ} {id : Uuid} (hc : c.isEdit = true) :
    Obeys env i c (shiftOne i ec days id) := by
  refine obeys_bind (quiet_query _).obeys fun row => ?_
  cases row with
  | none => exact (quiet_pure _).obeys
  | some t =>
    refine obeys_bind (upsert_obeys hc) fun _ => ?_
    refine obeys_bind (quiet_readTransaction _ _).obeys fun _ => ?_
    exact obeys_bind (quiet_emitTxUpdated _ _ _).obeys fun _ => (quiet_pure _).obeys

theorem shiftAll_obeys {ec : EditCall} {days : ℤ} {ids : List Uuid} (hc : c.isEdit = true) :
    Obeys env i c (shiftAll i ec days ids) := by
  induction ids with
  | nil => exact (quiet_pure _).obeys
  | cons id ids ih =>
    exact obeys_bind (shiftOne_obeys hc) fun _ => obeys_bind ih fun _ => (quiet_pure _).obeys

theorem bulkShift_obeys {superadmin : Bool} {ec : EditCall} {ids : List Uuid} {days : ℤ} :
    Obeys env i (.bulkShift superadmin ec ids days) (bulkShift i superadmin ec ids days) := by
  unfold bulkShift
  split
  · exact (quiet_throw _).obeys
  · split
    · exact (quiet_throw _).obeys
    · exact shiftAll_obeys rfl

/-! ## `initiate` -/

/-- What `initiate` promises about its answer. -/
def Answered (ic : InitiateCall) (h : List World) (r : Except Error InitiateResult) : Prop :=
  ∀ res, r = .ok res → ∃ t, Seen h res.transferId t ∧ t.idempotencyKey = ic.idempotencyKey ∧
    t.initiatedByUserId = ic.userId

theorem guar_coversDebit {ic : InitiateCall} :
    CoversDebit env i ic (guar env i (.initiate ic)) := by
  intro w past db' t hadmitted _ _ hfunds hinitiated hkeeps x px hx
  cases hx
  exact ⟨.initiated hadmitted hfunds hinitiated, hkeeps⟩

theorem initiate_follows {ic : InitiateCall} (h : List World) :
    (initiate env i ic).Follows (rely i) (guar env i (.initiate ic)) (Answered ic) h := by
  refine (initiate_resolves guar_coversDebit h).imp fun h' r hr res hres => ?_
  obtain ⟨t, hseen, hkey, huser, -⟩ := hr res hres
  exact ⟨t, hseen, hkey, huser⟩

end Services

/-! ## Every run keeps to the discipline -/

theorem silently_follows {env : Env} {i : ℕ} {c : Call} {α : Type} {p : Service α}
    (hp : Obeys env i c p) (hc : ∀ ic, c ≠ .initiate ic) (h : List World) :
    (silently p).Follows (rely i) (guar env i c) (promise c) h := by
  have hpromise : ∀ h' r, promise c h' r := fun _ _ ic _ hic _ => absurd hic (hc ic)
  refine Prog.follows_bind ((hp h).imp fun h' r _ => ?_)
  cases r with
  | ok a => exact Prog.follows_pure (hpromise h' _)
  | error e => exact hpromise h' _

/-- **Every call follows the discipline**, in whatever company. -/
theorem program_follows (env : Env) (i : ℕ) (c : Call) (h : List World) :
    (program env i c).Follows (rely i) (guar env i c) (promise c) h := by
  cases c with
  | initiate ic =>
    refine Prog.follows_bind ((initiate_follows h).imp fun h' r hr => ?_)
    cases r with
    | error e =>
      intro ic' a _ ha
      cases ha
    | ok res =>
      refine Prog.follows_pure fun ic' a hic ha => ?_
      cases hic
      cases ha
      obtain ⟨t, ht⟩ := hr res rfl
      exact ⟨res, t, rfl, ht⟩
  | process pc => exact silently_follows (process_obeys rfl) (by simp) h
  | runJob pc => exact silently_follows runJob_obeys (by simp) h
  | forceSettle fc => exact silently_follows (forceSettle_obeys rfl rfl) (by simp) h
  | decide dc => exact silently_follows decideTransfer_obeys (by simp) h
  | approve ac => exact silently_follows approveWire_obeys (by simp) h
  | reverse rc => exact silently_follows reverseWire_obeys (by simp) h
  | markFailed id reason now => exact silently_follows (markFailed_obeys rfl) (by simp) h
  | patch ec dto => exact silently_follows patch_obeys (by simp) h
  | create ec dto => exact silently_follows create_obeys (by simp) h
  | delete ec => exact silently_follows delete_obeys (by simp) h
  | hide ec => exact silently_follows hide_obeys (by simp) h
  | clearOverride ec => exact silently_follows clearOverride_obeys (by simp) h
  | bulkShift superadmin ec ids days => exact silently_follows bulkShift_obeys (by simp) h

end BankDemo
