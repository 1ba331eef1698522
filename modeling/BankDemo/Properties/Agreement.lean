import BankDemo.Properties.Review

/-!
# Agreement of reviewers

`decideTransfer` and `approveWire` check that a transfer was not reviewed on the row they read, and
write later, keyed by the id alone. So two reviewers may both pass the check: a wire can be
refunded by one and settled by the other (`reviews_disagree`).

* `review_agreement_iff`: the reviews of a transfer agree exactly when every review that is written
  finds the row not reviewed.
-/

namespace BankDemo

open Ledger Transfers Admin

/-- The columns of a review. -/
def Transfer.review (t : Transfer) :
    Option ReviewDecision × Option Instant × Option Uuid × Option String :=
  (t.reviewDecision, t.reviewedAt, t.reviewedByUserId, t.reviewReason)

/-- The columns of the review of transfer `id`. -/
def Db.reviewOf (db : Db) (id : Uuid) :
    Option (Option ReviewDecision × Option Instant × Option Uuid × Option String) :=
  (db.transfers.lookup id).map Transfer.review

/-- A transfer held for review. -/
structure HeldForReview (t : Transfer) : Prop where
  status : t.status = .pending
  requiresReview : t.requiresReview = true
  reviewedAt : t.reviewedAt = none
  reviewDecision : t.reviewDecision = none

/-- The step writes a review of transfer `id`: it changes the columns of the review, or it writes
the entry of a rejection. -/
def WritesReview (id : Uuid) (x : Step World Call) : Prop :=
  x.post.db.reviewOf id ≠ x.pre.db.reviewOf id ∨
    x.post.db.entriesOf (.reject id) ≠ x.pre.db.entriesOf (.reject id)

/-- The step is one of a rejection of transfer `id` and moves a balance. -/
def RejectCredits (id : Uuid) (x : Step World Call) : Prop :=
  (∃ dc, x.call = .decide dc ∧ dc.decision = .rejected ∧ dc.transferId = id) ∧
    ∃ a, x.post.db.balance a ≠ x.pre.db.balance a

/-- The step, if it writes a review of transfer `id`, finds the transfer not reviewed. -/
def FindsUnreviewed (id : Uuid) (x : Step World Call) : Prop :=
  WritesReview id x → (x.pre.db.transfers.lookup id).bind Transfer.reviewedAt = none

instance (id : Uuid) (x : Step World Call) : Decidable (WritesReview id x) :=
  inferInstanceAs (Decidable (_ ∨ _))

instance (id : Uuid) (x : Step World Call) : Decidable (FindsUnreviewed id x) :=
  inferInstanceAs (Decidable (_ → _))

theorem FindsUnreviewed.row {id : Uuid} {x : Step World Call} (h : FindsUnreviewed id x)
    (hwrites : WritesReview id x) {t : Transfer} (ht : x.pre.db.transfers.lookup id = some t) :
    t.reviewedAt = none := by
  have hreviewed := h hwrites
  rw [ht] at hreviewed
  exact hreviewed

/-- The reviews of transfer `id` agree: at most one takes effect, the decision does not change,
the sender is refunded at most once, and not when the transfer is settled. -/
structure ReviewsAgree (id : Uuid) (w₀ : World) (tr : List (Step World Call)) (w : World) :
    Prop where
  once : AtMostOnce (WritesReview id) tr
  decision : ∀ x ∈ tr, ∀ t t' d, x.pre.db.transfers.lookup id = some t →
    t.reviewDecision = some d → x.post.db.transfers.lookup id = some t' →
    t'.reviewDecision = some d
  refund : AtMostOnce (RejectCredits id) tr
  entry : (w.db.entriesOf (.reject id)).length ≤ (w₀.db.entriesOf (.reject id)).length + 1
  exclusive : w.db.entriesOf (.reject id) = w₀.db.entriesOf (.reject id) ∨
    w.db.entriesOf (.settle id) = w₀.db.entriesOf (.settle id)

/-! ## What a review does -/

/-- What the write of a review of transfer `id` did. -/
inductive ReviewWrite (id : Uuid) (db db' : Db) : Prop
  | approved {t' : Transfer} (ht' : db'.transfers.lookup id = some t')
      (hdecision : t'.reviewDecision = some .approved) (hreviewed : t'.reviewedAt ≠ none)
      (hentries : ∀ src, db'.entriesOf src = db.entriesOf src)
  | rejected {t' : Transfer} (ht' : db'.transfers.lookup id = some t')
      (hdecision : t'.reviewDecision = some .rejected) (hreviewed : t'.reviewedAt ≠ none)
      (hentry : (db'.entriesOf (.reject id)).length = (db.entriesOf (.reject id)).length + 1)
      (hentries : db'.entriesOf (.settle id) = db.entriesOf (.settle id))

theorem reviewOf_of_stamp {id id' : Uuid} {f : Transfer → Transfer} {db db' : Db}
    (h : Table.UpdatedMany id' f db.transfers db'.transfers)
    (hf : ∀ t, (f t).review = t.review) : db'.reviewOf id = db.reviewOf id := by
  rw [Db.reviewOf, Db.reviewOf, h.lookup]
  split
  · cases db.transfers.lookup id with
    | none => rfl
    | some t => exact congrArg some (hf t)
  · rfl

theorem reviewOf_of_restamped {id id' : Uuid} {f : Transfer → Transfer} {db db' : Db}
    (h : Restamped id' f db db') (hf : ∀ t, (f t).review = t.review) :
    db'.reviewOf id = db.reviewOf id := by
  obtain ⟨T, rfl, hT⟩ := h
  exact reviewOf_of_stamp hT hf

/-- A change of an existing transfer that writes a review is an approval or a rejection. -/
theorem Change.reviewWrite {env : Env} {h : List World} {db db' : Db} {c : Call}
    (hchange : Change env h db db' c) {id : Uuid} {t : Transfer}
    (ht : db.transfers.lookup id = some t)
    (hwrites : db'.reviewOf id ≠ db.reviewOf id ∨
      db'.entriesOf (.reject id) ≠ db.entriesOf (.reject id)) : ReviewWrite id db db' := by
  have hneither : db'.reviewOf id = db.reviewOf id →
      db'.entriesOf (.reject id) = db.entriesOf (.reject id) → ReviewWrite id db db' :=
    fun hr he => absurd hwrites (by simp [hr, he])
  have hother : c.subject ≠ some id → db'.reviewOf id = db.reviewOf id := by
    intro hc
    rw [Db.reviewOf, hchange.lookup_other hc ht, Db.reviewOf, ht]
  cases hchange with
  | quiet hdb => exact hneither (by rw [hdb]) (by rw [hdb])
  | initiated _ _ hinit =>
    exact hneither (hother (by simp [Call.subject])) (hinit.booked.entriesOf_ne (by simp))
  | settled _ _ _ hsettled =>
    exact hneither (reviewOf_of_stamp (.inl hsettled.transfers) fun _ => rfl)
      (hsettled.booked.entriesOf_ne (by simp))
  | reopened _ _ _ hreset =>
    exact hneither (reviewOf_of_restamped hreset fun _ => rfl) (hreset.entriesOf _)
  | @approved _ id' _ _ hc _ _ _ hstamp =>
    by_cases hid : id = id'
    · subst hid
      obtain ⟨actor, reason, now, rfl⟩ := approval_stamp hc
      have ht' : db'.transfers.lookup id = some (stampApproved actor reason now t) := by
        rw [hstamp.lookup, if_pos rfl, ht, Option.map_some]
      exact .approved ht' rfl (by simp [stampApproved]) hstamp.entriesOf
    · refine hneither (hother ?_) (hstamp.entriesOf _)
      rw [Call.subject_of_approval hc]
      simpa using Ne.symm hid
  | @rejected dc _ _ _ _ _ hrej =>
    by_cases hid : id = dc.transferId
    · subst hid
      have ht' : db'.transfers.lookup dc.transferId = some (stampRejected dc.actorUserId
          (dc.reason.getD "Rejected by admin") dc.now t) := by
        rw [hrej.transfers.lookup, if_pos rfl, ht, Option.map_some]
      refine .rejected ht' rfl (by simp [stampRejected]) ?_ ?_
      · rw [hrej.refunded.booked.entriesOf, if_pos rfl]
      · exact hrej.refunded.booked.entriesOf_ne (by simp)
    · have hne : dc.transferId ≠ id := Ne.symm hid
      exact hneither (hother (by simpa [Call.subject] using hne))
        (hrej.refunded.booked.entriesOf_ne (by simpa using hne))
  | reversed _ _ _ hrev =>
    exact hneither (reviewOf_of_stamp (.inl hrev.transfers) fun _ => rfl)
      (hrev.refunded.booked.entriesOf_ne (by simp))
  | failed _ hstamp =>
    exact hneither (reviewOf_of_restamped hstamp fun _ => rfl) (hstamp.entriesOf _)
  | @adjusted _ a d _ _ hadj =>
    refine hneither (by rw [Db.reviewOf, hadj.transfers, Db.reviewOf]) ?_
    by_cases hd : d = 0
    · rw [Db.entriesOf, (hadj.zero hd).2.2, Db.entriesOf]
    · exact (hadj.nonzero hd).2.entriesOf_ne (by simp)

/-- A refund by a rejection comes with a reject entry. -/
theorem writes_of_rejectCredits {env : Env} {h : List World} {id : Uuid} {x : Step World Call}
    (hchange : Change env h x.pre.db x.post.db x.call) (hcredits : RejectCredits id x) :
    WritesReview id x := by
  obtain ⟨⟨dc, hc, hd, rfl⟩, a, ha⟩ := hcredits
  rw [hc] at hchange
  cases hchange with
  | quiet hdb => exact absurd (by rw [hdb]) ha
  | settled hw => simp [Call.worker, hd] at hw
  | reopened _ _ _ hreset => exact absurd (hreset.balance a) ha
  | approved _ _ _ _ hstamp => exact absurd (hstamp.balance a) ha
  | rejected _ _ _ _ hrej => exact .inr hrej.refunded.booked.entriesOf_self
  | failed _ hstamp => exact absurd (hstamp.balance a) ha
  | adjusted hedit _ => cases hedit

/-! ## Over a run -/

/-- No row of transfer `id` was ever seen approved. -/
def Unapproved (id : Uuid) (h : List World) : Prop :=
  ∀ t, Seen h id t → t.reviewDecision ≠ some .approved

theorem Unapproved.cons {id : Uuid} {h : List World} {w : World} {t : Transfer}
    (hh : Unapproved id h) (ht : w.db.transfers.lookup id = some t)
    (hdecision : t.reviewDecision ≠ some .approved) : Unapproved id (w :: h) := by
  rintro t' ⟨w', hw', ht'⟩
  rcases List.mem_cons.1 hw' with rfl | hw'
  · obtain rfl := Option.some.inj (ht.symm.trans ht')
    exact hdecision
  · exact hh t' ⟨w', hw', ht'⟩

/-- How the review of transfer `id` stands after some steps: it is held, or it was approved once,
or rejected once. -/
inductive ReviewState (id : Uuid) (w₀ : World) (tr : List (Step World Call)) (w : World) : Prop
  | held {t : Transfer} (ht : w.db.transfers.lookup id = some t) (hreviewed : t.reviewedAt = none)
      (hdecision : t.reviewDecision = none) (hnone : ∀ x ∈ tr, ¬ WritesReview id x)
      (hreject : w.db.entriesOf (.reject id) = w₀.db.entriesOf (.reject id))
      (hunapproved : Unapproved id (visited w₀ tr))
  | approved {t : Transfer} (ht : w.db.transfers.lookup id = some t)
      (hreviewed : t.reviewedAt ≠ none)
      (hreject : w.db.entriesOf (.reject id) = w₀.db.entriesOf (.reject id))
  | rejected {t : Transfer} (ht : w.db.transfers.lookup id = some t)
      (hreviewed : t.reviewedAt ≠ none) (hdecision : t.reviewDecision = some .rejected)
      (hreject : (w.db.entriesOf (.reject id)).length =
        (w₀.db.entriesOf (.reject id)).length + 1)
      (hunapproved : Unapproved id (visited w₀ tr))

/-- A step that writes no review keeps the columns of the review. -/
theorem review_kept {env : Env} {h : List World} {id : Uuid} {x : Step World Call}
    (hchange : Change env h x.pre.db x.post.db x.call) (hwrites : ¬ WritesReview id x)
    {t : Transfer} (ht : x.pre.db.transfers.lookup id = some t) :
    ∃ t', x.post.db.transfers.lookup id = some t' ∧ t'.reviewDecision = t.reviewDecision ∧
      t'.reviewedAt = t.reviewedAt ∧
      x.post.db.entriesOf (.reject id) = x.pre.db.entriesOf (.reject id) := by
  simp only [WritesReview, not_or, not_not] at hwrites
  obtain ⟨hreview, hentries⟩ := hwrites
  obtain ⟨t', ht', -⟩ := hchange.rowChange.keep ht
  simp only [Db.reviewOf, ht, ht', Option.map_some, Option.some.injEq] at hreview
  exact ⟨t', ht', congrArg (fun r => r.1) hreview, congrArg (fun r => r.2.1) hreview, hentries⟩

section Run

variable {env : Env} {w₀ : World} {tr : List (Step World Call)} {id : Uuid}

/-- The step lemma: a step that finds the transfer not reviewed, if it writes a review. -/
theorem ReviewState.step {x : Step World Call} {past : List World}
    (hstate : ReviewState id w₀ tr x.pre) (hpre : visited w₀ tr = x.pre :: past)
    (hchange : Change env (visited w₀ tr) x.pre.db x.post.db x.call)
    (hfinds : FindsUnreviewed id x) : ReviewState id w₀ (x :: tr) x.post := by
  have hvisited : visited w₀ (x :: tr) = x.post :: visited w₀ tr := rfl
  by_cases hwrites : WritesReview id x
  · cases hstate with
    | held ht hreviewed hdecision hnone hreject hunapproved =>
      cases hchange.reviewWrite ht hwrites with
      | approved ht' _ hreviewed' hentries =>
        exact .approved ht' hreviewed' ((hentries _).trans hreject)
      | rejected ht' hdecision' hreviewed' hentry _ =>
        refine .rejected ht' hreviewed' hdecision' (by rw [hentry, hreject]) ?_
        rw [hvisited]
        exact hunapproved.cons ht' (by simp [hdecision'])
    | approved ht hreviewed => exact absurd (hfinds.row hwrites ht) hreviewed
    | rejected ht hreviewed => exact absurd (hfinds.row hwrites ht) hreviewed
  · cases hstate with
    | held ht hreviewed hdecision hnone hreject hunapproved =>
      obtain ⟨t', ht', hdecision', hreviewed', hentries⟩ := review_kept hchange hwrites ht
      refine .held ht' (hreviewed'.trans hreviewed) (hdecision'.trans hdecision) ?_
        (hentries.trans hreject) ?_
      · intro y hy
        rcases List.mem_cons.1 hy with rfl | hy
        · exact hwrites
        · exact hnone y hy
      · rw [hvisited]
        exact hunapproved.cons ht' (by simp [hdecision', hdecision])
    | approved ht hreviewed hreject =>
      obtain ⟨t', ht', -, hreviewed', hentries⟩ := review_kept hchange hwrites ht
      exact .approved ht' (by rwa [hreviewed']) (hentries.trans hreject)
    | rejected ht hreviewed hdecision hreject hunapproved =>
      obtain ⟨t', ht', hdecision', hreviewed', hentries⟩ := review_kept hchange hwrites ht
      refine .rejected ht' (by rwa [hreviewed']) (hdecision'.trans hdecision)
        (by rw [hentries, hreject]) ?_
      rw [hvisited]
      exact hunapproved.cons ht' (by simp [hdecision', hdecision])

/-- The run lemma. -/
theorem steps_reviewState (hsteps : (system env).Steps w₀ tr) {t₀ : Transfer}
    (ht₀ : w₀.db.transfers.lookup id = some t₀) (hheld : HeldForReview t₀)
    (hfinds : ∀ x ∈ tr, FindsUnreviewed id x) {w : World} {past : List World}
    (hw : visited w₀ tr = w :: past) :
    AtMostOnce (WritesReview id) tr ∧ ReviewState id w₀ tr w := by
  refine steps_induct (I := fun tr w => AtMostOnce (WritesReview id) tr ∧ ReviewState id w₀ tr w)
    hsteps ⟨.nil, ?_⟩ ?_ w past hw
  · refine .held ht₀ hheld.reviewedAt hheld.reviewDecision (by simp) rfl ?_
    rintro t ⟨w', hw', ht⟩
    obtain rfl := List.mem_singleton.1 hw'
    obtain rfl := Option.some.inj (ht₀.symm.trans ht)
    simp [hheld.reviewDecision]
  · rintro earlier x past' hx - hpre ⟨honce, hstate⟩ hchange
    refine ⟨honce.cons fun hwrites => ?_, hstate.step hpre hchange (hfinds x hx)⟩
    cases hstate with
    | held _ _ _ hnone => exact hnone
    | approved ht hreviewed => exact absurd ((hfinds x hx).row hwrites ht) hreviewed
    | rejected ht hreviewed => exact absurd ((hfinds x hx).row hwrites ht) hreviewed

/-- A transfer that requires a review and was never seen approved is not settled. -/
theorem steps_unsettled (hsteps : (system env).Steps w₀ tr) {t₀ : Transfer}
    (ht₀ : w₀.db.transfers.lookup id = some t₀) (hflag : t₀.requiresReview = true)
    (hunapproved : Unapproved id (visited w₀ tr)) {w : World} {past : List World}
    (hw : visited w₀ tr = w :: past) :
    w.db.entriesOf (.settle id) = w₀.db.entriesOf (.settle id) := by
  have hinv : ∀ w past, visited w₀ tr = w :: past → Unapproved id (visited w₀ tr) →
      w.db.entriesOf (.settle id) = w₀.db.entriesOf (.settle id) := by
    refine steps_induct (I := fun tr w => Unapproved id (visited w₀ tr) →
      w.db.entriesOf (.settle id) = w₀.db.entriesOf (.settle id)) hsteps (fun _ => rfl) ?_
    intro earlier x past' hx steps _ hI hchange hun
    have hearlier : Unapproved id (visited w₀ earlier) :=
      fun t ht => hun t (ht.mono fun _ hw => List.mem_cons_of_mem _ hw)
    rw [← hI hearlier]
    by_contra hentry
    obtain ⟨pc, t, -, rfl, hseen, hs, -⟩ := hchange.settles_of_entry hentry
    -- the row that was settled had the flag from the start
    have hstart : Seen (visited w₀ earlier) pc.transferId t₀ := ⟨w₀, by simp [visited], ht₀⟩
    have hflag' : t.requiresReview = true := by
      rw [requiresReview_of_terms (steps_seen_eq steps hseen hstart), hflag]
    exact hearlier t hseen (approved_of_settleable hs hflag')
  exact hinv w past hw hunapproved

/-- Without a write of a review the transfer stays not reviewed. -/
theorem steps_unreviewed (hsteps : (system env).Steps w₀ tr) {t₀ : Transfer}
    (ht₀ : w₀.db.transfers.lookup id = some t₀) (hreviewed : t₀.reviewedAt = none)
    (hnone : ∀ x ∈ tr, ¬ WritesReview id x) {w : World} {past : List World}
    (hw : visited w₀ tr = w :: past) :
    ∃ t, w.db.transfers.lookup id = some t ∧ t.reviewedAt = none := by
  refine steps_induct (I := fun _ w => ∃ t, w.db.transfers.lookup id = some t ∧
    t.reviewedAt = none) hsteps ⟨t₀, ht₀, hreviewed⟩ ?_ w past hw
  rintro earlier x past' hx - - ⟨t, ht, hreviewed'⟩ hchange
  obtain ⟨t', ht', -, hkept, -⟩ := review_kept hchange (hnone x hx) ht
  exact ⟨t', ht', hkept.trans hreviewed'⟩

end Run

/-- **Review agreement.** In every interleaving of the calls of the system, from a store in which
the transfer is held for review: the reviews of the transfer agree exactly when every write of a
review finds the transfer not reviewed. -/
theorem review_agreement_iff (env : Env) (w₀ : World) (id : Uuid) (t₀ : Transfer)
    (ht₀ : w₀.db.transfers.lookup id = some t₀) (hheld : HeldForReview t₀)
    (tr : List (Step World Call)) (P : Pool World Error Answer Call)
    (hrun : Run (program env) (fun _ => True) w₀ tr P) :
    ReviewsAgree id w₀ tr P.state ↔ ∀ x ∈ tr, FindsUnreviewed id x := by
  obtain ⟨past, hpast⟩ := hrun.visited_eq
  constructor
  · intro hagree x hx hwrites
    obtain ⟨later, earlier, rfl⟩ := List.append_of_mem hx
    obtain ⟨hsteps, past', hpre, -⟩ := steps_split hrun.steps
    have htail := (List.pairwise_append.1 hagree.once).2.1
    have hnone : ∀ y ∈ earlier, ¬ WritesReview id y :=
      fun y hy => (List.pairwise_cons.1 htail).1 y hy hwrites
    obtain ⟨t, ht, hreviewed⟩ := steps_unreviewed hsteps ht₀ hheld.reviewedAt hnone hpre
    rw [ht]
    exact hreviewed
  · intro hfinds
    obtain ⟨honce, hstate⟩ := steps_reviewState hrun.steps ht₀ hheld hfinds hpast
    refine ⟨honce, fun x hx t t' d ht hd ht' => ?_, honce.imp fun x hx hcredits => ?_, ?_, ?_⟩
    · obtain ⟨later, earlier, rfl⟩ := List.append_of_mem hx
      obtain ⟨hsteps, past', hpre, hchange⟩ := steps_split hrun.steps
      by_cases hwrites : WritesReview id x
      · -- a review that is written finds no decision
        have hstate' := (steps_reviewState hsteps ht₀ hheld
          (fun y hy => hfinds y (by simp [hy])) hpre).2
        have hunreviewed := (hfinds x hx).row hwrites ht
        cases hstate' with
        | held ht₁ _ hdecision =>
          obtain rfl := Option.some.inj (ht.symm.trans ht₁)
          rw [hdecision] at hd
          cases hd
        | approved ht₁ hreviewed =>
          obtain rfl := Option.some.inj (ht.symm.trans ht₁)
          exact absurd hunreviewed hreviewed
        | rejected ht₁ hreviewed =>
          obtain rfl := Option.some.inj (ht.symm.trans ht₁)
          exact absurd hunreviewed hreviewed
      · obtain ⟨t₁, ht₁, hdecision, -⟩ := review_kept hchange hwrites ht
        obtain rfl := Option.some.inj (ht'.symm.trans ht₁)
        rw [hdecision, hd]
    · obtain ⟨past', -, hchange⟩ := step_change hrun.steps hx
      exact writes_of_rejectCredits hchange hcredits
    · cases hstate with
      | held _ _ _ _ hreject => rw [hreject]; omega
      | approved _ _ hreject => rw [hreject]; omega
      | rejected _ _ _ hreject => omega
    · cases hstate with
      | held _ _ _ _ hreject => exact .inl hreject
      | approved _ _ hreject => exact .inl hreject
      | rejected _ _ _ _ hunapproved =>
        exact .inr (steps_unsettled hrun.steps ht₀ hheld.requiresReview hunapproved hpast)

/-- A wire of 20.00 by Ann that is held for review. -/
def sampleHeld : World :=
  (exec (program sampleEnv) sampleWorld
    (oneByOne [.initiate (samplePay .wireOut 20 100 2000 false)])).2.state

/-- The row of the wire. -/
def sampleWire : Transfer :=
  newTransfer sampleEnv (samplePay .wireOut 20 100 2000 false) 2000 460 none

theorem sampleWire_held : HeldForReview sampleWire := ⟨rfl, rfl, rfl, rfl⟩

/-- An approval and a rejection, one after the other. -/
def sampleReviews : List (Choice Call) :=
  oneByOne [.decide (sampleDecide .rejected 100 200), .approve (sampleApprove 100 300)]

theorem review_agreement_reviews :
    (exec (program sampleEnv) sampleHeld sampleReviews).2.state.db.balance 10 = 500000 ∧
      ReviewsAgree 100 sampleHeld (exec (program sampleEnv) sampleHeld sampleReviews).1
        (exec (program sampleEnv) sampleHeld sampleReviews).2.state :=
  ⟨by decide +kernel, (review_agreement_iff sampleEnv sampleHeld 100 sampleWire
    (by decide +kernel) sampleWire_held _ _ (exec_run sampleReviews fun _ _ => trivial)).2
    (by decide +kernel)⟩

/-- The call is a review or a run of the worker. -/
def Call.reviewing : Call → Bool
  | .decide _ | .approve _ | .process _ => true
  | _ => false

/-- A rejection and an approval that both read the row before one of them writes: the rejection
commits first. -/
def sampleConflict : List (Choice Call) :=
  [.call (.decide (sampleDecide .rejected 100 200)), .call (.approve (sampleApprove 100 300)),
    .step 0, .step 1, .step 0] ++ List.replicate 8 (.step 1)

/-- Ann is refunded by the rejection, the decision is changed to an approval, and the wire is
settled. -/
theorem reviews_disagree :
    ¬ ∀ (env : Env) (w₀ : World) (id : Uuid) (t₀ : Transfer),
        w₀.db.transfers.lookup id = some t₀ → HeldForReview t₀ →
        ∀ (tr : List (Step World Call)) (P : Pool World Error Answer Call),
          Run (program env) (fun c => c.reviewing = true) w₀ tr P →
          ReviewsAgree id w₀ tr P.state := by
  intro h
  have hcalls : ∀ c, Choice.call c ∈ sampleConflict → c.reviewing = true := by
    intro c hc
    simp only [sampleConflict, List.mem_append, List.mem_cons, List.not_mem_nil, or_false,
      Choice.call.injEq, reduceCtorEq, List.mem_replicate, and_false] at hc
    rcases hc with rfl | rfl <;> rfl
  have hlast := (h sampleEnv sampleHeld 100 sampleWire (by decide +kernel) sampleWire_held _ _
    (exec_run sampleConflict hcalls)).exclusive
  revert hlast
  decide +kernel

end BankDemo
