import BankDemo.Admin.Rules
import BankDemo.System.Calls

/-!
# The badges and the queues

The badges of the admins' sidebar add up the deltas of the events. The review queue keeps step with
its badge, but for a deletion, which takes the transfers of the user's accounts and emits nothing.
The KYC queue keeps step only while every decision is on a record that waits for one: a second
decision counts down a second time (`second_decision_counted`). The sign-up that adds a record and the
deletion that takes one emit nothing.

* `badges_track`: in every sequence of operations that stays clear of these, what the events add up to
  is the change of the counts, in every state reached.
-/

namespace BankDemo.Admin

open Transfers

/-- From `d` to `d'` the badges have moved as the queues have. -/
structure Tracks (d d' : Desk) : Prop where
  review : reviewBadge d'.bank.events - reviewBadge d.bank.events =
    ((queueCounts d').transferReviewPending : ℤ) - (queueCounts d).transferReviewPending
  kyc : kycBadge d' - kycBadge d =
    ((queueCounts d').kycPending : ℤ) - (queueCounts d).kycPending

/-- Nothing that the deletion of the user takes waits in a queue. -/
structure NothingWaits (userId : Uuid) (d : Desk) : Prop where
  transfers : ∀ id t, d.bank.db.transfers.lookup id = some t →
    touches (accountsOf userId d.bank.db) t = true → waiting t = false
  records : ∀ id r, d.office.records.lookup id = some r → r.userId = userId → Kyc.queued r = false

/-- The deletion is confirmed, and no row is in its way. -/
def Deletable (toLowerCase : String → String) (c : HardDeleteCall) (db : Db) : Prop :=
  ∃ target, db.users.lookup c.targetUserId = some target ∧ Confirmed toLowerCase c target ∧
    ¬ Restricted c.targetUserId db

/-- The operation stays clear of what moves a queue without its badge or a badge without its queue:
a decision finds the record waiting, no sign-up completes, and what a deletion takes does not wait. -/
def Clear (toLowerCase : String → String) (d : Desk) : DeskCall → Prop
  | .decideKyc c => ∀ r, d.office.records.lookup c.kycId = some r → Kyc.queued r = true
  | .complete c => ∀ s, ¬ Signup.Completable c d.office.registry.db s
  | .hardDelete c => Deletable toLowerCase c d.bank.db → NothingWaits c.targetUserId d
  | _ => True

/-- Every operation of the sequence stays clear in the state it finds. -/
def ClearRun (env : Env) (toLowerCase : String → String) : Desk → List DeskCall → Prop
  | _, [] => True
  | d, c :: calls => Clear toLowerCase d c ∧
      ClearRun env toLowerCase (afterCall env toLowerCase d c) calls

theorem Tracks.refl (d : Desk) : Tracks d d := ⟨by ring, by ring⟩

theorem Tracks.trans {d₁ d₂ d₃ : Desk} (h : Tracks d₁ d₂) (h' : Tracks d₂ d₃) : Tracks d₁ d₃ := by
  obtain ⟨hreview, hkyc⟩ := h
  obtain ⟨hreview', hkyc'⟩ := h'
  exact ⟨by omega, by omega⟩

/-- A step of the bank that leaves the badge of the reviews as far behind as it was. -/
theorem tracks_bank {d : Desk} {w : World} (h : reviewLag w = reviewLag d.bank) :
    Tracks d { d with bank := w } := by
  refine ⟨?_, by simp [kycBadge, queueCounts]⟩
  simp only [reviewLag] at h
  simp only [queueCounts]
  omega

section Steps

variable {d : Desk} {α : Type}

theorem tracks_zoom {p : Service α} (hp : Level p d.bank) :
    (p.zoom Desk.bankPart).Ensures d fun _ d' => Tracks d d' :=
  Prog.ensures_zoom (hp.imp fun _ _ hlag => tracks_bank hlag)

/-- A decision takes one record out of the queue, if it was in it. -/
theorem updateRecord_ensures {kycId : Uuid} {f : Signup.KycRecord → Signup.KycRecord}
    {review : Kyc.Review} {o : Kyc.Office} (hf : ∀ r, Kyc.queued (f r) = false)
    (hqueued : ∀ r, o.records.lookup kycId = some r → Kyc.queued r = true) :
    (Kyc.updateRecord kycId f review).Ensures o fun r o' => match r with
      | .ok _ => (o'.kycPending : ℤ) = o.kycPending - 1
      | .error _ => o' = o := by
  refine Prog.ensures_attempt (fun a o' hb => ?_) fun _ _ => rfl
  cases hrow : o.records.lookup kycId with
  | none =>
    rw [hrow] at hb
    cases hb
  | some row =>
    rw [hrow] at hb
    cases hb
    have hreplaced : Table.Replaced kycId row (f row) o.records (o.records.insert kycId (f row)) :=
      ⟨hrow, .inl rfl⟩
    have hcount := hreplaced.count Kyc.queued
    simp only [hqueued row hrow, hf row, if_true, Bool.false_eq_true, if_false, add_zero] at hcount
    exact hcount

/-- A step of the KYC office and of its badge. -/
theorem tracks_office (o : Kyc.Office) (deltas : List ℤ)
    (h : (o.kycPending : ℤ) = d.office.kycPending + (deltas.sum - d.kycDeltas.sum)) :
    Tracks d { d with office := o, kycDeltas := deltas } := by
  refine ⟨by simp [queueCounts], ?_⟩
  simp only [kycBadge, queueCounts]
  omega

/-- A decision, then its event. -/
theorem decision_tracks {p : Prog Kyc.Office Error α}
    (hp : p.Ensures d.office fun r o' => match r with
      | .ok _ => (o'.kycPending : ℤ) = d.office.kycPending - 1
      | .error _ => o' = d.office) :
    (p.zoom Desk.officePart >>= fun _ => emitKycDelta (-1)).Ensures d fun _ d' => Tracks d d' := by
  refine Prog.ensures_bind (Prog.ensures_zoom (hp.imp fun r o' hr => ?_))
  cases r with
  | ok a =>
    refine tracks_office o' (d.kycDeltas ++ [-1]) ?_
    rw [hr]
    simp
    ring
  | error e =>
    subst hr
    exact .refl d

theorem decideKyc_tracks {c : DecideKycCall}
    (hqueued : ∀ r, d.office.records.lookup c.kycId = some r → Kyc.queued r = true) :
    (decideKyc c).Ensures d fun _ d' => Tracks d d' := by
  unfold decideKyc
  split
  · refine decision_tracks (Prog.ensures_bind ?_)
    refine (updateRecord_ensures (fun _ => rfl) hqueued).imp fun r o' hr => ?_
    cases r with
    | ok row => exact hr
    | error e => exact hr
  · refine decision_tracks ((updateRecord_ensures (fun _ => rfl) hqueued).imp fun r o' hr => ?_)
    cases r with
    | ok row => exact hr
    | error e => exact hr

theorem completeSignup_tracks {c : Signup.CompleteCall}
    (hrefused : ∀ s, ¬ Signup.Completable c d.office.registry.db s) :
    (completeSignup c).Ensures d fun _ d' => Tracks d d' := by
  refine Prog.ensures_bind (Prog.ensures_zoom (Prog.ensures_zoom ?_))
  refine (Signup.completeHandler_finishes c _).imp fun r registry hr => ?_
  cases r with
  | ok userId =>
    obtain ⟨s, hs, -⟩ := hr
    exact absurd hs (hrefused s)
  | error e =>
    have hsame : registry = d.office.registry := hr
    subst hsame
    exact .refl d

theorem forget_ensures (userId : Uuid) (o : Kyc.Office) :
    (Kyc.forget userId).Ensures o fun _ o' => o'.records = o.records ∨
      o'.records = o.records.deleteMany fun _ r => r.userId = userId := by
  refine Prog.ensures_bind (Prog.ensures_modify (Prog.ensures_zoom (Signup.ensures_query ?_)))
  split
  · exact Prog.ensures_throw (.inl rfl)
  · refine Prog.ensures_attempt (fun a registry hb => .inr ?_) fun _ _ => .inl rfl
    split at hb
    · rename_i r hr
      cases hb
      unfold Signup.deleteUserTx at hr
      split at hr
      · cases hr
      · cases hr
        rfl
    · cases hb

/-- What a deletion takes of the queue of records, when none of the user's waits. -/
theorem kycPending_forgotten {userId : Uuid} {o o' : Kyc.Office}
    (hrecords : o'.records = o.records ∨
      o'.records = o.records.deleteMany fun _ r => r.userId = userId)
    (hnone : ∀ id r, o.records.lookup id = some r → r.userId = userId → Kyc.queued r = false) :
    o'.kycPending = o.kycPending := by
  unfold Kyc.Office.kycPending
  rcases hrecords with hrecords | hrecords
  · rw [hrecords]
  · have hcount := Table.count_deleteMany o.records (fun _ r => r.userId = userId)
      fun _ r => Kyc.queued r
    have hzero : (o.records.count fun _ r => decide (r.userId = userId) && Kyc.queued r) = 0 := by
      refine Table.count_eq_zero fun id r hr => ?_
      by_cases howner : r.userId = userId
      · simp [hnone id r hr howner]
      · simp [howner]
    rw [hzero] at hcount
    rw [hrecords]
    omega

/-- What a deletion takes of the queue of transfers, when none that touches the user's accounts waits. -/
theorem reviewPending_deleted {userId : Uuid} {db db' : Db}
    (htransfers : db'.transfers = db.transfers.deleteMany fun _ t => touches (accountsOf userId db) t)
    (hnone : ∀ id t, db.transfers.lookup id = some t → touches (accountsOf userId db) t = true →
      waiting t = false) : reviewPending db' = reviewPending db := by
  have hcount := Table.count_deleteMany db.transfers (fun _ t => touches (accountsOf userId db) t)
    fun _ t => waiting t
  have hzero : (db.transfers.count fun _ t => touches (accountsOf userId db) t && waiting t) = 0 := by
    refine Table.count_eq_zero fun id t ht => ?_
    cases htouches : touches (accountsOf userId db) t with
    | false => rfl
    | true => simp [hnone id t ht htouches]
  rw [hzero] at hcount
  unfold reviewPending
  rw [htransfers]
  omega

theorem hardDelete_tracks {toLowerCase : String → String} {me : ℕ} {c : HardDeleteCall}
    (hclear : Deletable toLowerCase c d.bank.db → NothingWaits c.targetUserId d) :
    (Desk.hardDelete toLowerCase me c).Ensures d fun _ d' => Tracks d d' := by
  refine Prog.ensures_bind (Prog.ensures_zoom ?_)
  refine (hardDelete_deletes toLowerCase me c d.bank).imp fun r w hr => ?_
  cases r with
  | error e =>
    have hsame : w = d.bank := hr
    subst hsame
    exact .refl d
  | ok counts =>
    obtain ⟨target, db, htarget, hconfirmed, rfl, htx⟩ := hr
    obtain ⟨htransfers, hrecords⟩ :=
      hclear ⟨target, htarget, hconfirmed, unrestricted_of_hardDeleteTx htx⟩
    have hpending : reviewPending db = reviewPending d.bank.db :=
      reviewPending_deleted (hardDeleteTx_ok htx).2.1 htransfers
    have hbank : Tracks d { d with bank := { d.bank with db } } := by
      refine tracks_bank ?_
      rw [reviewLag_db, hpending]
      ring
    refine Prog.ensures_bind (Prog.ensures_zoom ((forget_ensures _ _).imp fun r o ho => ?_))
    have hoffice : Tracks { d with bank := { d.bank with db } }
        { d with bank := { d.bank with db }, office := o } := by
      have hsame : o.kycPending = d.office.kycPending := kycPending_forgotten ho hrecords
      refine tracks_office o d.kycDeltas ?_
      simp [hsame]
    cases r with
    | ok _ => exact hbank.trans hoffice
    | error e => exact hbank.trans hoffice

/-- An operation that stays clear moves the badges as it moves the queues. -/
theorem tracks_call (env : Env) (toLowerCase : String → String) {c : DeskCall}
    (hclear : Clear toLowerCase d c) : Tracks d (afterCall env toLowerCase d c) := by
  cases c with
  | initiate c => exact Prog.ensures_discard (tracks_zoom (initiate_level env c _))
  | settle c => exact tracks_zoom ((steady_process c).level _)
  | decide c => exact tracks_zoom (decideTransfer_level c _)
  | approve c => exact tracks_zoom (approveWire_level c _)
  | reverse c => exact tracks_zoom ((steady_reverseWire c).level _)
  | decideKyc c => exact decideKyc_tracks hclear
  | complete c => exact Prog.ensures_discard (completeSignup_tracks hclear)
  | hardDelete c => exact Prog.ensures_discard (hardDelete_tracks hclear)

end Steps

theorem tracks_calls (env : Env) (toLowerCase : String → String) (calls : List DeskCall) (d : Desk)
    (hclear : ClearRun env toLowerCase d calls) : Tracks d (afterCalls env toLowerCase d calls) := by
  induction calls generalizing d with
  | nil => exact .refl d
  | cons c calls ih => exact (tracks_call env toLowerCase hclear.1).trans (ih _ hclear.2)

theorem ClearRun.before {env : Env} {toLowerCase : String → String} {before after : List DeskCall}
    {d : Desk} (h : ClearRun env toLowerCase d (before ++ after)) :
    ClearRun env toLowerCase d before := by
  induction before generalizing d with
  | nil => trivial
  | cons c before ih => exact ⟨h.1, ih h.2⟩

/-- **The badges track the queues.** In a sequence of operations in which each decision on a KYC
record finds it waiting, if it is there, no sign-up completes, and no deletion that goes through
takes what waits, the `transferReviewDelta`s and the `kycDelta`s of the events add up to the changes
of the two counts, in every state reached. -/
theorem badges_track (env : Env) (toLowerCase : String → String) (d : Desk) (calls : List DeskCall)
    (hclear : ClearRun env toLowerCase d calls) (before after : List DeskCall)
    (hcalls : calls = before ++ after) :
    Tracks d (afterCalls env toLowerCase d before) := by
  subst hcalls
  exact tracks_calls env toLowerCase before d hclear.before

/-- The small bank, where Bob's KYC record waits for a decision. -/
def sampleDesk : Desk where
  bank := sampleWorld
  office := {
    registry := { Signup.sampleRegistry with db := { Signup.sampleRegistry.db with
      users := (∅ : Table Uuid Signup.User).insert 2
        ⟨"bob@example.org", none, "$secret", some "Bob", some "Ray", none⟩
      kycRecords := (∅ : Table Uuid Signup.KycRecord).insert 500 ⟨2, .pending, []⟩ } }
    reviews := ∅ }
  kycDeltas := []

/-- A decision on Bob's record. -/
def sampleKyc (decision : ReviewDecision) : DecideKycCall := ⟨9, 500, decision, none, none, 0⟩

/-- Ann sends a wire, which is held, Bob's record is approved, and then the wire. -/
def sampleMorning : List DeskCall :=
  [.initiate (samplePay .wireOut 20 100 2000 false), .decideKyc (sampleKyc .approved),
    .approve (sampleApprove 100 300)]

theorem badges_track_morning :
    queueCounts (afterCalls sampleEnv id sampleDesk sampleMorning) = ⟨0, 1, 0⟩ ∧
      Tracks sampleDesk (afterCalls sampleEnv id sampleDesk sampleMorning) := by
  have hrecord : (afterCall sampleEnv id sampleDesk (.initiate (samplePay .wireOut 20 100 2000
      false))).office.records.lookup 500 = some ⟨2, .pending, []⟩ := by
    decide +kernel
  have hclear : ClearRun sampleEnv id sampleDesk sampleMorning := by
    refine ⟨trivial, fun r hr => ?_, trivial, trivial⟩
    obtain rfl := Option.some.inj (hrecord.symm.trans hr)
    rfl
  exact ⟨by decide +kernel, badges_track sampleEnv id sampleDesk sampleMorning hclear sampleMorning
    [] (List.append_nil _).symm⟩

/-- Bob's record is approved and then rejected: the badge counts down twice, the queue once. -/
theorem second_decision_counted :
    ¬ ∀ (env : Env) (toLowerCase : String → String) (d : Desk) (calls : List DeskCall),
        Tracks d (afterCalls env toLowerCase d calls) := by
  intro h
  have hkyc := (h sampleEnv id sampleDesk
    [.decideKyc (sampleKyc .approved), .decideKyc (sampleKyc .rejected)]).kyc
  revert hkyc
  decide +kernel

end BankDemo.Admin
