import BankDemo.System.Atomic

/-!
# Transfer rows over a run

No call deletes a transfer, and the columns that say what was asked for (`Transfer.terms`) are
never changed. So a row that a call read some time ago tells the truth about these columns
(`steps_lineage`), however stale its status is.
-/

namespace BankDemo

open Ledger Transfers Admin

/-- A transfer with the columns that calls change set to what they are at first. -/
def Transfer.terms (t : Transfer) : Transfer :=
  { t with
    status := .pending
    settledAt := none
    failureReason := none
    settledTransactionId := none
    reviewDecision := none
    reviewedAt := none
    reviewedByUserId := none
    reviewReason := none }

theorem approval_stamp {c : Call} {id : Uuid} {f : Transfer → Transfer}
    (h : c.approval = some (id, f)) : ∃ actor reason now, f = stampApproved actor reason now := by
  unfold Call.approval at h
  split at h
  · split at h
    · cases h
      exact ⟨_, _, _, rfl⟩
    · cases h
  · cases h
    exact ⟨_, _, _, rfl⟩
  · cases h

/-- A column that is among the terms. -/
theorem column_of_terms {α : Type} (f : Transfer → α) (hf : ∀ t, f t.terms = f t)
    {t t' : Transfer} (h : t'.terms = t.terms) : f t' = f t := by
  rw [← hf t', h, hf t]

theorem fee_of_terms {t t' : Transfer} (h : t'.terms = t.terms) : t'.feeCents = t.feeCents :=
  column_of_terms Transfer.feeCents (fun _ => rfl) h

theorem amount_of_terms {t t' : Transfer} (h : t'.terms = t.terms) :
    t'.amountCents = t.amountCents :=
  column_of_terms Transfer.amountCents (fun _ => rfl) h

theorem from_of_terms {t t' : Transfer} (h : t'.terms = t.terms) :
    t'.fromAccountId = t.fromAccountId :=
  column_of_terms Transfer.fromAccountId (fun _ => rfl) h

theorem pendingTransaction_of_terms {t t' : Transfer} (h : t'.terms = t.terms) :
    t'.pendingTransactionId = t.pendingTransactionId :=
  column_of_terms Transfer.pendingTransactionId (fun _ => rfl) h

theorem key_of_terms {t t' : Transfer} (h : t'.terms = t.terms) :
    t'.idempotencyKey = t.idempotencyKey :=
  column_of_terms Transfer.idempotencyKey (fun _ => rfl) h

theorem user_of_terms {t t' : Transfer} (h : t'.terms = t.terms) :
    t'.initiatedByUserId = t.initiatedByUserId :=
  column_of_terms Transfer.initiatedByUserId (fun _ => rfl) h

theorem kind_of_terms {t t' : Transfer} (h : t'.terms = t.terms) : t'.kind = t.kind :=
  column_of_terms Transfer.kind (fun _ => rfl) h

theorem requiresReview_of_terms {t t' : Transfer} (h : t'.terms = t.terms) :
    t'.requiresReview = t.requiresReview :=
  column_of_terms Transfer.requiresReview (fun _ => rfl) h

/-- What a change does to the transfers: nothing, a new row under a new key, or a stamp on one
row. -/
inductive RowChange (env : Env) (T T' : Table Uuid Transfer) (c : Call) : Prop
  | same (h : T' = T)
  | created {ic : InitiateCall} {t : Transfer} (hc : c = .initiate ic)
      (hadmitted : Admitted env ic t)
      (hfresh : (T.findRow fun x => x.idempotencyKey = t.idempotencyKey) = none)
      (h : Table.Created ic.transferId t T T')
  | stamped {id : Uuid} {f : Transfer → Transfer} (h : Table.UpdatedMany id f T T')
      (hf : ∀ t, (f t).terms = t.terms)

theorem Restamped.lookup {id : Uuid} {f : Transfer → Transfer} {db db' : Db}
    (h : Restamped id f db db') (x : Uuid) : db'.transfers.lookup x =
      if x = id then (db.transfers.lookup x).map f else db.transfers.lookup x := by
  obtain ⟨T, rfl, hT⟩ := h
  exact hT.lookup x

theorem Restamped.entriesOf {id : Uuid} {f : Transfer → Transfer} {db db' : Db}
    (h : Restamped id f db db') (src : JournalSource) : db'.entriesOf src = db.entriesOf src := by
  obtain ⟨T, rfl, -⟩ := h
  rfl

theorem Restamped.rowChange {env : Env} {id : Uuid} {f : Transfer → Transfer} {db db' : Db}
    {c : Call} (h : Restamped id f db db') (hf : ∀ t, (f t).terms = t.terms) :
    RowChange env db.transfers db'.transfers c := by
  obtain ⟨T, rfl, hT⟩ := h
  exact .stamped hT hf

theorem Change.rowChange {env : Env} {h : List World} {db db' : Db} {c : Call}
    (hchange : Change env h db db' c) : RowChange env db.transfers db'.transfers c := by
  cases hchange with
  | quiet hdb => exact .same (by rw [hdb])
  | initiated hadmitted _ hinit => exact .created rfl hadmitted hinit.fresh hinit.transfers
  | settled _ _ _ hsettled => exact .stamped (.inl hsettled.transfers) fun _ => rfl
  | reopened _ _ _ hreset => exact hreset.rowChange fun _ => rfl
  | approved hc _ _ _ hstamp =>
    obtain ⟨_, _, _, rfl⟩ := approval_stamp hc
    exact hstamp.rowChange fun _ => rfl
  | rejected _ _ _ _ hrej => exact .stamped hrej.transfers fun _ => rfl
  | reversed _ _ _ hrev => exact .stamped (.inl hrev.transfers) fun _ => rfl
  | failed _ hstamp => exact hstamp.rowChange fun _ => rfl
  | adjusted _ hadj => exact .same hadj.transfers

/-- A row stays, with its terms. -/
theorem RowChange.keep {env : Env} {T T' : Table Uuid Transfer} {c : Call}
    (h : RowChange env T T' c) {id : Uuid} {t : Transfer} (ht : T.lookup id = some t) :
    ∃ t', T'.lookup id = some t' ∧ t'.terms = t.terms := by
  cases h with
  | same h =>
    rw [h]
    exact ⟨t, ht, rfl⟩
  | created _ _ _ h => exact ⟨t, h.lookup_old ht, rfl⟩
  | @stamped id' f h hf =>
    rw [h.lookup]
    by_cases hid : id = id'
    · rw [if_pos hid, ht]
      exact ⟨f t, rfl, hf t⟩
    · rw [if_neg hid]
      exact ⟨t, ht, rfl⟩

/-- A row was there before, with its terms, or is new. -/
theorem RowChange.origin {env : Env} {T T' : Table Uuid Transfer} {c : Call}
    (h : RowChange env T T' c) {id : Uuid} {t' : Transfer} (ht' : T'.lookup id = some t') :
    (∃ t, T.lookup id = some t ∧ t'.terms = t.terms) ∨
      ∃ ic, c = .initiate ic ∧ id = ic.transferId ∧ Admitted env ic t' := by
  cases h with
  | same h =>
    rw [h] at ht'
    exact .inl ⟨t', ht', rfl⟩
  | @created ic t hc hadmitted _ h =>
    rw [h.lookup] at ht'
    split at ht'
    · rename_i hid
      cases ht'
      exact .inr ⟨ic, hc, hid, hadmitted⟩
    · exact .inl ⟨t', ht', rfl⟩
  | @stamped id' f h hf =>
    rw [h.lookup] at ht'
    split at ht'
    · obtain ⟨t, ht, rfl⟩ := Option.map_eq_some_iff.1 ht'
      exact .inl ⟨t, ht, hf t⟩
    · exact .inl ⟨t', ht', rfl⟩

/-- The only change of a call of `initiate` is the creation of its transfer. -/
theorem Change.of_initiate {env : Env} {h : List World} {db db' : Db} {ic : InitiateCall}
    (hchange : Change env h db db' (.initiate ic)) :
    db' = db ∨ ∃ t, Admitted env ic t ∧ Initiated ic t db db' := by
  cases hchange with
  | quiet hdb => exact .inl hdb
  | initiated hadmitted _ hinit => exact .inr ⟨_, hadmitted, hinit⟩
  | settled hc => cases hc
  | reopened hc => cases hc
  | approved hc => cases hc
  | failed hc => cases hc
  | adjusted hc => cases hc

/-- The row of a transfer that a call is not about stays as it is. -/
theorem Change.lookup_other {env : Env} {h : List World} {db db' : Db} {c : Call}
    (hchange : Change env h db db' c) {id : Uuid} (hc : c.subject ≠ some id) {t : Transfer}
    (ht : db.transfers.lookup id = some t) : db'.transfers.lookup id = some t := by
  have hne : ∀ {id'}, c.subject = some id' → id ≠ id' := by
    rintro id' hid' rfl
    exact hc hid'
  cases hchange with
  | quiet hdb => rw [hdb, ht]
  | initiated _ _ hinit => exact hinit.transfers.lookup_old ht
  | settled hw _ _ hsettled =>
    rw [hsettled.transfers.lookup, if_neg (hne (Call.subject_of_worker hw)), ht]
  | reopened hf _ _ hreset => rw [hreset.lookup, if_neg (hne (Call.subject_of_force hf)), ht]
  | approved hf _ _ _ hstamp =>
    rw [hstamp.lookup, if_neg (hne (Call.subject_of_approval hf)), ht]
  | rejected _ _ _ _ hrej => rw [hrej.transfers.lookup, if_neg (hne rfl), ht]
  | reversed _ _ _ hrev => rw [hrev.transfers.lookup, if_neg (hne rfl), ht]
  | failed hf hstamp => rw [hstamp.lookup, if_neg (hne (Call.subject_of_failing hf)), ht]
  | adjusted _ hadj => rw [hadj.transfers, ht]

/-! ## Over a run -/

section Run

variable {env : Env} {ok : Call → Prop} {w₀ : World} {tr : List (Step World Call)}
  {P : Pool World Error Answer Call}

theorem Run.steps (hrun : Run (program env) ok w₀ tr P) : (system env).Steps w₀ tr :=
  (hrun.follows (system env) (fun i c h _ => program_follows env i c h) rely_refl).1

/-- A step of a run is a change after the steps before it. -/
theorem steps_split {later earlier : List (Step World Call)} {x : Step World Call}
    (hsteps : (system env).Steps w₀ (later ++ x :: earlier)) :
    (system env).Steps w₀ earlier ∧ ∃ past, visited w₀ earlier = x.pre :: past ∧
      Change env (visited w₀ earlier) x.pre.db x.post.db x.call := by
  obtain ⟨hearlier, past, hpast, hguar⟩ := hsteps.split
  exact ⟨hearlier, past, hpast, (hguar _ _ hpast).1⟩

/-- An invariant of the histories of a run. -/
theorem steps_invariant {I : List World → Prop} (hsteps : (system env).Steps w₀ tr)
    (hstart : I [w₀])
    (hstep : ∀ x ∈ tr, ∀ past, (∀ w ∈ x.pre :: past, w ∈ visited w₀ tr) → I (x.pre :: past) →
      Change env (x.pre :: past) x.pre.db x.post.db x.call → I (x.post :: x.pre :: past)) :
    I (visited w₀ tr) :=
  hsteps.invariant hstart fun x hx past hpast hI hguar => hstep x hx past hpast hI (hguar _ _ rfl).1

/-- An invariant of the steps of a run and the state they lead to. -/
theorem steps_induct {I : List (Step World Call) → World → Prop}
    (hsteps : (system env).Steps w₀ tr) (hstart : I [] w₀)
    (hstep : ∀ earlier x past, x ∈ tr → (system env).Steps w₀ earlier →
      visited w₀ earlier = x.pre :: past → I earlier x.pre →
      Change env (visited w₀ earlier) x.pre.db x.post.db x.call → I (x :: earlier) x.post) :
    ∀ w past, visited w₀ tr = w :: past → I tr w :=
  hsteps.induct hstart fun earlier x past hx hearlier hpast hI hguar =>
    hstep earlier x past hx hearlier hpast hI (hguar _ _ hpast).1

/-- Every step of a run is a change. -/
theorem step_change (hsteps : (system env).Steps w₀ tr) {x : Step World Call} (hx : x ∈ tr) :
    ∃ past, (∀ w ∈ x.pre :: past, w ∈ visited w₀ tr) ∧
      Change env (x.pre :: past) x.pre.db x.post.db x.call := by
  obtain ⟨later, earlier, rfl⟩ := List.append_of_mem hx
  obtain ⟨-, past, hpast, hchange⟩ := steps_split hsteps
  rw [hpast] at hchange
  refine ⟨past, fun w hw => ?_, hchange⟩
  have hvisited : visited w₀ (x :: earlier) = x.post :: x.pre :: past := by rw [← hpast]; rfl
  rw [visited_append, hvisited]
  exact List.mem_append_right _ (List.mem_cons_of_mem _ hw)

/-- Rows that were seen are still there, with the same terms. -/
def Lineage (h : List World) : Prop :=
  ∀ w past, h = w :: past → ∀ id t, Seen h id t →
    ∃ t', w.db.transfers.lookup id = some t' ∧ t'.terms = t.terms

theorem lineage_start (w : World) : Lineage [w] := by
  intro w' past hw id t ht
  cases hw
  obtain ⟨w₁, hw₁, ht⟩ := ht
  obtain rfl := List.mem_singleton.1 hw₁
  exact ⟨t, ht, rfl⟩

theorem Lineage.step {w w' : World} {past : List World} {c : Call} (hL : Lineage (w :: past))
    (h : RowChange env w.db.transfers w'.db.transfers c) : Lineage (w' :: w :: past) := by
  intro w₂ past₂ hw id t ht
  cases hw
  obtain ⟨w₁, hw₁, ht⟩ := ht
  rcases List.mem_cons.1 hw₁ with rfl | hw₁
  · exact ⟨t, ht, rfl⟩
  · obtain ⟨t₁, ht₁, hterms₁⟩ := hL w past rfl id t ⟨w₁, hw₁, ht⟩
    obtain ⟨t₂, ht₂, hterms₂⟩ := h.keep ht₁
    exact ⟨t₂, ht₂, hterms₂.trans hterms₁⟩

/-- A row that was seen in a run tells the terms of the row there is now. -/
theorem steps_lineage (hsteps : (system env).Steps w₀ tr) : Lineage (visited w₀ tr) :=
  steps_invariant hsteps (lineage_start w₀) fun _ _ _ _ hL hchange => hL.step hchange.rowChange

/-- All rows of one transfer that were seen have the same terms. -/
theorem steps_seen_eq (hsteps : (system env).Steps w₀ tr) {id : Uuid} {t t' : Transfer}
    (ht : Seen (visited w₀ tr) id t) (ht' : Seen (visited w₀ tr) id t') :
    t.terms = t'.terms := by
  cases hvisited : visited w₀ tr with
  | nil => simp [visited] at hvisited
  | cons w past =>
    obtain ⟨t₁, ht₁, hterms₁⟩ := steps_lineage hsteps w past hvisited id t ht
    obtain ⟨t₂, ht₂, hterms₂⟩ := steps_lineage hsteps w past hvisited id t' ht'
    obtain rfl := Option.some.inj (ht₁.symm.trans ht₂)
    exact hterms₁.symm.trans hterms₂

/-- A property of the terms that new rows have and the rows at the start had, all rows seen
have. -/
theorem steps_seen_terms {A : Transfer → Prop} (hsteps : (system env).Steps w₀ tr)
    (hA : ∀ t t' : Transfer, t'.terms = t.terms → A t → A t')
    (hnew : ∀ ic t, Admitted env ic t → A t)
    (hstart : ∀ id t, w₀.db.transfers.lookup id = some t → A t) :
    ∀ id t, Seen (visited w₀ tr) id t → A t := by
  refine steps_invariant (I := fun h => ∀ id t, Seen h id t → A t) hsteps ?_ ?_
  · rintro id t ⟨w, hw, ht⟩
    obtain rfl := List.mem_singleton.1 hw
    exact hstart id t ht
  · rintro x _ past - hI hchange id t ⟨w, hw, ht⟩
    rcases List.mem_cons.1 hw with rfl | hw
    · rcases hchange.rowChange.origin ht with ⟨t₀, ht₀, hterms⟩ | ⟨ic, -, -, hadmitted⟩
      · exact hA t₀ t hterms (hI id t₀ ⟨x.pre, List.mem_cons_self, ht₀⟩)
      · exact hnew ic t hadmitted
    · exact hI id t ⟨w, hw, ht⟩

end Run

end BankDemo
