import BankDemo.Admin.Beneficiaries
import BankDemo.System.Calls

/-!
# The gate of local wires

A local wire goes to a beneficiary on the admins' list, found by its IBAN. The list keeps IBANs as
they are compared, and local ones are checked before they are written.

* `wire_gate_iff`: after any interleaving of the calls that keep the list, the gate lets an IBAN
  through exactly when some local beneficiary that is not archived was last written with one of the
  same normal form, and that form is a Bahraini IBAN; and what `verifyBeneficiary` reports valid the
  gate lets through.
-/

namespace BankDemo.Wires

open Transfers Admin

/-! ## The calls -/

/-- A call on the list, with the values it draws. -/
inductive BeneficiaryCall
  | create (actorUserId : Uuid) (dto : WireBeneficiaryDto) (id : Uuid)
  | update (id : Uuid) (dto : WireBeneficiaryDto)
  | delete (id : Uuid) (now : Instant)
  deriving DecidableEq

/-- The program of a call. -/
def program (env : Env) (me : ℕ) : BeneficiaryCall → Service (Option WireBeneficiary)
  | .create actorUserId dto id =>
    createBeneficiary env me actorUserId dto id >>= fun b => pure (some b)
  | .update id dto => updateBeneficiary env me id dto >>= fun b => pure (some b)
  | .delete id now => deleteBeneficiary me id now >>= fun _ => pure none

/-- The runs of calls on the list. -/
abbrev ListRun (env : Env) := Run (program env)

/-- The list. -/
abbrev rows (w : World) : Table Uuid WireBeneficiary := w.db.wireBeneficiaries

/-- The newest of the steps of a call writes the beneficiary with what the call asks for: a creation,
or an update that has read the row before. -/
inductive Writes (env : Env) : BeneficiaryCall → List (World × World) → Uuid →
    WireBeneficiaryDto → Prop
  | create {actorUserId : Uuid} {dto : WireBeneficiaryDto} {id : Uuid} {w w' : World}
      {own : List (World × World)} (hshape : validateShape env dto = .ok ())
      (hnew : (rows w).lookup id = none)
      (hrow : rows w' = (rows w).insert id (rowOf env dto actorUserId none)) :
      Writes env (.create actorUserId dto id) ((w, w') :: own) id dto
  | update {id : Uuid} {dto : WireBeneficiaryDto} {old : WireBeneficiary} {w w' : World}
      {read : World × World} {own : List (World × World)} (hshape : validateShape env dto = .ok ())
      (hold : (rows w).lookup id = some old)
      (hrow : rows w' = (rows w).insert id (rowOf env dto old.createdByUserId old.archivedAt)) :
      Writes env (.update id dto) ((w, w') :: read :: own) id dto

/-- What a step of a call can do. -/
inductive Did (env : Env) (c : BeneficiaryCall) : List (World × World) → Prop
  | idle {w w' : World} {own : List (World × World)} (h : rows w' = rows w) :
      Did env c ((w, w') :: own)
  | writes {id : Uuid} {dto : WireBeneficiaryDto} {own : List (World × World)}
      (h : Writes env c own id dto) : Did env c own
  | archives {id : Uuid} {now : Instant} {b : WireBeneficiary} {w w' : World}
      {own : List (World × World)} (hc : c = .delete id now) (hold : (rows w).lookup id = some b)
      (hrow : rows w' = (rows w).insert id { b with archivedAt := some now }) :
      Did env c ((w, w') :: own)

/-! ## What the calls do -/

section Steps

variable {env : Env} {me : ℕ} {c : BeneficiaryCall} {own : List (World × World)} {α β : Type}

/-- A query, then more. -/
theorem does_query {f : Db → α} {k : α → Service β}
    (hk : ∀ w : World, (k (f w.db)).Does (Did env c) (fun _ _ => True) ((w, w) :: own)) :
    (query f >>= k).Does (Did env c) (fun _ _ => True) own :=
  Prog.does_bind (Prog.does_read fun w => ⟨.idle rfl, hk w⟩)

/-- A statement on the list that ends a call. -/
theorem does_statement {body : Tx α} {f : α → β}
    (hbody : ∀ (w : World) r, body w.db = .ok r → Did env c ((w, { w with db := r.2 }) :: own)) :
    (transaction me [] body >>= fun a => (pure (f a) : Service β)).Does (Did env c)
      (fun _ _ => True) own :=
  Prog.does_bind (transaction_does (fun w r hr => ⟨hbody w r hr, trivial⟩)
    fun _ _ => ⟨.idle rfl, trivial⟩)

theorem updateBeneficiaryTx_ok {id : Uuid} {f : WireBeneficiary → WireBeneficiary} {db : Db}
    {r : WireBeneficiary × Db} (h : updateBeneficiaryTx id f db = .ok r) :
    ∃ old, db.wireBeneficiaries.lookup id = some old ∧
      r.2 = { db with wireBeneficiaries := db.wireBeneficiaries.insert id (f old) } := by
  unfold updateBeneficiaryTx at h
  split at h
  · cases h
  · rename_i old hold
    cases h
    exact ⟨old, hold, rfl⟩

/-- **What the calls do**, one step at a time. -/
theorem program_does (env : Env) (me : ℕ) (c : BeneficiaryCall) :
    (program env me c).Does (Did env c) (fun _ _ => True) [] := by
  cases c with
  | create actorUserId dto id =>
    simp only [program, createBeneficiary]
    cases hshape : validateShape env dto with
    | error e => exact Prog.does_throw trivial
    | ok u =>
      refine does_statement fun w r hr => ?_
      unfold createBeneficiaryTx at hr
      split at hr
      · cases hr
      · rename_i hnew
        cases hr
        exact .writes (.create hshape (by simpa using hnew) rfl)
  | update id dto =>
    simp only [program, updateBeneficiary]
    cases hshape : validateShape env dto with
    | error e => exact Prog.does_throw trivial
    | ok u =>
      simp only [bind_assoc]
      refine does_query fun read => ?_
      split
      · exact Prog.does_throw trivial
      · refine does_statement fun w r hr => ?_
        obtain ⟨old, hold, hdb⟩ := updateBeneficiaryTx_ok hr
        exact .writes (.update hshape hold (by rw [hdb]))
  | delete id now =>
    simp only [program, deleteBeneficiary, bind_assoc]
    refine does_query fun read => ?_
    split
    · exact Prog.does_throw trivial
    · simp only [bind_assoc, pure_bind]
      refine does_statement fun w r hr => ?_
      obtain ⟨old, hold, hdb⟩ := updateBeneficiaryTx_ok hr
      exact .archives rfl hold (by rw [hdb])

end Steps

/-! ## The last write of a beneficiary -/

/-- The newest of the steps that wrote the beneficiary wrote this. -/
inductive LastWritten (env : Env) : List (Step World BeneficiaryCall) → Uuid →
    WireBeneficiaryDto → Prop
  | newest {x : Step World BeneficiaryCall} {earlier : List (Step World BeneficiaryCall)}
      {id : Uuid} {dto : WireBeneficiaryDto}
      (h : Writes env x.call ((x.pre, x.post) :: own x.tid earlier) id dto) :
      LastWritten env (x :: earlier) id dto
  | before {x : Step World BeneficiaryCall} {earlier : List (Step World BeneficiaryCall)}
      {id : Uuid} {dto : WireBeneficiaryDto} (h : LastWritten env earlier id dto)
      (hother : ∀ dto', ¬ Writes env x.call ((x.pre, x.post) :: own x.tid earlier) id dto') :
      LastWritten env (x :: earlier) id dto

/-- The row is what the request asked for, which had passed the check of its shape. -/
structure AsWritten (env : Env) (dto : WireBeneficiaryDto) (b : WireBeneficiary) : Prop where
  shape : validateShape env dto = .ok ()
  row : b = rowOf env dto b.createdByUserId b.archivedAt

/-- Every row is as it was last written. -/
structure Faithful (env : Env) (tr : List (Step World BeneficiaryCall)) (w : World) : Prop where
  written : ∀ id b, (rows w).lookup id = some b → ∃ dto, LastWritten env tr id dto
  row : ∀ id dto, LastWritten env tr id dto →
    ∃ b, (rows w).lookup id = some b ∧ AsWritten env dto b

section Faithful

variable {env : Env} {x : Step World BeneficiaryCall} {earlier : List (Step World BeneficiaryCall)}

theorem Writes.lookup {c : BeneficiaryCall} {w w' : World} {before : List (World × World)}
    {id : Uuid} {dto : WireBeneficiaryDto} (h : Writes env c ((w, w') :: before) id dto) (a : Uuid) :
    ∃ b, AsWritten env dto b ∧
      (rows w').lookup a = if a = id then some b else (rows w).lookup a := by
  cases h with
  | create hshape _ hrow => exact ⟨_, ⟨hshape, rfl⟩, by rw [hrow, Table.lookup_insert_ite]⟩
  | update hshape _ hrow => exact ⟨_, ⟨hshape, rfl⟩, by rw [hrow, Table.lookup_insert_ite]⟩

/-- What a step leaves of a row that it does not write. -/
theorem Did.row {id : Uuid} {dto : WireBeneficiaryDto} {b : WireBeneficiary}
    (hdid : Did env x.call ((x.pre, x.post) :: own x.tid earlier))
    (hother : ∀ dto', ¬ Writes env x.call ((x.pre, x.post) :: own x.tid earlier) id dto')
    (hb : (rows x.pre).lookup id = some b) (hwritten : AsWritten env dto b) :
    ∃ b', (rows x.post).lookup id = some b' ∧ AsWritten env dto b' := by
  cases hdid with
  | idle h =>
    rw [h]
    exact ⟨b, hb, hwritten⟩
  | @writes id' dto' _ h =>
    obtain ⟨b', -, hlookup⟩ := h.lookup id
    refine ⟨b, ?_, hwritten⟩
    rw [hlookup, if_neg]
    · exact hb
    · rintro rfl
      exact hother dto' h
  | @archives id' now old _ _ _ _ hold hrow =>
    rw [hrow, Table.lookup_insert_ite]
    split
    · rename_i heq
      subst heq
      obtain rfl := Option.some.inj (hold.symm.trans hb)
      refine ⟨_, rfl, hwritten.shape, ?_⟩
      conv_lhs => rw [hwritten.row]
      rfl
    · exact ⟨b, hb, hwritten⟩

/-- The row of a beneficiary was there before a step that does not write it. -/
theorem Did.lookup_old {id : Uuid} {b : WireBeneficiary}
    (hdid : Did env x.call ((x.pre, x.post) :: own x.tid earlier))
    (hother : ∀ dto', ¬ Writes env x.call ((x.pre, x.post) :: own x.tid earlier) id dto')
    (hb : (rows x.post).lookup id = some b) : ∃ old, (rows x.pre).lookup id = some old := by
  cases hdid with
  | idle h =>
    rw [h] at hb
    exact ⟨b, hb⟩
  | @writes id' dto' _ h =>
    obtain ⟨b', -, hlookup⟩ := h.lookup id
    rw [hlookup, if_neg] at hb
    · exact ⟨b, hb⟩
    · rintro rfl
      exact hother dto' h
  | @archives id' now old _ _ _ _ hold hrow =>
    rw [hrow, Table.lookup_insert_ite] at hb
    split at hb
    · rename_i heq
      subst heq
      exact ⟨old, hold⟩
    · exact ⟨b, hb⟩

/-- A step keeps the rows as they were last written. -/
theorem faithful_step (h : Faithful env earlier x.pre)
    (hdid : Did env x.call ((x.pre, x.post) :: own x.tid earlier)) :
    Faithful env (x :: earlier) x.post where
  written id b hb := by
    by_cases hwrites : ∃ dto, Writes env x.call ((x.pre, x.post) :: own x.tid earlier) id dto
    · obtain ⟨dto, hdto⟩ := hwrites
      exact ⟨dto, .newest hdto⟩
    · obtain ⟨old, hold⟩ := hdid.lookup_old (fun dto' h' => hwrites ⟨dto', h'⟩) hb
      obtain ⟨dto, hlast⟩ := h.written id old hold
      exact ⟨dto, .before hlast fun dto' h' => hwrites ⟨dto', h'⟩⟩
  row id dto hlast := by
    cases hlast with
    | newest hwrites =>
      obtain ⟨b, hwritten, hlookup⟩ := hwrites.lookup id
      exact ⟨b, by rw [hlookup, if_pos rfl], hwritten⟩
    | before hlast hother =>
      obtain ⟨b, hb, hwritten⟩ := h.row id dto hlast
      exact hdid.row hother hb hwritten

/-- **Rows are as they were last written**, in every run from an empty list. -/
theorem faithful_of_run {ok : BeneficiaryCall → Prop} {w₀ : World}
    {tr : List (Step World BeneficiaryCall)}
    {P : Pool World Error (Option WireBeneficiary) BeneficiaryCall}
    (hempty : rows w₀ = ∅) (hrun : ListRun env ok w₀ tr P) : Faithful env tr P.state := by
  refine hrun.induct ⟨fun id b hb => ?_, fun id dto hlast => by cases hlast⟩
    fun later x earlier hsplit h => faithful_step h ?_
  · rw [hempty] at hb
    cases hb
  · exact (hrun.does fun me c _ => program_does env me c).1 later x earlier hsplit

end Faithful

/-! ## The gate -/

/-- The gate lets the request of a local wire to this IBAN through. -/
def Accepts (env : Env) (iban : Option String) (w : World) : Prop :=
  ∀ (dto : InitiateTransferDto) (d : WireDetailsDto), dto.kind = .wireOut →
    dto.wireDetails = some d → d.type = .local_ → d.iban = iban →
    (wireGate env dto).run w = (.ok (), w)

/-- The list has the normal form of the IBAN, for a local beneficiary that is not archived. -/
def Listed (env : Env) (iban : Option String) (w : World) : Prop :=
  ibanNorm env iban ≠ "" ∧ ∃ id b, (rows w).lookup id = some b ∧ b.archivedAt = none ∧
    b.type = .local_ ∧ b.iban = some (ibanNorm env iban)

section Gate

variable {env : Env} {iban : Option String} {w : World}

theorem run_throw_ne {α : Type} {e : Error} {a : α} {w w' : World} :
    (throw e : Service α).run w ≠ (.ok a, w') := by
  intro h
  rw [Prog.run_throw] at h
  cases (Prod.mk.inj h).1

theorem run_wireGate {dto : InitiateTransferDto} {d : WireDetailsDto} (hkind : dto.kind = .wireOut)
    (hd : dto.wireDetails = some d) (htype : d.type = .local_) :
    (wireGate env dto).run w = (.ok (), w) ↔ Listed env d.iban w := by
  unfold wireGate
  rw [if_pos hkind, hd]
  simp only [htype]
  by_cases hnorm : ibanNorm env d.iban = ""
  · rw [if_pos hnorm]
    exact ⟨fun h => absurd h run_throw_ne, fun h => absurd hnorm h.1⟩
  · rw [if_neg hnorm, Prog.run_bind, query, Prog.run_read]
    dsimp only
    cases hfound : w.db.wireBeneficiaries.findRow fun b =>
        b.archivedAt = none ∧ b.type = .local_ ∧ b.iban = some (ibanNorm env d.iban) with
    | none =>
      refine ⟨fun h => absurd h run_throw_ne, ?_⟩
      rintro ⟨-, id, b, hb, harchived, hlocal, hiban⟩
      have hfalse := Table.findRow_none hfound hb
      simp [harchived, hlocal, hiban] at hfalse
    | some r =>
      obtain ⟨hb, hp⟩ := Table.findRow_some hfound
      exact ⟨fun _ => ⟨hnorm, r.1, r.2, hb, of_decide_eq_true hp⟩, fun _ => rfl⟩

/-- A local wire of nothing, to an IBAN. -/
def localWire (iban : Option String) : InitiateTransferDto where
  fromAccountId := 0
  toAccountId := none
  externalRef := none
  kind := .wireOut
  amountCents := 0
  instant := false
  note := none
  wireDetails := some ⟨.local_, "", none, iban⟩
  sendCurrency := none
  sendAmountMinor := none

theorem accepts_iff : Accepts env iban w ↔ Listed env iban w := by
  constructor
  · intro h
    have hiff : (wireGate env (localWire iban)).run w = (.ok (), w) ↔ Listed env iban w :=
      run_wireGate (d := ⟨.local_, "", none, iban⟩) rfl rfl rfl
    exact hiff.1 (h (localWire iban) ⟨.local_, "", none, iban⟩ rfl rfl rfl rfl)
  · rintro h dto d hkind hd htype rfl
    exact (run_wireGate hkind hd htype).2 h

end Gate

/-- The IBAN of a local row is a Bahraini one, and the normal form of what was asked for. -/
theorem AsWritten.iban {env : Env} {dto : WireBeneficiaryDto} {b : WireBeneficiary} {n : String}
    (h : AsWritten env dto b) (htype : b.type = .local_) (hn : b.iban = some n) :
    ∃ x, dto.iban = some x ∧ ibanNorm env (some x) = n ∧ isBhIban n = true := by
  obtain ⟨hshape, hrow⟩ := h
  have hlocal : dto.type = .local_ := by
    rw [hrow] at htype
    exact htype
  rw [hrow] at hn
  obtain ⟨x, hx, hxn⟩ := Option.map_eq_some_iff.1 hn
  refine ⟨x, hx, hxn, ?_⟩
  unfold validateShape at hshape
  rw [hlocal] at hshape
  dsimp only at hshape
  split at hshape
  · cases hshape
  · rename_i hbh
    have hnorm : ibanNorm env dto.iban = n := by
      rw [hx]
      exact hxn
    rw [hnorm] at hbh
    simpa using hbh

/-- What was written with an IBAN has its normal form. -/
theorem AsWritten.iban_of_dto {env : Env} {dto : WireBeneficiaryDto} {b : WireBeneficiary}
    {x : String} (h : AsWritten env dto b) (hx : dto.iban = some x) :
    b.iban = some (ibanNorm env (some x)) := by
  rw [h.row]
  show dto.iban.map _ = _
  rw [hx]
  rfl

/-- The local beneficiaries that the gate lets `y` through to. -/
structure Approved (env : Env) (tr : List (Step World BeneficiaryCall)) (w : World) (y : String)
    (id : Uuid) (b : WireBeneficiary) (x : String) : Prop where
  row : (rows w).lookup id = some b
  live : b.archivedAt = none
  type : b.type = .local_
  written : ∃ dto, LastWritten env tr id dto ∧ dto.iban = some x
  norm : ibanNorm env (some x) = ibanNorm env (some y)
  format : isBhIban (ibanNorm env (some x)) = true

theorem listed_iff {env : Env} {tr : List (Step World BeneficiaryCall)} {w : World}
    (h : Faithful env tr w) (y : String) :
    Listed env (some y) w ↔ ∃ id b x, Approved env tr w y id b x := by
  constructor
  · rintro ⟨-, id, b, hb, hlive, htype, hiban⟩
    obtain ⟨dto, hlast⟩ := h.written id b hb
    obtain ⟨b', hb', hwritten⟩ := h.row id dto hlast
    obtain rfl := Option.some.inj (hb.symm.trans hb')
    obtain ⟨x, hx, hnorm, hbh⟩ := hwritten.iban htype hiban
    exact ⟨id, b, x, hb, hlive, htype, ⟨dto, hlast, hx⟩, hnorm, by rw [hnorm]; exact hbh⟩
  · rintro ⟨id, b, x, hb, hlive, htype, ⟨dto, hlast, hx⟩, hnorm, hbh⟩
    obtain ⟨b', hb', hwritten⟩ := h.row id dto hlast
    obtain rfl := Option.some.inj (hb.symm.trans hb')
    rw [hnorm] at hbh
    refine ⟨fun hempty => ?_, id, b, hb, hlive, htype, ?_⟩
    · rw [hempty] at hbh
      cases hbh
    · rw [hwritten.iban_of_dto hx, hnorm]

/-- What the check reports valid is on the list. -/
theorem listed_of_valid {env : Env} {toLowerCase : String → String} {input : VerifyBeneficiaryInput}
    {w w' : World} {name : Option String} (htype : input.type = .local_)
    (hrun : (verifyBeneficiary env toLowerCase input).run w = (.ok ⟨true, name⟩, w')) :
    Listed env input.iban w := by
  unfold verifyBeneficiary at hrun
  rw [htype] at hrun
  dsimp only at hrun
  by_cases hnorm : ibanNorm env input.iban = ""
  · rw [if_pos hnorm] at hrun
    cases hrun
  · rw [if_neg hnorm, Prog.run_bind, query, Prog.run_read] at hrun
    dsimp only at hrun
    rw [Prog.run_pure] at hrun
    have hvalid := Except.ok.inj (Prod.mk.inj hrun).1
    cases hcandidates : findBeneficiaries (fun b => b.archivedAt = none ∧ b.type = .local_ ∧
        b.iban = some (ibanNorm env input.iban)) w.db with
    | nil =>
      rw [hcandidates] at hvalid
      cases hvalid
    | cons b rest =>
      have hmem : b ∈ b :: rest := List.mem_cons_self
      rw [← hcandidates, findBeneficiaries, List.mem_filter, List.mem_map] at hmem
      obtain ⟨⟨e, he, rfl⟩, hp⟩ := hmem
      exact ⟨hnorm, e.1, e.2, Table.mem_entries_iff.1 he, of_decide_eq_true hp⟩

/-- **The gate of local wires.** After any run of the calls that keep the list of beneficiaries, from
an empty one, the gate lets a local wire to `y` through if and only if some local beneficiary that is
not archived was last written with an IBAN of the same normal form, which is a Bahraini one; and
whenever `verifyBeneficiary` reports a local input valid, the gate lets its IBAN through. -/
theorem wire_gate_iff (env : Env) (toLowerCase : String → String) (w₀ : World)
    (hempty : rows w₀ = ∅) (tr : List (Step World BeneficiaryCall))
    (P : Pool World Error (Option WireBeneficiary) BeneficiaryCall)
    (hrun : ListRun env (fun _ => True) w₀ tr P) :
    (∀ y, Accepts env (some y) P.state ↔ ∃ id b x, Approved env tr P.state y id b x) ∧
      ∀ (input : VerifyBeneficiaryInput) (name : Option String) (w : World),
        input.type = .local_ →
        (verifyBeneficiary env toLowerCase input).run P.state = (.ok ⟨true, name⟩, w) →
        Accepts env input.iban P.state := by
  have hfaithful := faithful_of_run hempty hrun
  refine ⟨fun y => accepts_iff.trans (listed_iff hfaithful y), fun input name w htype hvalid => ?_⟩
  exact accepts_iff.2 (listed_of_valid htype hvalid)

/-! ## A sample -/

/-- A local beneficiary as an admin types it. -/
def sampleBeneficiary (iban : String) : WireBeneficiaryDto where
  type := .local_
  name := "Carl"
  bankName := "Bank of Bahrain"
  routingNumber := none
  accountNumber := none
  swiftBic := none
  iban := some iban
  country := none
  beneficiaryAddress := none
  notes := none

/-- A beneficiary is added and its IBAN corrected. -/
def sampleList : List (Choice BeneficiaryCall) :=
  [.call (.create 9 (sampleBeneficiary "bh67 BMAG 0000 1299 1234 56") 5), .step 0,
    .call (.update 5 (sampleBeneficiary " BH29BMAG1299123456BH00")), .step 1, .step 1]

/-- The bank after these calls. -/
def sampleListed : List (Step World BeneficiaryCall) ×
    Pool World Error (Option WireBeneficiary) BeneficiaryCall :=
  exec (program sampleEnv) sampleWorld sampleList

/-- The corrected IBAN is let through, however it is typed. -/
theorem wire_gate_sample : ∃ id b x,
    Approved sampleEnv sampleListed.1 sampleListed.2.state "bh29 bmag 1299 1234 56bh 00" id b x := by
  refine ((wire_gate_iff sampleEnv id sampleWorld rfl sampleListed.1 sampleListed.2
    (exec_run sampleList fun _ _ => trivial)).1 "bh29 bmag 1299 1234 56bh 00").1 ?_
  refine accepts_iff.2 ⟨by decide +kernel, 5, ⟨.local_, "Carl", "Bank of Bahrain", none, none, none,
    some "BH29BMAG1299123456BH00", none, none, none, 9, none⟩, ?_, rfl, rfl, ?_⟩
  · decide +kernel
  · decide +kernel

end BankDemo.Wires
