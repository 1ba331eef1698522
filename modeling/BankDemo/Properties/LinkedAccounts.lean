import BankDemo.LinkedAccounts.Rules

/-!
# Linked accounts that were earned

The calls about a request to link an account look at the request once and write later, and nothing keeps
them apart. In every interleaving, though, an approval creates an account only for an owner who had a
code sent for the request and then entered that code, before the admin looked at the request, and an
approved request names an account that its approval created for the owner (`captured_earned`).

The wrong codes are counted by the database itself: in every interleaving a request counts exactly the
wrong codes since its last code was sent, and a code is only compared while these are fewer than five
(`guesses_counted`).

A link token is looked up, compared with its user and deleted without a pause, so in every interleaving
each use of a token goes back to a `createLinkToken` of the same user, with no other use since; the
tokens of `reauth`, which are issued to nobody, are never used (`token_once`).
-/

namespace BankDemo.LinkedAccounts

open Prog

variable {env : Env} {s₀ : State} {tr : List (Step State Call)} {P : Pool State Error Unit Call}

/-! ## The owner of a request -/

/-- Whose the request under the id is. -/
def owner (id : Uuid) (s : State) : Option Uuid :=
  (s.requests.lookup id).map LinkedAccountAuth.userId

instance (id : Uuid) (x : Step State Call) : Decidable (Appears (owner id) x) :=
  inferInstanceAs (Decidable (_ ∧ _))

/-- No two requests were created under one id. -/
def FreshIds (tr : List (Step State Call)) : Prop := ∀ id, AtMostOnce (Appears (owner id)) tr

theorem FreshIds.before {later earlier : List (Step State Call)} (h : FreshIds (later ++ earlier)) :
    FreshIds earlier :=
  fun id => (List.pairwise_append.1 (h id)).2.1

/-- It is enough to look at the ids that are there after a step. -/
theorem freshIds_of_keys (h : tr.Pairwise fun x y => ∀ id ∈ x.post.requests.keys,
    Appears (owner id) x → ¬ Appears (owner id) y) : FreshIds tr := by
  refine fun id => h.imp fun hpair happears => hpair id ?_ happears
  have hpost := happears.2
  rw [owner, Option.isSome_map, AList.lookup_isSome] at hpost
  exact AList.mem_keys.2 hpost

theorem request_step (hrun : Run (fun _ => handle env) (fun _ => True) s₀ tr P)
    {later earlier : List (Step State Call)} {x : Step State Call}
    (hsplit : tr = later ++ x :: earlier) :
    RequestStep env x.call (own x.tid earlier) x.pre x.post ∧
      AccountStep env x.call (own x.tid earlier) x.pre x.post := by
  have hdid : Did env x.call ((x.pre, x.post) :: own x.tid earlier) :=
    (hrun.does fun _ c _ => handle_does env c).1 later x earlier hsplit
  exact ⟨hdid.1, hdid.2.1⟩

/-- A request is its owner's from the time a call found it. -/
theorem owner_stable (hrun : Run (fun _ => handle env) (fun _ => True) s₀ tr P)
    (hempty : s₀.requests = ∅) (hfresh : FreshIds tr) {later mid past : List (Step State Call)}
    {x y : Step State Call} (hsplit : tr = later ++ x :: (mid ++ y :: past)) {id : Uuid}
    {read row : LinkedAccountAuth} (hread : y.pre.requests.lookup id = some read)
    (hrow : x.pre.requests.lookup id = some row) : row.userId = read.userId := by
  have hkept : ∀ z ∈ tr, ∀ u u', owner id z.pre = some u → owner id z.post = some u' → u = u' := by
    intro z hz u u' hu hu'
    obtain ⟨row, hrow, rfl⟩ := Option.map_eq_some_iff.1 hu
    obtain ⟨row', hrow', rfl⟩ := Option.map_eq_some_iff.1 hu'
    obtain ⟨late, rest, hz⟩ := List.mem_iff_append.1 hz
    rcases (request_step hrun hz).1.lookup hrow' with hsame | ⟨hnone, -⟩ | ⟨row₁, hrow₁, hchange⟩
    · rw [hrow] at hsame
      rw [Option.some.inj hsame]
    · rw [hrow] at hnone
      cases hnone
    · rw [hrow] at hrow₁
      rw [hchange.owner, Option.some.inj hrow₁]
  have hstart : (owner id s₀).isSome → ∀ z ∈ tr, ¬ Appears (owner id) z := by
    intro hsome
    rw [owner, hempty, AList.lookup_empty] at hsome
    cases hsome
  have hx : x.pre = reached s₀ ((mid ++ [y]) ++ past) := by
    rw [hrun.pre_eq hsplit, List.append_assoc, List.singleton_append]
  have hy : y.pre = reached s₀ past :=
    hrun.pre_eq (show tr = (later ++ x :: mid) ++ y :: past by simp [hsplit])
  rw [hx] at hrow
  rw [hy] at hread
  have hbefore : owner id (reached s₀ past) = some read.userId := by
    rw [owner, hread, Option.map_some]
  have hafter : owner id (reached s₀ ((mid ++ [y]) ++ past)) = some row.userId := by
    rw [owner, hrow, Option.map_some]
  exact (hrun.stable (R := Eq) (fun _ => rfl) Eq.trans hkept (hfresh id) hstart
    (show tr = (later ++ [x]) ++ ((mid ++ [y]) ++ past) by simp [hsplit]) hbefore hafter).symm

/-- What a customer's call found, at its first step. -/
theorem FoundOpen.split {userId id : Uuid} {i : ℕ} {earlier : List (Step State Call)}
    {read : LinkedAccountAuth} (h : FoundOpen userId id (own i earlier) read) :
    ∃ mid y past, earlier = mid ++ y :: past ∧ y.tid = i ∧
      y.pre.requests.lookup id = some read ∧ read.userId = userId ∧ read.status = .awaitingOtp := by
  obtain ⟨s₁, hown, hread, howner, hstatus⟩ := h
  obtain ⟨mid, y, past, hsplit, htid, heq, -, -⟩ := own_eq_cons hown
  obtain ⟨rfl, -⟩ := Prod.mk.inj heq
  exact ⟨mid, y, past, hsplit, htid, hread, howner, hstatus⟩

/-! ## Codes that were sent and entered -/

/-- The owner had a code sent for the request, which left its hash there. -/
def Sent (env : Env) (id userId : Uuid) (hash : String) (tr : List (Step State Call)) : Prop :=
  ∃ x ∈ tr, ∃ now email d, x.call = .sendOtp now userId id email d ∧
    hash = env.argonHash d.salt (codeText d.code) ∧
    ∃ row, x.pre.requests.lookup id = some row ∧ x.post.requests.lookup id =
      some (coded env now (env.toLowerCase (JsString.trim email)) d row)

/-- The owner entered a code that fits the hash which the call found at the request, where a code sent
before had left it, and the request went on to wait for approval. -/
def Accepted (env : Env) (id userId : Uuid) (tr : List (Step State Call)) : Prop :=
  ∃ later x mid y past, tr = later ++ x :: (mid ++ y :: past) ∧ y.tid = x.tid ∧
    ∃ now code read hash row, x.call = .verifyOtp now userId id code ∧
      y.pre.requests.lookup id = some read ∧ Comparable now hash read ∧
      env.argonVerify hash code = true ∧ Sent env id userId hash past ∧
      x.pre.requests.lookup id = some row ∧ x.post.requests.lookup id = some (verified row)

/-- An approval of the request created the account for the owner. -/
def Captured (env : Env) (id userId accountId : Uuid) (tr : List (Step State Call)) : Prop :=
  ∃ x ∈ tr, ∃ now actorUserId d read, x.call = .approve now actorUserId id d ∧
    d.accountId = accountId ∧ read.userId = userId ∧
    x.post.accounts = x.pre.accounts.insert accountId (capturedAccount env now id read d)

section Longer

variable {id userId : Uuid} {hash : String} {earlier : List (Step State Call)}

theorem Sent.append (h : Sent env id userId hash earlier) (later : List (Step State Call)) :
    Sent env id userId hash (later ++ earlier) := by
  obtain ⟨x, hx, hsent⟩ := h
  exact ⟨x, List.mem_append_right later hx, hsent⟩

theorem Accepted.append (h : Accepted env id userId earlier) (later : List (Step State Call)) :
    Accepted env id userId (later ++ earlier) := by
  obtain ⟨late, x, mid, y, past, hsplit, haccepted⟩ := h
  exact ⟨later ++ late, x, mid, y, past, by rw [hsplit, List.append_assoc], haccepted⟩

end Longer

section Runs

variable (hrun : Run (fun _ => handle env) (fun _ => True) s₀ tr P) (hempty : s₀.requests = ∅)
  (hfresh : FreshIds tr)

include hrun hempty hfresh

/-- The hash at a request was left by a code that its owner had sent. -/
theorem hash_sent {id : Uuid} {row : LinkedAccountAuth} {hash : String}
    (hrow : P.state.requests.lookup id = some row) (hhash : row.otpHash = some hash) :
    Sent env id row.userId hash tr := by
  refine hrun.induct (I := fun tr s => ∀ id row hash, s.requests.lookup id = some row →
    row.otpHash = some hash → Sent env id row.userId hash tr) ?_ ?_ id row hash hrow hhash
  · intro id row hash hrow
    rw [hempty, AList.lookup_empty] at hrow
    cases hrow
  · intro later x earlier hsplit ih id row' hash hrow' hhash
    rcases (request_step hrun hsplit).1.lookup hrow' with hsame | ⟨-, now, u, input, d, -, rfl⟩ |
      ⟨row, hrow, hchange⟩
    · exact (ih id row' hash hsame hhash).append [x]
    · cases hhash
    · rw [hchange.owner]
      -- the code is new, or the hash is the one that was there
      generalize hc : x.call = c at hchange
      generalize hown : own x.tid earlier = own' at hchange
      cases hchange with
      | @coded now userId _ email d _ read _ hread =>
        rw [← hown] at hread
        obtain ⟨mid, y, past, hearlier, -, hfound, rfl, -⟩ := hread.split
        rw [hearlier] at hsplit
        have howner := owner_stable hrun hempty hfresh hsplit hfound hrow
        obtain rfl := Option.some.inj hhash
        exact ⟨x, List.mem_cons_self, now, email, d, by rw [howner, hc], rfl, row, hrow, hrow'⟩
      | counted => exact (ih id row hash hrow hhash).append [x]
      | verified => cases hhash
      | approved => exact (ih id row hash hrow hhash).append [x]
      | rejected => exact (ih id row hash hrow hhash).append [x]

/-- A request waits for approval because its owner entered the code. -/
theorem awaiting_accepted {id : Uuid} {row : LinkedAccountAuth}
    (hrow : P.state.requests.lookup id = some row) (hstatus : row.status = .awaitingApproval) :
    Accepted env id row.userId tr := by
  refine hrun.induct (I := fun tr s => ∀ id row, s.requests.lookup id = some row →
    row.status = .awaitingApproval → Accepted env id row.userId tr) ?_ ?_ id row hrow hstatus
  · intro id row hrow
    rw [hempty, AList.lookup_empty] at hrow
    cases hrow
  · intro later x earlier hsplit ih id row' hrow' hstatus
    rcases (request_step hrun hsplit).1.lookup hrow' with hsame | ⟨-, now, u, input, d, -, rfl⟩ |
      ⟨row, hrow, hchange⟩
    · exact (ih id row' hsame hstatus).append [x]
    · cases hstatus
    · rw [hchange.owner]
      generalize hc : x.call = c at hchange
      generalize hown : own x.tid earlier = own' at hchange
      cases hchange with
      | coded => exact (ih id row hrow hstatus).append [x]
      | counted => exact (ih id row hrow hstatus).append [x]
      | @verified now userId _ code hash _ read _ hread hpasses hright =>
        rw [← hown] at hread
        obtain ⟨mid, y, past, hearlier, htid, hfound, rfl, -⟩ := hread.split
        rw [hearlier] at hsplit
        have howner := owner_stable hrun hempty hfresh hsplit hfound hrow
        -- the hash that was compared had been left by a code sent before
        obtain ⟨P', hrun', hstate⟩ := hrun.before
          (show tr = (later ++ x :: mid) ++ y :: past by simp [hsplit])
        rw [← hstate] at hfound
        have hfresh' : FreshIds past := FreshIds.before
          (by rwa [hsplit, show later ++ x :: (mid ++ y :: past) =
            (later ++ x :: (mid ++ [y])) ++ past by simp] at hfresh)
        have hsent := hash_sent hrun' hempty hfresh' hfound hpasses.1
        rw [hstate] at hfound
        rw [howner]
        exact ⟨[], x, mid, y, past, by rw [hearlier]; rfl, htid, now, code, read, hash, row, hc,
          hfound, hpasses, hright, hsent, hrow, hrow'⟩
      | approved => cases hstatus
      | rejected => cases hstatus

/-- An approved request names an account that its approval created for the owner. -/
theorem approved_captured {id : Uuid} {row : LinkedAccountAuth}
    (hrow : P.state.requests.lookup id = some row) (hstatus : row.status = .approved) :
    ∃ accountId, row.linkedAccountId = some accountId ∧
      Captured env id row.userId accountId tr := by
  refine hrun.induct (I := fun tr s => ∀ id row, s.requests.lookup id = some row →
    row.status = .approved → ∃ accountId, row.linkedAccountId = some accountId ∧
      Captured env id row.userId accountId tr) ?_ ?_ id row hrow hstatus
  · intro id row hrow
    rw [hempty, AList.lookup_empty] at hrow
    cases hrow
  · intro later x earlier hsplit ih id row' hrow' hstatus
    have hold : ∀ row, x.pre.requests.lookup id = some row → row.status = .approved →
        ∃ accountId, row.linkedAccountId = some accountId ∧
          Captured env id row.userId accountId (x :: earlier) := by
      intro row hrow hstatus
      obtain ⟨accountId, haccount, z, hz, hcaptured⟩ := ih id row hrow hstatus
      exact ⟨accountId, haccount, z, List.mem_cons_of_mem x hz, hcaptured⟩
    rcases (request_step hrun hsplit).1.lookup hrow' with hsame | ⟨-, now, u, input, d, -, rfl⟩ |
      ⟨row, hrow, hchange⟩
    · exact hold row' hsame hstatus
    · cases hstatus
    · rw [hchange.owner]
      generalize hc : x.call = c at hchange
      generalize hown : own x.tid earlier = own' at hchange
      cases hchange with
      | coded => exact hold row hrow hstatus
      | counted => exact hold row hrow hstatus
      | verified => cases hstatus
      | @approved now actorUserId _ d s₁ s₂ s₃ read _ hread hnew haccount =>
        -- the account was created by the step before, and the request was read by the one before that
        obtain ⟨mid, z, rest, hearlier, htid, heq, -, hrest⟩ := own_eq_cons hown
        obtain ⟨mid', y, past, hrest', -, heq', -, -⟩ := own_eq_cons hrest
        obtain ⟨rfl, rfl⟩ := Prod.mk.inj heq
        obtain ⟨hfound, -⟩ := Prod.mk.inj heq'
        rw [← hfound] at hread
        have hlong : tr = later ++ x :: ((mid ++ z :: mid') ++ y :: past) := by
          rw [hsplit, hearlier, hrest']
          simp
        have howner := owner_stable hrun hempty hfresh hlong hread hrow
        have hz : z ∈ tr := by simp [hlong]
        have hzcall : z.call = .approve now actorUserId id d := by
          rw [hrun.call_eq hz (show x ∈ tr by simp [hlong]) htid, hc]
        refine ⟨d.accountId, rfl, z, List.mem_cons_of_mem x (by simp [hearlier]), now, actorUserId, d,
          read, hzcall, rfl, howner.symm, haccount⟩
      | rejected => cases hstatus

end Runs

/-- The approval looked at the request, at its first step, when its owner had entered the code. -/
def LookedEarned (env : Env) (id : Uuid) (i : ℕ) (earlier : List (Step State Call))
    (read : LinkedAccountAuth) : Prop :=
  ∃ mid y past, earlier = mid ++ y :: past ∧ y.tid = i ∧ own i past = [] ∧
    y.pre.requests.lookup id = some read ∧ Accepted env id read.userId past

/-- **Earned accounts.** Where no two requests are created under one id, in every interleaving of the
calls from the time when there were no requests: an approval changes the accounts only by adding one for
the owner of a request whose code the owner had been sent and had entered before the approval looked at
it, and an approved request names an account that its approval created for the owner. -/
theorem captured_earned (env : Env) (s₀ : State) (hempty : s₀.requests = ∅)
    (tr : List (Step State Call)) (P : Pool State Error Unit Call)
    (hrun : Run (fun _ => handle env) (fun _ => True) s₀ tr P) (hfresh : FreshIds tr) :
    (∀ later x earlier, tr = later ++ x :: earlier → ∀ now actorUserId id d,
      x.call = .approve now actorUserId id d → x.post.accounts ≠ x.pre.accounts →
      ∃ read, LookedEarned env id x.tid earlier read ∧ x.post.accounts =
        x.pre.accounts.insert d.accountId (capturedAccount env now id read d)) ∧
    ∀ id row, P.state.requests.lookup id = some row → row.status = .approved →
      ∃ accountId, row.linkedAccountId = some accountId ∧
        Captured env id row.userId accountId tr := by
  refine ⟨fun later x earlier hsplit now actorUserId id d hcall hnew => ?_, fun id row hrow hstatus =>
    approved_captured hrun hempty hfresh hrow hstatus⟩
  have hstep := (request_step hrun hsplit).2
  rw [hcall] at hstep
  generalize hown : own x.tid earlier = own' at hstep
  cases hstep with
  | same h => exact absurd h hnew
  | @captured _ _ _ _ s₁ _ _ read hread hstatus _ h =>
    obtain ⟨mid, y, past, hearlier, htid, heq, -, hpast⟩ := own_eq_cons hown
    obtain ⟨hfound, -⟩ := Prod.mk.inj heq
    rw [← hfound] at hread
    obtain ⟨P', hrun', hstate⟩ := hrun.before
      (show tr = (later ++ x :: mid) ++ y :: past by simp [hsplit, hearlier])
    have hfresh' : FreshIds past := FreshIds.before
      (by rwa [hsplit, hearlier, show later ++ x :: (mid ++ y :: past) =
        (later ++ x :: (mid ++ [y])) ++ past by simp] at hfresh)
    have haccepted := awaiting_accepted hrun' hempty hfresh' (by rw [hstate, hread]) hstatus
    exact ⟨read, ⟨mid, y, past, hearlier, htid, hpast, hread, haccepted⟩, h⟩
  | other h => exact h.elim

/-! ### A request that is approved -/

/-- Nothing is hidden, and a text is its own hash. -/
def sampleEnv : Env where
  gcm := {
    sealUnder := fun _ _ text => (List.replicate 16 0, text)
    openUnder := fun _ _ _ enc => some enc
    lossy := fun _ => "" }
  key := AesGcm.Key.ofConfig none
  argonHash := fun _ text => text
  argonVerify := fun hash text => hash = text
  toLowerCase := id
  superadminEmail := "root@bank.example"
  adminEmail := "desk@bank.example"
  reauthDraw := fun _ _ _ => false

def sampleStart : State where
  users := (∅ : Table Uuid User).insert 1 ⟨"ann@mail.example", some "Ann", none⟩
  requests := ∅
  accounts := ∅
  linkTokens := ∅
  mails := []
  events := []

def sampleNonce : AesGcm.Nonce := ⟨List.replicate 12 1, List.length_replicate⟩

def sampleInitiate : Call :=
  .initiate 0 1 ⟨"ins_a", "A", "ann", "secret"⟩ ⟨7, sampleNonce, sampleNonce⟩

def sampleSend : Call := .sendOtp 1 1 7 "ann@mail.example" ⟨123456, 0, .ok "m1", .ok "m2"⟩

def sampleApprove : Call := .approve 4 99 7 ⟨50, 1234, sampleNonce⟩

/-- The calls, and who acts. -/
def sampleRun (sched : List (Choice Call)) : List (Step State Call) × Pool State Error Unit Call :=
  exec (fun _ => handle sampleEnv) sampleStart sched

theorem sampleRun_run (sched : List (Choice Call)) : Run (fun _ => handle sampleEnv)
    (fun _ => True) sampleStart (sampleRun sched).1 (sampleRun sched).2 :=
  exec_run sched fun _ _ => trivial

/-- A request, its code, a wrong guess and a right one, and the approval. -/
def sampleSchedule : List (Choice Call) :=
  .call sampleInitiate :: List.replicate 4 (.step 0) ++
    .call sampleSend :: List.replicate 4 (.step 1) ++
    .call (.verifyOtp 2 1 7 "000000") :: List.replicate 2 (.step 2) ++
    .call (.verifyOtp 3 1 7 "123456") :: List.replicate 2 (.step 3) ++
    .call sampleApprove :: List.replicate 6 (.step 4)

theorem captured_earned_sample :
    (∀ later x earlier, (sampleRun sampleSchedule).1 = later ++ x :: earlier →
      ∀ now actorUserId id d, x.call = .approve now actorUserId id d →
      x.post.accounts ≠ x.pre.accounts →
      ∃ read, LookedEarned sampleEnv id x.tid earlier read ∧ x.post.accounts =
        x.pre.accounts.insert d.accountId (capturedAccount sampleEnv now id read d)) ∧
    ∀ id row, (sampleRun sampleSchedule).2.state.requests.lookup id = some row →
      row.status = .approved → ∃ accountId, row.linkedAccountId = some accountId ∧
        Captured sampleEnv id row.userId accountId (sampleRun sampleSchedule).1 :=
  captured_earned sampleEnv sampleStart rfl _ _ (sampleRun_run sampleSchedule)
    (freshIds_of_keys (by decide +kernel))

/-- The request of the run is approved, after one wrong guess. -/
example : ((sampleRun sampleSchedule).2.state.requests.lookup 7).map
    (fun row => (row.status, row.linkedAccountId, row.otpAttempts)) =
      some (.approved, some 50, 1) := by
  decide +kernel

/-! ## Wrong codes -/

/-- The request that a call found at the only step it took so far. -/
def foundBy (id : Uuid) : List (State × State) → Option LinkedAccountAuth
  | [(s₁, _)] => s₁.requests.lookup id
  | _ => none

/-- A step of the call leaves a new code at the request. -/
def Call.leavesCode (env : Env) (id : Uuid) (s s' : State) : Call → Bool
  | .sendOtp now _ id' email d => id' = id && s'.requests.lookup id =
      (s.requests.lookup id).map (coded env now (env.toLowerCase (JsString.trim email)) d)
  | _ => false

/-- A step of the call records that the code does not fit the hash which the call found. -/
def Call.recordsWrong (env : Env) (id : Uuid) (own : List (State × State)) (s s' : State) :
    Call → Bool
  | .verifyOtp _ _ id' code => id' = id && s'.requests.lookup id ≠ s.requests.lookup id &&
      (foundBy id own).any fun found => !env.argonVerify (found.otpHash.getD "") code
  | _ => false

/-- The wrong codes recorded at the request since its last code was sent. -/
def wrongSince (env : Env) (id : Uuid) : List (Step State Call) → ℕ
  | [] => 0
  | x :: earlier =>
    if x.pre.requests.lookup id = none ∨ x.call.leavesCode env id x.pre x.post = true then 0
    else if x.call.recordsWrong env id (own x.tid earlier) x.pre x.post = true then
      wrongSince env id earlier + 1
    else wrongSince env id earlier

theorem FoundOpen.foundBy {userId id : Uuid} {own : List (State × State)} {found : LinkedAccountAuth}
    (h : FoundOpen userId id own found) : foundBy id own = some found := by
  obtain ⟨s₁, rfl, hfound, -, -⟩ := h
  exact hfound

section Records

variable {c : Call} {own : List (State × State)} {id : Uuid} {s s' : State}
  {row row' : LinkedAccountAuth}

/-- A step that leaves the request as it is records nothing. -/
theorem records_same (hrow : s.requests.lookup id = some row)
    (hrow' : s'.requests.lookup id = some row) : c.recordsWrong env id own s s' = false := by
  cases c <;> simp [Call.recordsWrong, hrow, hrow']

/-- A code that is left in a request as it is was there. -/
theorem leaves_same (hrow : s.requests.lookup id = some row)
    (hrow' : s'.requests.lookup id = some row) (h : c.leavesCode env id s s' = true) :
    row.otpAttempts = 0 := by
  cases c with
  | sendOtp now userId id' email d =>
    simp only [Call.leavesCode, Bool.and_eq_true, decide_eq_true_eq, hrow, hrow',
      Option.map_some] at h
    rw [Option.some.inj h.2]
    rfl
  | _ => simp [Call.leavesCode] at h

/-- What a change makes of the counter. -/
theorem Change.records (h : Change env c own id row row') (hrow : s.requests.lookup id = some row)
    (hrow' : s'.requests.lookup id = some row') : row'.otpAttempts =
      if c.leavesCode env id s s' = true then 0
      else if c.recordsWrong env id own s s' = true then row.otpAttempts + 1
      else row.otpAttempts := by
  cases h with
  | coded hread => simp [Call.leavesCode, hrow, hrow', LinkedAccounts.coded]
  | @counted now userId _ code hash _ found _ hread hpasses hwrong =>
    have hne : ¬ (({ row with otpAttempts := row.otpAttempts + 1 } : LinkedAccountAuth) = row) := by
      intro heq
      have hattempts := congrArg LinkedAccountAuth.otpAttempts heq
      simp at hattempts
    simp [Call.leavesCode, Call.recordsWrong, hrow, hrow', hread.foundBy, hpasses.1, hwrong, hne]
  | @verified now userId _ code hash _ found _ hread hpasses hright =>
    simp [Call.leavesCode, Call.recordsWrong, hread.foundBy, hpasses.1, hright, LinkedAccounts.verified]
  | approved => simp [Call.leavesCode, Call.recordsWrong, approvedRow]
  | rejected => simp [Call.leavesCode, Call.recordsWrong, rejectedRow]

end Records

section Runs

variable (hrun : Run (fun _ => handle env) (fun _ => True) s₀ tr P) (hempty : s₀.requests = ∅)

include hrun hempty

/-- A request counts the wrong codes since its last code. -/
theorem attempts_eq {id : Uuid} {row : LinkedAccountAuth}
    (hrow : P.state.requests.lookup id = some row) : row.otpAttempts = wrongSince env id tr := by
  refine hrun.induct (I := fun tr s => ∀ row, s.requests.lookup id = some row →
    row.otpAttempts = wrongSince env id tr) ?_ ?_ row hrow
  · intro row hrow
    rw [hempty, AList.lookup_empty] at hrow
    cases hrow
  · intro later x earlier hsplit ih row' hrow'
    rcases (request_step hrun hsplit).1.lookup hrow' with hsame | ⟨hnone, now, u, input, d, -, rfl⟩ |
      ⟨row, hrow, hchange⟩
    · have hrecords : x.call.recordsWrong env id (own x.tid earlier) x.pre x.post = false :=
        records_same hsame hrow'
      have hcount := ih row' hsame
      by_cases h : x.call.leavesCode env id x.pre x.post = true
      · rw [leaves_same hsame hrow' h]
        simp [wrongSince, h]
      · simpa [wrongSince, h, hrecords, hsame] using hcount
    · simp [wrongSince, hnone, newRequest]
    · rw [hchange.records hrow hrow', ih row hrow]
      simp [wrongSince, hrow]

end Runs

/-- **Counted guesses.** In every interleaving of the calls from the time when there were no requests, a
request counts exactly the wrong codes that were recorded since its last code was sent, and a call of
`verifyOtp` changes a request only if these were fewer than five when it looked. -/
theorem guesses_counted (env : Env) (s₀ : State) (hempty : s₀.requests = ∅)
    (tr : List (Step State Call)) (P : Pool State Error Unit Call)
    (hrun : Run (fun _ => handle env) (fun _ => True) s₀ tr P) (id : Uuid) :
    (∀ row, P.state.requests.lookup id = some row → row.otpAttempts = wrongSince env id tr) ∧
    ∀ later x mid y past, tr = later ++ x :: (mid ++ y :: past) → y.tid = x.tid →
      ∀ now userId code, x.call = .verifyOtp now userId id code →
      x.post.requests.lookup id ≠ x.pre.requests.lookup id → (x.post.requests.lookup id).isSome →
      wrongSince env id past < otpMaxAttempts := by
  refine ⟨fun row hrow => attempts_eq hrun hempty hrow, ?_⟩
  intro later x mid y past hsplit htid now userId code hcall hchanged hthere
  obtain ⟨row', hrow'⟩ := Option.isSome_iff_exists.1 hthere
  -- the call found the request when it looked, and passed the checks
  have hfound : ∃ found hash, FoundOpen userId id (own x.tid (mid ++ y :: past)) found ∧
      Comparable now hash found := by
    rcases (request_step hrun hsplit).1.lookup hrow' with hsame | ⟨-, _, _, _, _, hc, -⟩ |
      ⟨row, hrow, hchange⟩
    · rw [hrow', hsame] at hchanged
      exact absurd rfl hchanged
    · rw [hcall] at hc
      cases hc
    · rw [hcall] at hchange
      generalize own x.tid (mid ++ y :: past) = own' at hchange
      cases hchange with
      | @counted _ _ _ _ hash _ found _ hread hpasses => exact ⟨found, hash, hread, hpasses⟩
      | @verified _ _ _ _ hash _ found _ hread hpasses => exact ⟨found, hash, hread, hpasses⟩
  obtain ⟨found, hash, ⟨s₁, hown, hlookup, -, -⟩, hpasses⟩ := hfound
  -- its one step so far is `y`
  rw [own_append, ← htid, own_cons_self] at hown
  rcases List.append_eq_singleton_iff.1 hown with ⟨-, hy⟩ | ⟨-, hnil⟩
  · obtain ⟨heq, -⟩ := List.cons.inj hy
    obtain ⟨hpre, -⟩ := Prod.mk.inj heq
    obtain ⟨P', hrun', hstate⟩ := hrun.before
      (show tr = (later ++ x :: mid) ++ y :: past by simp [hsplit])
    rw [← hpre, ← hstate] at hlookup
    rw [← attempts_eq hrun' hempty hlookup]
    exact hpasses.2.2
  · cases hnil

theorem guesses_counted_sample :
    (∀ row, (sampleRun sampleSchedule).2.state.requests.lookup 7 = some row →
      row.otpAttempts = wrongSince sampleEnv 7 (sampleRun sampleSchedule).1) ∧
    ∀ later x mid y past, (sampleRun sampleSchedule).1 = later ++ x :: (mid ++ y :: past) →
      y.tid = x.tid → ∀ now userId code, x.call = .verifyOtp now userId 7 code →
      x.post.requests.lookup 7 ≠ x.pre.requests.lookup 7 → (x.post.requests.lookup 7).isSome →
      wrongSince sampleEnv 7 past < otpMaxAttempts :=
  guesses_counted sampleEnv sampleStart rfl _ _ (sampleRun_run sampleSchedule) 7

/-! ## Link tokens -/

/-- The user and the token of a call that uses one. -/
def Call.redeems : Call → Option (Uuid × String)
  | .exchange _ userId publicToken _ | .completeReauth _ userId _ publicToken _ =>
    some (userId, (parsePublicToken publicToken).1)
  | _ => none

/-- The step uses the token for the user. -/
def Redeems (token : String) (userId : Uuid) (x : Step State Call) : Prop :=
  x.call.redeems = some (userId, token) ∧ x.post.linkTokens ≠ x.pre.linkTokens

/-- The token was issued to the user, and nobody has used it since. -/
def Unused (token : String) (userId : Uuid) (tr : List (Step State Call)) : Prop :=
  ∃ mid y past, tr = mid ++ y :: past ∧ y.call = .createLinkToken userId token ∧
    ∀ z ∈ mid, ∀ other, ¬ Redeems token other z

theorem token_step (hrun : Run (fun _ => handle env) (fun _ => True) s₀ tr P)
    {later earlier : List (Step State Call)} {x : Step State Call}
    (hsplit : tr = later ++ x :: earlier) : TokenStep x.call x.pre x.post := by
  have hdid : Did env x.call ((x.pre, x.post) :: own x.tid earlier) :=
    (hrun.does fun _ c _ => handle_does env c).1 later x earlier hsplit
  exact hdid.2.2

theorem Unused.cons {token : String} {userId : Uuid} {tr : List (Step State Call)}
    (h : Unused token userId tr) {x : Step State Call} (hx : ∀ other, ¬ Redeems token other x) :
    Unused token userId (x :: tr) := by
  obtain ⟨mid, y, past, rfl, hy, hmid⟩ := h
  exact ⟨x :: mid, y, past, rfl, hy, List.forall_mem_cons.2 ⟨hx, hmid⟩⟩

/-- A token that is there for a user is unused. -/
theorem unused_of_lookup (hrun : Run (fun _ => handle env) (fun _ => True) s₀ tr P)
    (hempty : s₀.linkTokens = ∅) {token : String} {userId : Uuid}
    (htoken : P.state.linkTokens.lookup token = some ⟨some userId⟩) : Unused token userId tr := by
  refine hrun.induct (I := fun tr s => s.linkTokens.lookup token = some ⟨some userId⟩ →
    Unused token userId tr) ?_ ?_ htoken
  · intro h
    rw [hempty, AList.lookup_empty] at h
    cases h
  · intro later x earlier hsplit ih hpost
    have hused : ∀ used by_, x.call.redeems = some (by_, used) →
        x.post.linkTokens = x.pre.linkTokens.erase used → Unused token userId (x :: earlier) := by
      intro used by_ hcall h
      have hne : token ≠ used := by
        rintro rfl
        rw [h, AList.lookup_erase] at hpost
        cases hpost
      rw [h, AList.lookup_erase_ne hne] at hpost
      refine (ih hpost).cons fun other hredeems => hne ?_
      exact (Prod.mk.inj (Option.some.inj (hredeems.1.symm.trans hcall))).2
    have hstep := token_step hrun hsplit
    generalize hc : x.call = c at hstep
    cases hstep with
    | same h =>
      rw [h] at hpost
      exact (ih hpost).cons fun other hredeems => hredeems.2 h
    | @issued userId' linkToken _ _ h =>
      rw [h, Table.lookup_insert_ite] at hpost
      split at hpost
      · rename_i heq
        subst heq
        obtain rfl := Option.some.inj (LinkTokenEnvelope.mk.inj (Option.some.inj hpost))
        exact ⟨[], x, earlier, rfl, hc, by simp⟩
      · exact (ih hpost).cons fun other hredeems => by simp [Redeems, hc, Call.redeems] at hredeems
    | issuedToNobody h =>
      rw [h, Table.lookup_insert_ite] at hpost
      split at hpost
      · cases Option.some.inj hpost
      · exact (ih hpost).cons fun other hredeems => by simp [Redeems, hc, Call.redeems] at hredeems
    | exchanged _ h | renewed _ h => exact hused _ _ (by rw [hc]; rfl) h

/-- **Used once.** In every interleaving of the calls from the time when there were no link tokens, each
use of a token was preceded by its issue to the same user, with no use in between; and an exchange adds an
account only for its own user, after it has used a token. -/
theorem token_once (env : Env) (s₀ : State) (hempty : s₀.linkTokens = ∅)
    (tr : List (Step State Call)) (P : Pool State Error Unit Call)
    (hrun : Run (fun _ => handle env) (fun _ => True) s₀ tr P) :
    (∀ later x earlier, tr = later ++ x :: earlier → ∀ token userId, Redeems token userId x →
      Unused token userId earlier) ∧
    ∀ later x earlier, tr = later ++ x :: earlier → ∀ now userId publicToken d,
      x.call = .exchange now userId publicToken d → x.post.accounts ≠ x.pre.accounts →
      (∃ y ∈ earlier, y.tid = x.tid ∧ Redeems (parsePublicToken publicToken).1 userId y) ∧
        ∃ id row, row.userId = userId ∧ x.post.accounts = x.pre.accounts.insert id row := by
  refine ⟨fun later x earlier hsplit token userId hredeems => ?_,
    fun later x earlier hsplit now userId publicToken d hcall hnew => ?_⟩
  · obtain ⟨hcall, hchanged⟩ := hredeems
    have htoken : x.pre.linkTokens.lookup token = some ⟨some userId⟩ := by
      have hstep := token_step hrun hsplit
      generalize x.call = c at hcall hstep
      cases hstep with
      | same h => exact absurd h hchanged
      | issued => cases hcall
      | issuedToNobody => cases hcall
      | exchanged htoken _ | renewed htoken _ =>
        cases hcall
        exact htoken
    obtain ⟨P', hrun', hstate⟩ := hrun.before hsplit
    rw [← hstate] at htoken
    exact unused_of_lookup hrun' hempty htoken
  · have hstep := (request_step hrun hsplit).2
    rw [hcall] at hstep
    generalize hown : own x.tid earlier = own' at hstep
    cases hstep with
    | same h => exact absurd h hnew
    | @exchanged _ _ id _ accountType _ inst mask _ _ _ hredeemed h =>
      obtain ⟨⟨s, s'⟩, hy, hne⟩ := hredeemed
      rw [← hown] at hy
      obtain ⟨y, hmem, htid, rfl, rfl⟩ := mem_own.1 hy
      refine ⟨⟨y, hmem, htid, ?_, hne⟩, id, _, ?_, h⟩
      · rw [hrun.call_eq (show y ∈ tr by simp [hsplit, hmem]) (show x ∈ tr by simp [hsplit]) htid,
          hcall]
        rfl
      · rfl
    | other h => exact h.elim

/-! ### A token, twice -/

def sampleExchange : Call :=
  .exchange 1 1 "link_stub_a|ins_wf_stub"
    ⟨"item_a", "access_a", sampleNonce, [(8, 1111), (9, 2222)]⟩

/-- A token is issued, and two exchanges use it. -/
def sampleTwice : List (Choice Call) :=
  [.call (.createLinkToken 1 "link_stub_a"), .step 0, .call sampleExchange, .call sampleExchange,
    .step 1, .step 2, .step 1, .step 1]

theorem token_once_sample :
    (∀ later x earlier, (sampleRun sampleTwice).1 = later ++ x :: earlier →
      ∀ token userId, Redeems token userId x → Unused token userId earlier) ∧
    ∀ later x earlier, (sampleRun sampleTwice).1 = later ++ x :: earlier →
      ∀ now userId publicToken d, x.call = .exchange now userId publicToken d →
      x.post.accounts ≠ x.pre.accounts →
      (∃ y ∈ earlier, y.tid = x.tid ∧ Redeems (parsePublicToken publicToken).1 userId y) ∧
        ∃ id row, row.userId = userId ∧ x.post.accounts = x.pre.accounts.insert id row :=
  token_once sampleEnv sampleStart rfl _ _ (sampleRun_run sampleTwice)

/-- Two accounts, both of the first exchange. -/
example : (sampleRun sampleTwice).2.state.accounts.entries.map
    (fun e => (e.1, e.2.institutionName, e.2.accountType)) =
      [(9, "Wells Fargo", "savings"), (8, "Wells Fargo", "checking")] := by
  decide +kernel

end BankDemo.LinkedAccounts
