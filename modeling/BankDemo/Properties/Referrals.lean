import BankDemo.Foundations.Draws
import BankDemo.Referrals.Service
import Mathlib.Data.FinEnum
import Mathlib.Data.List.GetD

/-!
# Referrals that were earned

The listeners read a referral and write it later, so a referral can be taken over by a second applicant.
In every interleaving, though, a qualified referral has had an applicant who named its code, is not the
referrer and received money from another bank after joining (`qualified_earned`).

The alphabet of the codes has 32 letters and an octet 256 values, so no code is likelier than another
(`generateCode_uniform`).
-/

namespace BankDemo.Referrals

open Prog

/-! ## Codes -/

theorem letter_mem (b : UInt8) : letter b ∈ alphabet := by
  have hlength : b.toNat % alphabet.length < alphabet.length := Nat.mod_lt _ (by decide)
  rw [letter, List.getD_eq_getElem _ _ hlength]
  exact List.getElem_mem hlength

/-- Every letter is drawn in eight ways. -/
theorem card_letter : ∀ c ∈ alphabet, (Finset.univ.filter fun b : UInt8 => letter b = c).card = 8 := by
  have hall : alphabet.all (fun c =>
      (Finset.univ.filter fun b : UInt8 => letter b = c).card = 8) = true := by
    decide +kernel
  simpa using hall

theorem alphanum_alphabet : ∀ c ∈ alphabet, c.isAlphanum = true :=
  List.all_eq_true.1 (by decide)

/-- A text that has `n` letters of the alphabet. -/
def IsCode (n : ℕ) (code : String) : Prop :=
  code.toList.length = n ∧ ∀ c ∈ code.toList, c ∈ alphabet

instance (n : ℕ) (code : String) : Decidable (IsCode n code) :=
  have := List.decidableBAll (· ∈ alphabet) code.toList
  inferInstanceAs (Decidable (_ ∧ _))

theorem isCode_generateCode {n : ℕ} (d : Fin n → UInt8) : IsCode n (generateCode (List.ofFn d)) := by
  refine ⟨by simp [generateCode], fun c hc => ?_⟩
  simp only [generateCode, String.toList_ofList, List.mem_map] at hc
  obtain ⟨b, -, rfl⟩ := hc
  exact letter_mem b

/-- **No code is likelier than another.** Of the octets that can be drawn for a code of `n` letters, exactly
`8 ^ n` give any text of `n` letters of the alphabet, and none gives another text; and where `n` is between
4 and 16, what is given is accepted as a code at sign-up. -/
theorem generateCode_uniform (n : ℕ) (code : String) :
    (Finset.univ.filter fun d : Fin n → UInt8 => generateCode (List.ofFn d) = code).card =
        (if IsCode n code then 8 ^ n else 0) ∧
      (4 ≤ n → n ≤ 16 → ∀ d : Fin n → UInt8,
        isReferralCode (generateCode (List.ofFn d)) = true) := by
  refine ⟨?_, fun hmin hmax d => ?_⟩
  · split
    · rename_i hcode
      obtain ⟨hlength, hletters⟩ := hcode
      -- the code as a word
      let word : Fin n → Char := fun i => code.toList.get (i.cast hlength.symm)
      have hword : code.toList = List.ofFn word := by
        apply List.ext_getElem
        · simp [hlength]
        · intro i _ _
          simp [word]
      have hiff : ∀ d : Fin n → UInt8,
          generateCode (List.ofFn d) = code ↔ ∀ i, letter (d i) = word i := by
        intro d
        rw [generateCode, List.map_ofFn, ← String.toList_inj, String.toList_ofList, hword,
          List.ofFn_inj, funext_iff]
        rfl
      simp only [hiff]
      apply Draws.card_words_const
      exact fun i => card_letter _ (hletters _ (List.get_mem _ _))
    · rename_i hcode
      rw [Finset.card_eq_zero, Finset.filter_eq_empty_iff]
      intro d _ heq
      exact hcode (heq ▸ isCode_generateCode d)
  · obtain ⟨hlength, hletters⟩ := isCode_generateCode d
    have hall : (generateCode (List.ofFn d)).toList.all Char.isAlphanum = true :=
      List.all_eq_true.2 fun c hc => alphanum_alphabet c (hletters c hc)
    simp [isReferralCode, hlength, hall, hmin, hmax]

/-! ## What the calls do -/

variable {bonusCents : ℤ} {s₀ s s' : State} {c : Call} {tr : List (Step State Call)}
  {P : Pool State Error Unit Call}

/-- How a step of a call changes a referral. -/
inductive Change (bonusCents : ℤ) : Call → List (State × State) → Uuid → Referral → Referral → Prop
  | joined {now : Instant} {payload : SignupCompletedPayload} {s₁ s₂ : State} {id : Uuid}
      {read row : Referral} (hsignup : s₁.signups.lookup payload.signupId = some (some read.code))
      (hread : s₂.referrals.lookup id = some read) (hother : read.referrerUserId ≠ payload.userId)
      (hsent : read.status = .sent) :
      Change bonusCents (.signupCompleted now payload) [(s₂, s₂), (s₁, s₁)] id row
        (joined now payload row)
  | qualified {now : Instant} {payload : AdminTransferSettledPayload} {s₁ : State} {id : Uuid}
      {read row : Referral} (hread : s₁.referrals.lookup id = some read)
      (hinvited : read.invitedUserId = some payload.userId) (hsigned : read.status = .signedUp)
      (hdeposit : payload.deposit = true) (hkind : payload.qualifying = true) :
      Change bonusCents (.transferSettled now payload) [(s₁, s₁)] id row
        (qualifiedRow bonusCents now row)

/-- What a step of a call makes of the referrals. -/
inductive ReferralStep (bonusCents : ℤ) (c : Call) (own : List (State × State)) (s s' : State) : Prop
  | same (h : s'.referrals = s.referrals)
  | created {now : Instant} {userId id : Uuid} {email : Option String} {code : String}
      (hnew : s.referrals.lookup id = none) (h : s'.referrals =
        s.referrals.insert id (newReferral now userId email code))
  | changed {id : Uuid} {row row' : Referral} (hchange : Change bonusCents c own id row row')
      (hrow : s.referrals.lookup id = some row) (h : s'.referrals = s.referrals.insert id row')

/-- The newest of the steps that a call took. -/
def Did (bonusCents : ℤ) (c : Call) : List (State × State) → Prop
  | [] => True
  | (s, s') :: own => ReferralStep bonusCents c own s s'

theorem create_eq_ok {id : Uuid} {row : Referral} {r : Referral × State}
    (h : create id row s = .ok r) : s.referrals.lookup id = none ∧
      r.2 = { s with referrals := s.referrals.insert id row } := by
  unfold create at h
  split at h
  · cases h
  · rename_i hnew
    split at h
    · cases h
    · cases h
      exact ⟨by simpa using hnew, rfl⟩

theorem update_eq_ok {id : Uuid} {f : Referral → Referral} {r : Unit × State}
    (h : update id f s = .ok r) : ∃ row, s.referrals.lookup id = some row ∧
      r.2 = { s with referrals := s.referrals.insert id (f row) } := by
  unfold update at h
  split at h
  · cases h
  · rename_i row hrow
    cases h
    exact ⟨row, hrow, rfl⟩

theorem updateSignup_eq_ok {id : Uuid} {code : Option String} {r : Unit × State}
    (h : updateSignup id code s = .ok r) : r.2.referrals = s.referrals := by
  unfold updateSignup at h
  split at h
  · cases h
  · cases h
    rfl

theorem createSignup_eq_ok {id : Uuid} {code : Option String} {r : Unit × State}
    (h : createSignup id code s = .ok r) : r.2.referrals = s.referrals := by
  unfold createSignup at h
  split at h
  · cases h
  · cases h
    rfl

section Parts

variable {α β : Type} {own : List (State × State)}

/-- A query, then more. -/
theorem does_query {f : State → α} {k : α → Handler β}
    (hk : ∀ s, (k (f s)).Does (Did bonusCents c) (fun _ _ => True) ((s, s) :: own)) :
    (query f >>= k).Does (Did bonusCents c) (fun _ _ => True) own :=
  does_bind (does_read fun s => ⟨.same rfl, hk s⟩)

/-- A statement at the end. -/
theorem does_statement {body : State → Except Error (α × State)}
    (hbody : ∀ s a s', body s = .ok (a, s') → ReferralStep bonusCents c own s s') :
    (statement body).Does (Did bonusCents c) (fun _ _ => True) own :=
  does_attempt (fun s a s' _ h => ⟨hbody s a s' h, trivial⟩) fun _ _ _ _ => ⟨.same rfl, trivial⟩

/-- Failures are logged. -/
theorem does_logged {p : Handler Unit}
    (hp : p.Does (Did bonusCents c) (fun _ _ => True) own) :
    (tryCatch p fun _ => (pure () : Handler Unit)).Does (Did bonusCents c) (fun _ _ => True)
      own := by
  apply does_tryCatch
  refine hp.imp (fun _ h => h) fun own r _ => ?_
  cases r with
  | ok a => trivial
  | error e => trivial

/-- The attempts of an invitation. -/
theorem each_invite {now : Instant} {userId : Uuid} {email : Option String}
    (draws : List (Uuid × List UInt8)) :
    (invite now userId email draws).Each fun s s' =>
      ∀ own, ReferralStep bonusCents c own s s' := by
  induction draws with
  | nil => trivial
  | cons draw rest ih =>
    refine each_tryCatch (each_attempt (fun s own => .same rfl) fun s r h own => ?_) fun e => ?_
    · obtain ⟨hnew, heq⟩ := create_eq_ok h
      exact .created hnew (by rw [heq])
    · split
      · exact ih
      · trivial

end Parts

theorem does_signupCompleted (now : Instant) (payload : SignupCompletedPayload) :
    (resolveSignup now payload).Does (Did bonusCents (.signupCompleted now payload))
      (fun _ _ => True) [] := by
  refine does_query fun s₁ => ?_
  cases hsignup : s₁.signups.lookup payload.signupId with
  | none => trivial
  | some referralCode =>
    cases referralCode with
    | none => trivial
    | some code =>
      dsimp only
      split
      · trivial
      · refine does_query fun s₂ => ?_
        cases hfind : s₂.referrals.findRow fun r => r.code = code with
        | none => trivial
        | some found =>
          obtain ⟨id, read⟩ := found
          obtain ⟨hread, hcode⟩ := Table.findRow_some hfind
          dsimp only
          split
          · trivial
          · rename_i hother
            split
            · trivial
            · rename_i hsent
              refine does_statement fun s _ s' h => ?_
              obtain ⟨row, hrow, heq⟩ := update_eq_ok h
              have hsignup' : s₁.signups.lookup payload.signupId = some (some read.code) := by
                rw [hsignup, of_decide_eq_true hcode]
              exact .changed (.joined hsignup' hread hother (not_not.1 hsent)) hrow
                (congrArg State.referrals heq)

theorem does_transferSettled (now : Instant) (payload : AdminTransferSettledPayload) :
    (qualify bonusCents now payload).Does (Did bonusCents (.transferSettled now payload))
      (fun _ _ => True) [] := by
  unfold qualify
  split
  · trivial
  · rename_i hdeposit
    refine does_query fun s₁ => ?_
    cases hfind : s₁.referrals.findRow fun r =>
        r.invitedUserId = some payload.userId && r.status = .signedUp with
    | none => trivial
    | some found =>
      obtain ⟨id, read⟩ := found
      obtain ⟨hread, hfits⟩ := Table.findRow_some hfind
      simp only [Bool.and_eq_true, decide_eq_true_eq] at hfits
      dsimp only
      split
      · trivial
      · rename_i hkind
        refine does_statement fun s _ s' h => ?_
        obtain ⟨row, hrow, heq⟩ := update_eq_ok h
        exact .changed (.qualified hread hfits.1 hfits.2 (by simpa using hdeposit)
          (by simpa using hkind)) hrow (congrArg State.referrals heq)

theorem handle_does (bonusCents : ℤ) (c : Call) :
    (handle bonusCents c).Does (Did bonusCents c) (fun _ _ => True) [] := by
  cases c with
  | invite now userId email draws =>
    exact (each_invite draws).does_bind (fun _ _ _ h => h _) (fun _ _ _ => trivial)
      fun _ _ => trivial
  | begin_ signupId referralCode =>
    refine does_query fun s => ?_
    cases s.signups.lookup signupId with
    | none => exact does_statement fun s _ s' h => .same (createSignup_eq_ok h)
    | some existing => exact does_statement fun s _ s' h => .same (updateSignup_eq_ok h)
  | attachToSignup signupId code =>
    refine does_query fun s => ?_
    cases s.referrals.findRow fun r => r.code = code with
    | none => trivial
    | some found =>
      dsimp only
      split
      · trivial
      · exact does_statement fun s _ s' h => .same (updateSignup_eq_ok h)
  | signupCompleted now payload => exact does_logged (does_signupCompleted now payload)
  | transferSettled now payload => exact does_logged (does_transferSettled now payload)

/-! ## Rows after a step -/

/-- The code of a referral and whose it is stay. -/
theorem Change.fixed {own : List (State × State)} {id : Uuid} {row row' : Referral}
    (h : Change bonusCents c own id row row') :
    row'.code = row.code ∧ row'.referrerUserId = row.referrerUserId := by
  cases h <;> exact ⟨rfl, rfl⟩

/-- The row of a referral after a step. -/
theorem ReferralStep.lookup {own : List (State × State)} (h : ReferralStep bonusCents c own s s')
    {id : Uuid} {row' : Referral} (hrow' : s'.referrals.lookup id = some row') :
    s.referrals.lookup id = some row' ∨
      (∃ now userId email code, row' = newReferral now userId email code) ∨
      ∃ row, s.referrals.lookup id = some row ∧ Change bonusCents c own id row row' := by
  cases h with
  | same h =>
    rw [h] at hrow'
    exact .inl hrow'
  | @created now userId _ email code hnew h =>
    rw [h, Table.lookup_insert_ite] at hrow'
    split at hrow'
    · exact .inr (.inl ⟨now, userId, email, code, (Option.some.inj hrow').symm⟩)
    · exact .inl hrow'
  | @changed _ row _ hchange hrow h =>
    rw [h, Table.lookup_insert_ite] at hrow'
    split at hrow'
    · rename_i hid
      subst hid
      obtain rfl := Option.some.inj hrow'
      exact .inr (.inr ⟨row, hrow, hchange⟩)
    · exact .inl hrow'

/-- A referral that is there stays, with its code and its referrer. -/
theorem ReferralStep.kept {own : List (State × State)} (h : ReferralStep bonusCents c own s s')
    {id : Uuid} {row : Referral} (hrow : s.referrals.lookup id = some row) :
    ∃ row', s'.referrals.lookup id = some row' ∧ row'.code = row.code ∧
      row'.referrerUserId = row.referrerUserId := by
  cases h with
  | same h => exact ⟨row, by rw [h, hrow], rfl, rfl⟩
  | @created _ _ a _ _ hnew h =>
    have hne : id ≠ a := by
      rintro rfl
      rw [hrow] at hnew
      cases hnew
    exact ⟨row, by rw [h, AList.lookup_insert_ne hne, hrow], rfl, rfl⟩
  | @changed a old new hchange hold h =>
    by_cases hid : id = a
    · subst hid
      obtain rfl := Option.some.inj (hrow.symm.trans hold)
      exact ⟨new, by rw [h, AList.lookup_insert], hchange.fixed⟩
    · exact ⟨row, by rw [h, AList.lookup_insert_ne hid, hrow], rfl, rfl⟩

/-! ## Runs -/

/-- An applicant other than the referrer completed a sign-up that named the code while the referral was
open, and the referral became the applicant's. -/
def Joined (id userId : Uuid) (row : Referral) (tr : List (Step State Call)) : Prop :=
  ∃ later x earlier, tr = later ++ x :: earlier ∧ userId ≠ row.referrerUserId ∧
    ∃ now payload, x.call = .signupCompleted now payload ∧ payload.userId = userId ∧
      (∃ y ∈ earlier, y.tid = x.tid ∧ y.pre.signups.lookup payload.signupId = some (some row.code)) ∧
      ∃ y ∈ earlier, y.tid = x.tid ∧ ∃ read, y.pre.referrals.lookup id = some read ∧
        read.status = .sent

/-- Money from another bank arrived for a user whose the referral was. -/
def Deposited (id userId : Uuid) (row : Referral) (tr : List (Step State Call)) : Prop :=
  ∃ later x mid y past, tr = later ++ x :: (mid ++ y :: past) ∧ y.tid = x.tid ∧
    (∃ now payload, x.call = .transferSettled now payload ∧ payload.userId = userId ∧
      payload.deposit = true ∧ payload.qualifying = true) ∧
    (∃ read, y.pre.referrals.lookup id = some read ∧ read.invitedUserId = some userId ∧
      read.status = .signedUp) ∧ Joined id userId row past

section Longer

variable {id userId : Uuid} {row row' : Referral} {earlier : List (Step State Call)}

theorem Joined.append (h : Joined id userId row earlier) (later : List (Step State Call)) :
    Joined id userId row (later ++ earlier) := by
  obtain ⟨late, x, past, rfl, hjoined⟩ := h
  exact ⟨later ++ late, x, past, (List.append_assoc ..).symm, hjoined⟩

theorem Deposited.append (h : Deposited id userId row earlier) (later : List (Step State Call)) :
    Deposited id userId row (later ++ earlier) := by
  obtain ⟨late, x, mid, y, past, rfl, hdeposited⟩ := h
  exact ⟨later ++ late, x, mid, y, past, (List.append_assoc ..).symm, hdeposited⟩

/-- Only the code and the referrer of the row matter. -/
theorem Joined.congr (h : Joined id userId row tr) (hcode : row'.code = row.code)
    (hreferrer : row'.referrerUserId = row.referrerUserId) : Joined id userId row' tr := by
  unfold Joined
  rw [hcode, hreferrer]
  exact h

theorem Deposited.congr (h : Deposited id userId row tr) (hcode : row'.code = row.code)
    (hreferrer : row'.referrerUserId = row.referrerUserId) : Deposited id userId row' tr := by
  obtain ⟨later, x, mid, y, past, hsplit, htid, hcall, hread, hjoined⟩ := h
  exact ⟨later, x, mid, y, past, hsplit, htid, hcall, hread, hjoined.congr hcode hreferrer⟩

end Longer

section Runs

variable (hrun : Run (fun _ => handle bonusCents) (fun _ => True) s₀ tr P)

include hrun

theorem referral_step {later earlier : List (Step State Call)} {x : Step State Call}
    (hsplit : tr = later ++ x :: earlier) :
    ReferralStep bonusCents x.call (own x.tid earlier) x.pre x.post :=
  (hrun.does fun _ c _ => handle_does bonusCents c).1 later x earlier hsplit

/-- What a step found of a referral, the referral has kept. -/
theorem referral_kept {late mid past : List (Step State Call)} {y : Step State Call}
    (hsplit : tr = late ++ (mid ++ y :: past)) {id : Uuid} {read row : Referral}
    (hread : y.pre.referrals.lookup id = some read)
    (hrow : (reached s₀ (mid ++ y :: past)).referrals.lookup id = some row) :
    row.code = read.code ∧ row.referrerUserId = read.referrerUserId := by
  have hy : y.pre = reached s₀ past :=
    hrun.pre_eq (show tr = (late ++ mid) ++ y :: past by rw [hsplit, List.append_assoc])
  obtain ⟨P', hrun', hstate⟩ := hrun.upto hsplit
  have hkeep := hrun'.keeps (I := fun s => ∃ row, s.referrals.lookup id = some row ∧
    row.code = read.code ∧ row.referrerUserId = read.referrerUserId)
    (show mid ++ y :: past = (mid ++ [y]) ++ past by simp) ⟨read, by rw [← hy, hread], rfl, rfl⟩
    fun l x m hx ⟨row, hrow, hcode, hreferrer⟩ => ?_
  · obtain ⟨row', hrow', hcode, hreferrer⟩ := hkeep.2
    rw [hrow'] at hrow
    obtain rfl := Option.some.inj hrow
    exact ⟨hcode, hreferrer⟩
  · have hstep := referral_step hrun' (show mid ++ y :: past = l ++ x :: (m ++ past) by
      rw [show mid ++ y :: past = (mid ++ [y]) ++ past by simp, hx]
      simp)
    obtain ⟨row', hrow', hcode', hreferrer'⟩ := hstep.kept hrow
    exact ⟨row', hrow', hcode'.trans hcode, hreferrer'.trans hreferrer⟩

/-- The user of a referral has joined by it. -/
theorem invited_joined (hempty : s₀.referrals = ∅) {id userId : Uuid} {row : Referral}
    (hrow : P.state.referrals.lookup id = some row) (hinvited : row.invitedUserId = some userId) :
    Joined id userId row tr := by
  refine hrun.induct (I := fun tr s => ∀ row userId, s.referrals.lookup id = some row →
    row.invitedUserId = some userId → Joined id userId row tr) ?_ ?_ row userId hrow hinvited
  · intro row userId hrow
    rw [hempty, AList.lookup_empty] at hrow
    cases hrow
  · intro later x earlier hsplit ih row' userId hrow' hinvited
    have hstep := referral_step hrun hsplit
    rcases hstep.lookup hrow' with hsame | ⟨now, u, email, code, rfl⟩ | ⟨row, hrow, hchange⟩
    · exact (ih row' userId hsame hinvited).append [x]
    · cases hinvited
    · have hfixed := hchange.fixed
      generalize hc : x.call = c at hchange
      generalize hown : own x.tid earlier = own' at hchange
      cases hchange with
      | @joined now payload s₁ s₂ _ read _ hsignup hread hother hsent =>
        obtain rfl := Option.some.inj hinvited
        obtain ⟨mid, y₂, rest, hearlier, htid₂, heq₂, -, hrest⟩ := own_eq_cons hown
        obtain ⟨mid', y₁, past, hrest', htid₁, heq₁, -, -⟩ := own_eq_cons hrest
        obtain ⟨rfl, -⟩ := Prod.mk.inj heq₂
        obtain ⟨rfl, -⟩ := Prod.mk.inj heq₁
        have hkept := referral_kept hrun
          (show tr = (later ++ [x]) ++ (mid ++ y₂ :: rest) by rw [hsplit, hearlier]; simp) hread
          (by rw [← hearlier, ← hrun.pre_eq hsplit, hrow])
        refine ⟨[], x, earlier, rfl, ?_, now, payload, hc, rfl, ⟨y₁, ?_, htid₁, ?_⟩,
          y₂, ?_, htid₂, read, hread, hsent⟩
        · rw [hfixed.2, hkept.2]
          exact Ne.symm hother
        · rw [hearlier, hrest']
          simp
        · rw [hsignup, hfixed.1, hkept.1]
        · rw [hearlier]
          simp
      | qualified => exact ((ih row userId hrow hinvited).append [x]).congr hfixed.1 hfixed.2

end Runs

/-- **Earned referrals.** In every interleaving of the calls from the time when there were no referrals, a
referral that is qualified or has a payout has the configured bonus as its payout, and money from another
bank arrived for a user who was the referral's by then: an applicant, not the referrer, who had completed
a sign-up that named the code while the referral was open. -/
theorem qualified_earned (bonusCents : ℤ) (s₀ : State) (hempty : s₀.referrals = ∅)
    (tr : List (Step State Call)) (P : Pool State Error Unit Call)
    (hrun : Run (fun _ => handle bonusCents) (fun _ => True) s₀ tr P) (id : Uuid) (row : Referral)
    (hrow : P.state.referrals.lookup id = some row) :
    (row.status = .qualified → row.payoutCents = some bonusCents) ∧
    (row.payoutCents.isSome → row.payoutCents = some bonusCents ∧
      ∃ userId, userId ≠ row.referrerUserId ∧ Deposited id userId row tr) := by
  refine hrun.induct (I := fun tr s => ∀ row, s.referrals.lookup id = some row →
    (row.status = .qualified → row.payoutCents = some bonusCents) ∧
    (row.payoutCents.isSome → row.payoutCents = some bonusCents ∧
      ∃ userId, userId ≠ row.referrerUserId ∧ Deposited id userId row tr)) ?_ ?_ row hrow
  · intro row hrow
    rw [hempty, AList.lookup_empty] at hrow
    cases hrow
  · intro later x earlier hsplit ih row' hrow'
    have hstep := referral_step hrun hsplit
    rcases hstep.lookup hrow' with hsame | ⟨now, u, email, code, rfl⟩ | ⟨row, hrow, hchange⟩
    · obtain ⟨hstatus, hpayout⟩ := ih row' hsame
      refine ⟨hstatus, fun hsome => ?_⟩
      obtain ⟨hbonus, userId, hne, hdeposited⟩ := hpayout hsome
      exact ⟨hbonus, userId, hne, hdeposited.append [x]⟩
    · exact ⟨fun h => (by cases h), fun h => (by cases h)⟩
    · have hfixed := hchange.fixed
      obtain ⟨hstatus, hpayout⟩ := ih row hrow
      generalize hc : x.call = c at hchange
      generalize hown : own x.tid earlier = own' at hchange
      cases hchange with
      | joined =>
        refine ⟨fun h => (by cases h), fun hsome => ?_⟩
        obtain ⟨hbonus, userId, hne, hdeposited⟩ := hpayout hsome
        exact ⟨hbonus, userId, hne, (hdeposited.append [x]).congr hfixed.1 hfixed.2⟩
      | @qualified now payload s₁ _ read _ hread hinvited hsigned hdeposit hkind =>
        refine ⟨fun _ => rfl, fun _ => ⟨rfl, payload.userId, ?_⟩⟩
        obtain ⟨mid, y, past, hearlier, htid, heq, -, -⟩ := own_eq_cons hown
        obtain ⟨rfl, -⟩ := Prod.mk.inj heq
        obtain ⟨P', hrun', hstate⟩ := hrun.before
          (show tr = (later ++ x :: mid) ++ y :: past by simp [hsplit, hearlier])
        have hkept := referral_kept hrun
          (show tr = (later ++ [x]) ++ (mid ++ y :: past) by rw [hsplit, hearlier]; simp) hread
          (by rw [← hearlier, ← hrun.pre_eq hsplit, hrow])
        have hjoined := invited_joined hrun' hempty (by rw [hstate, hread]) hinvited
        have hjoined' := hjoined.congr (hfixed.1.trans hkept.1) (hfixed.2.trans hkept.2)
        refine ⟨?_, [], x, mid, y, past, by rw [hearlier]; rfl, htid,
          ⟨now, payload, hc, rfl, hdeposit, hkind⟩, ⟨read, hread, hinvited, hsigned⟩, hjoined'⟩
        obtain ⟨_, _, _, _, hne, -⟩ := hjoined'
        exact hne

/-! ### A referral that qualifies -/

def sampleReferrals : State := ⟨∅, ∅⟩

/-- User 1 invites, user 2 signs up with the code and receives an ACH transfer. -/
def sampleQualified : List (Step State Call) × Pool State Error Unit Call :=
  exec (fun _ => handle 2500) sampleReferrals
    [.call (.invite 0 1 none [(5, List.replicate 8 0)]), .step 0,
      .call (.begin_ 9 (some "AAAAAAAA")), .step 1, .step 1,
      .call (.signupCompleted 1 ⟨2, 9⟩), .step 2, .step 2, .step 2,
      .call (.transferSettled 2 ⟨2, true, .achIn⟩), .step 3, .step 3]

/-- The referral of the run. -/
def sampleRow : Referral where
  referrerUserId := 1
  invitedEmail := none
  invitedUserId := some 2
  code := "AAAAAAAA"
  status := .qualified
  payoutCents := some 2500
  createdAt := 0
  resolvedAt := some 1
  qualifiedAt := some 2

theorem qualified_earned_sample :
    (sampleRow.status = .qualified → sampleRow.payoutCents = some 2500) ∧
    (sampleRow.payoutCents.isSome → sampleRow.payoutCents = some 2500 ∧
      ∃ userId, userId ≠ sampleRow.referrerUserId ∧
        Deposited 5 userId sampleRow sampleQualified.1) :=
  qualified_earned 2500 sampleReferrals rfl _ _ (exec_run _ fun _ _ => trivial) 5 sampleRow
    (by decide +kernel)

end BankDemo.Referrals
