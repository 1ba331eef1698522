import BankDemo.Elevation.Passkey

/-!
# Two doors for a passkey

A passkey opens two doors, the sign-in and the elevation, and both take their challenges from one
map. Whoever gets through one of them has answered, in time, a challenge that was begun before, with a
passkey that was enabled, and gets through for the user of the passkey; and a challenge lets through
one call at most, at whichever door (`passkey_doors`).
-/

namespace BankDemo.BiometricElevation

open Prog Biometric

variable {env : Env} {ttl : Crypto.TokenTtl}

/-! ## What the calls do to the challenges -/

/-- The time, the handle and the challenge of a call that begins. -/
def Call.begins : Call → Option (Instant × Uuid × String)
  | .begin now handle challenge => some (now, handle, challenge)
  | .service (.beginAuthentication now handle challenge) => some (now, handle, challenge)
  | _ => none

/-- What a call presents at one of the doors: the time, the handle, the response and the origin. -/
def Call.finishes : Call → Option (Instant × Uuid × Response × Option String)
  | .verify now _ handle response requestOrigin _ => some (now, handle, response, requestOrigin)
  | .service (.finishAuthentication now handle response requestOrigin) =>
    some (now, handle, response, requestOrigin)
  | _ => none

/-- The step leaves the challenges alone. -/
def SamePending (s s' : State) : Prop := s'.pendingAuth = s.pendingAuth

/-- What a step makes of the challenges. -/
inductive PendingStep (c : Call) (s s' : State) : Prop
  | same (h : SamePending s s')
  | begun {now : Instant} {handle : Uuid} {challenge : String}
      (hcall : c.begins = some (now, handle, challenge))
      (h : s'.pendingAuth = (s.pendingAuth.deleteMany fun _ p => p.expiresAt < now).insert handle
        ⟨challenge, now + challengeTtlMs⟩)
  | taken {handle : Uuid} (h : s'.pendingAuth = s.pendingAuth.erase handle)

/-- The steps of a call so far. -/
def Did (c : Call) : List (State × State) → Prop
  | [] => True
  | (s, s') :: _ => PendingStep c s s'

/-- The call took the challenge under its handle, in time, and the library confirmed that an enabled
passkey of the user had answered it. -/
def Asserted (env : Env) (c : Call) (own : List (State × State)) (userId : Uuid) : Prop :=
  ∃ now handle response requestOrigin, c.finishes = some (now, handle, response, requestOrigin) ∧
    ∃ x pending, (x, { x with pendingAuth := x.pendingAuth.erase handle }) ∈ own ∧
      x.pendingAuth.lookup handle = some pending ∧ now ≤ pending.expiresAt ∧
      ∃ g id row newCounter, (g, g) ∈ own ∧ g.enrollments.lookup id = some row ∧
        row.userId = userId ∧ row.disabledAt = none ∧
        rawCredentialId response = some row.credentialId ∧
        env.verifyAuthenticationResponse response (expected env pending.challenge requestOrigin)
          row.authenticator = .ok (some newCounter)

/-- What the answer of a call says. -/
def Promise (env : Env) (ttl : Crypto.TokenTtl) (c : Call) (own : List (State × State)) :
    Except Error Answer → Prop
  | .ok (.service (.user userId _)) => Asserted env c own userId
  | .ok (.elevated token) => ∃ now sub handle response requestOrigin jti,
    c = .verify now sub handle response requestOrigin jti ∧
      token = Crypto.signElevation ttl now jti sub .transferAuthorize ∧ Asserted env c own sub
  | _ => True

theorem samePending_refl (s : State) : SamePending s s := rfl

section Each

theorem samePending_store {s s' : State} {id : Uuid} {row : BiometricEnrollment}
    (h : s.store id row = .ok s') : SamePending s s' := by
  obtain ⟨-, rfl⟩ := store_eq_ok.1 h
  rfl

theorem samePending_update {s s' : State} {id : Uuid}
    {f : BiometricEnrollment → BiometricEnrollment} (h : s.update id f = .ok s') :
    SamePending s s' := by
  obtain ⟨row, -, hstore⟩ := update_eq_ok.1 h
  exact samePending_store hstore

theorem samePending_upsert {s s' : State} {userId deviceId id : Uuid}
    {update : BiometricEnrollment → BiometricEnrollment} {create : BiometricEnrollment}
    (h : s.upsert userId deviceId update id create = .ok s') : SamePending s s' := by
  rcases upsert_eq_ok.1 h with ⟨id', row, -, hstore⟩ | ⟨-, -, hstore⟩
  · exact samePending_store hstore
  · exact samePending_store hstore

/-- A challenge is used up and a row written. -/
theorem samePending_consume {s s' : State} {now : Instant} {id : Uuid}
    {f : State → Except Error State} (hf : ∀ s s', f s = .ok s' → SamePending s s')
    (h : (s.consume now id >>= f) = .ok s') : SamePending s s' := by
  unfold State.consume at h
  cases hc : s.challenges.lookup id with
  | none =>
    rw [hc] at h
    cases h
  | some c =>
    rw [hc] at h
    have hwrite : f { s with challenges := s.challenges.insert id { c with consumedAt := some now } } =
        .ok s' := h
    have hsame := hf _ _ hwrite
    exact hsame

theorem pending_notify (userId : Uuid) (title body : String) :
    (notifySecurity userId title body).Each SamePending :=
  each_modify fun _ => rfl

theorem pending_beginCeremony (now : Instant) (type : ChallengeType) (userId : Uuid)
    (challenge : String) (id : Uuid) :
    (beginCeremony now type userId challenge id).Each SamePending := by
  refine each_transaction samePending_refl fun s s' h => ?_
  split at h
  · cases h
  · cases h
    rfl

theorem pending_finishRegistration (now : Instant) (userId deviceId : Uuid) (response : Response)
    (requestOrigin : Option String) (id : Uuid) :
    (finishRegistration env now userId deviceId response requestOrigin id).Each SamePending := by
  refine each_bind (each_read _ samePending_refl) fun found => ?_
  cases found with
  | none => exact each_throw _
  | some found =>
    dsimp only
    split
    · exact each_throw _
    · refine each_bind (each_lift _) fun verified => ?_
      cases verified with
      | none => exact each_throw _
      | some info =>
        refine each_bind (each_read _ samePending_refl) fun existing => ?_
        split
        · exact each_throw _
        · refine each_bind (each_transaction samePending_refl fun s s' h => ?_) fun _ =>
            pending_notify _ _ _
          refine samePending_consume (fun s s' h => ?_) h
          unfold State.register at h
          dsimp only at h
          split at h
          · exact samePending_update h
          · exact samePending_upsert h

theorem pending_finishRebind (now : Instant) (userId deviceId : Uuid) (response : Response)
    (requestOrigin : Option String) (id : Uuid) :
    (finishRebind env now userId deviceId response requestOrigin id).Each SamePending := by
  refine each_bind (each_read _ samePending_refl) fun found => ?_
  cases found with
  | none => exact each_throw _
  | some found =>
    dsimp only
    split
    · exact each_throw _
    · cases rawCredentialId response with
      | none => exact each_throw _
      | some credentialId =>
        refine each_bind (each_read _ samePending_refl) fun existing => ?_
        cases existing with
        | none =>
          refine each_bind (each_transaction samePending_refl fun s s' h => ?_) fun _ =>
            pending_notify _ _ _
          exact samePending_consume (fun _ _ h => samePending_upsert h) h
        | some existing =>
          dsimp only
          split
          · exact each_throw _
          · refine each_bind (each_lift _) fun verified => ?_
            cases verified with
            | none => exact each_throw _
            | some newCounter =>
              refine each_bind (each_transaction samePending_refl fun s s' h => ?_) fun _ =>
                pending_notify _ _ _
              exact samePending_consume (fun _ _ h => samePending_update h) h

theorem pending_remove (now : Instant) (userId id : Uuid) :
    (remove now userId id).Each SamePending := by
  refine each_bind (each_read _ samePending_refl) fun found => ?_
  cases found with
  | none => exact each_throw _
  | some row =>
    dsimp only
    split
    · exact each_throw _
    · split
      · exact each_pure _
      · exact each_bind (each_transaction samePending_refl fun _ _ h => samePending_update h)
          fun _ => pending_notify _ _ _

theorem pending_reactivate (now : Instant) (userId deviceId : Uuid) :
    (reactivate now userId deviceId).Each SamePending := by
  refine each_bind (each_read _ samePending_refl) fun found => ?_
  cases found with
  | none => exact each_pure _
  | some found =>
    dsimp only
    split
    · exact each_pure _
    · exact each_bind (each_transaction samePending_refl fun _ _ h => samePending_update h)
        fun _ => each_bind (pending_notify _ _ _) fun _ => each_pure _

end Each

theorem does_transaction {G : List (State × State) → Prop}
    {Q : List (State × State) → Except Error Unit → Prop} {own : List (State × State)}
    {f : State → Except Error State}
    (hok : ∀ s s', f s = .ok s' → G ((s, s') :: own) ∧ Q ((s, s') :: own) (.ok ()))
    (herr : ∀ s e, f s = .error e → G ((s, s) :: own) ∧ Q ((s, s) :: own) (.error e)) :
    (Biometric.transaction f).Does G Q own := by
  refine does_attempt (fun s u s' _ hbody => ?_) fun s e _ hbody => ?_
  · cases hf : f s with
    | error e =>
      rw [hf] at hbody
      cases hbody
    | ok s₁ =>
      rw [hf] at hbody
      cases hbody
      exact hok s s' hf
  · cases hf : f s with
    | error e' =>
      rw [hf] at hbody
      cases hbody
      exact herr s e hf
    | ok s₁ =>
      rw [hf] at hbody
      cases hbody

theorem finishAuthentication_does {c : Call} {now : Instant} {handle : Uuid} {response : Response}
    {requestOrigin : Option String}
    (hc : c.finishes = some (now, handle, response, requestOrigin)) :
    (finishAuthentication env now handle response requestOrigin).Does (Did c) (fun own r =>
      match r with
      | .ok user => Asserted env c own user.1
      | .error _ => True) [] := by
  refine does_bind (does_attempt (fun x found x' _ hbody => ?_) fun s e _ hbody => by cases hbody)
  obtain ⟨rfl, rfl⟩ := Prod.mk.inj (Except.ok.inj hbody)
  refine ⟨.taken rfl, ?_⟩
  dsimp only
  cases hpending : x.pendingAuth.lookup handle with
  | none => exact trivial
  | some pending =>
    dsimp only
    split
    · exact trivial
    · next htime =>
      cases hcredential : rawCredentialId response with
      | none => exact trivial
      | some credentialId =>
        refine does_bind (does_read fun g => ⟨.same rfl, ?_⟩)
        dsimp only
        cases hfound : g.findCredential credentialId with
        | none => exact trivial
        | some found =>
          obtain ⟨id, row⟩ := found
          obtain ⟨hrow, rfl⟩ := findCredential_some hfound
          dsimp only
          split
          · exact trivial
          · next henabled =>
            refine does_bind (does_lift ?_)
            cases hverified : env.verifyAuthenticationResponse response
                (expected env pending.challenge requestOrigin) row.authenticator with
            | error e => exact trivial
            | ok verified =>
              cases verified with
              | none => exact trivial
              | some newCounter =>
                refine does_bind (does_transaction (fun s s' hupdate => ?_)
                  fun s e _ => ⟨.same rfl, trivial⟩)
                exact ⟨.same (samePending_update hupdate), now, handle, response, requestOrigin, hc,
                  x, pending, by simp, hpending, Int.not_lt.1 htime, g, id, row, newCounter, by simp,
                  hrow, rfl, by simpa using henabled, hcredential, hverified⟩

/-- A handler that leaves the challenges alone, and whose answer says nothing. -/
theorem does_same {α : Type} {c : Call} {p : Handler α} {answer : α → Answer}
    (hp : p.Each SamePending)
    (hanswer : ∀ own a, Promise env ttl c own (.ok (answer a))) :
    (p >>= fun a => pure (answer a)).Does (Did c) (Promise env ttl c) [] :=
  hp.does_bind (fun _ _ _ h => .same h) (fun a later _ => hanswer (later ++ []) a)
    fun _ _ => trivial

theorem does_begin {c : Call} {now : Instant} {handle : Uuid} {challenge : String} {answer : Answer}
    (hc : c.begins = some (now, handle, challenge))
    (hanswer : ∀ own, Promise env ttl c own (.ok answer)) :
    (beginAuthentication now handle challenge >>= fun _ => pure answer).Does (Did c)
      (Promise env ttl c) [] :=
  does_bind (does_modify fun _ _ => ⟨.begun hc rfl, hanswer _⟩)

/-- What every call does. -/
theorem handle_does (c : Call) : (handle env ttl c).Does (Did c) (Promise env ttl c) [] := by
  cases c with
  | begin now h challenge => exact does_begin rfl fun _ => trivial
  | verify now sub h response requestOrigin jti =>
    refine does_bind (does_bind ((finishAuthentication_does rfl).imp (fun _ h => h) fun own r hr => ?_))
    cases r with
    | error e => exact trivial
    | ok user =>
      obtain ⟨userId, deviceIdHint⟩ := user
      dsimp only
      split
      · exact trivial
      · next hsub =>
        rw [not_not] at hsub
        rw [hsub] at hr
        exact ⟨now, sub, h, response, requestOrigin, jti, rfl, rfl, hr⟩
  | service c =>
    cases c with
    | finishAuthentication now h response requestOrigin =>
      refine does_bind (does_bind ((finishAuthentication_does rfl).imp (fun _ h => h)
        fun own r hr => ?_))
      cases r with
      | error e => exact trivial
      | ok user => exact hr
    | beginAuthentication now h challenge =>
      simp only [handle, Biometric.handle, bind_assoc, pure_bind]
      exact does_begin rfl fun _ => trivial
    | beginRegistration now userId challenge id =>
      simp only [handle, Biometric.handle, bind_assoc, pure_bind]
      exact does_same (pending_beginCeremony now _ _ _ _) fun _ _ => trivial
    | beginRebind now userId challenge id =>
      simp only [handle, Biometric.handle, bind_assoc, pure_bind]
      exact does_same (pending_beginCeremony now _ _ _ _) fun _ _ => trivial
    | finishRegistration now userId deviceId response requestOrigin id =>
      simp only [handle, Biometric.handle, bind_assoc, pure_bind]
      exact does_same (pending_finishRegistration now _ _ _ _ _) fun _ _ => trivial
    | finishRebind now userId deviceId response requestOrigin id =>
      simp only [handle, Biometric.handle, bind_assoc, pure_bind]
      exact does_same (pending_finishRebind now _ _ _ _ _) fun _ _ => trivial
    | remove now userId id =>
      simp only [handle, Biometric.handle, bind_assoc, pure_bind]
      exact does_same (pending_remove now _ _) fun _ _ => trivial
    | reactivate now userId deviceId =>
      simp only [handle, Biometric.handle, bind_assoc, pure_bind]
      exact does_same (pending_reactivate now _ _)
        fun _ _ => trivial

/-! ## Runs -/

/-- The thread `i` took the challenge that the step `y`, after the steps `earlier`, had begun at most
five minutes before; nobody had taken it in between. The challenge was answered with an enabled passkey
of the user. -/
inductive Answered (env : Env) (tr : List (Step State Call)) (i : ℕ) (c : Call) (userId : Uuid)
    (y : Step State Call) (earlier : List (Step State Call)) : Prop
  | intro {later mid : List (Step State Call)} {x g : Step State Call} {now begun : Instant}
      {handle id : Uuid} {challenge : String} {response : Response} {requestOrigin : Option String}
      {row : BiometricEnrollment} {newCounter : ℕ}
      (htr : tr = later ++ x :: (mid ++ y :: earlier)) (hx : x.tid = i)
      (hfinishes : c.finishes = some (now, handle, response, requestOrigin))
      (hbegins : y.call.begins = some (begun, handle, challenge))
      (htime : now ≤ begun + challengeTtlMs)
      (hkept : ∀ z ∈ mid, z.post.pendingAuth.lookup handle =
        some ⟨challenge, begun + challengeTtlMs⟩)
      (htaken : x.post.pendingAuth.lookup handle = none)
      (hg : g ∈ tr) (hgid : g.tid = i) (hrow : g.pre.enrollments.lookup id = some row)
      (huser : row.userId = userId) (henabled : row.disabledAt = none)
      (hcredential : rawCredentialId response = some row.credentialId)
      (hverified : env.verifyAuthenticationResponse response (expected env challenge requestOrigin)
        row.authenticator = .ok (some newCounter))

section Runs

variable {s₀ : State} {tr : List (Step State Call)} {P : Pool State Error Answer Call}

/-- The same challenge is not answered twice. -/
theorem Answered.unique {i j : ℕ} {c c' : Call} {userId userId' : Uuid} {y y' : Step State Call}
    {earlier : List (Step State Call)} (h : Answered env tr i c userId y earlier)
    (h' : Answered env tr j c' userId' y' earlier) : i = j := by
  obtain @⟨later, mid, x, _, _, _, handle, _, challenge, _, _, _, _, htr, hx, -, hbegins, -, hkept,
    htaken, -⟩ := h
  obtain @⟨later', mid', x', _, _, _, handle', _, challenge', _, _, _, _, htr', hx', -, hbegins', -,
    hkept', htaken', -⟩ := h'
  have hsteps : (later ++ x :: mid) ++ (y :: earlier) = (later' ++ x' :: mid') ++ (y' :: earlier) := by
    simp only [List.append_assoc, List.cons_append]
    rw [← htr, htr']
  obtain ⟨hbefore, hy⟩ := List.append_inj' hsteps rfl
  obtain ⟨rfl, -⟩ := List.cons.inj hy
  rw [hbegins] at hbegins'
  cases hbegins'
  rcases List.append_eq_append_iff.1 hbefore with ⟨l, -, hl⟩ | ⟨l, -, hl⟩
  · cases l with
    | nil =>
      obtain ⟨rfl, -⟩ := List.cons.inj hl
      rw [← hx, hx']
    | cons z l =>
      obtain ⟨rfl, hmid⟩ := List.cons.inj hl
      have hthere := hkept x' (by rw [hmid]; simp)
      rw [htaken'] at hthere
      cases hthere
  · cases l with
    | nil =>
      obtain ⟨rfl, -⟩ := List.cons.inj hl
      rw [← hx, hx']
    | cons z l =>
      obtain ⟨rfl, hmid⟩ := List.cons.inj hl
      have hthere := hkept' x (by rw [hmid]; simp)
      rw [htaken] at hthere
      cases hthere

/-- A challenge that a step puts into the map was begun by its call. -/
theorem begun_of_step {c : Call} {s s' : State} (hstep : PendingStep c s s') {handle : Uuid}
    {pending : Identity.PendingAuth} (hnew : s.pendingAuth.lookup handle ≠ some pending)
    (hthere : s'.pendingAuth.lookup handle = some pending) :
    ∃ now, c.begins = some (now, handle, pending.challenge) ∧
      pending.expiresAt = now + challengeTtlMs := by
  cases hstep with
  | same h =>
    rw [h] at hthere
    exact absurd hthere hnew
  | @begun now handle' challenge hcall h =>
    rw [h, Table.lookup_insert_ite] at hthere
    split at hthere
    · next hhandle =>
      cases hthere
      rw [hhandle]
      exact ⟨now, hcall, rfl⟩
    · exact absurd (Table.lookup_deleteMany.1 hthere).1 hnew
  | @taken handle' h =>
    rw [h] at hthere
    by_cases hhandle : handle = handle'
    · rw [hhandle, AList.lookup_erase] at hthere
      cases hthere
    · rw [AList.lookup_erase_ne hhandle] at hthere
      exact absurd hthere hnew

/-- What was asserted at a door is the answer to a challenge. -/
theorem answered_of_asserted (hempty : s₀.pendingAuth = ∅)
    (hrun : Run (fun _ => handle env ttl) (fun _ => True) s₀ tr P) {i : ℕ} {c : Call} {userId : Uuid}
    (h : Asserted env c (own i tr) userId) : ∃ y earlier, Answered env tr i c userId y earlier := by
  obtain ⟨now, handle, response, requestOrigin, hfinishes, x₀, pending, htook, hpending, htime, g₀, id,
    row, newCounter, hread, hrow, huser, henabled, hcredential, hverified⟩ := h
  obtain ⟨x, hx, hxid, rfl, hxpost⟩ := mem_own.1 htook
  obtain ⟨g, hg, hgid, rfl, -⟩ := mem_own.1 hread
  obtain ⟨later, before, hsplit⟩ := List.mem_iff_append.1 hx
  obtain ⟨P', hrun', hstate⟩ := hrun.before hsplit
  obtain ⟨mid, y, earlier, rfl, hnew, hput, hmid⟩ := hrun'.became
    (I := fun s => s.pendingAuth.lookup handle = some pending) (by simp [hempty])
    (by rw [hstate]; exact hpending)
  have hstep : PendingStep y.call y.pre y.post :=
    (hrun'.does fun _ c _ => handle_does c).1 mid y earlier rfl
  obtain ⟨begun, hbegins, hexpires⟩ := begun_of_step hstep hnew hput
  rw [hexpires] at htime
  obtain ⟨challenge, expiresAt⟩ := pending
  dsimp only at hexpires hbegins htime hverified
  subst hexpires
  refine ⟨y, earlier, .intro hsplit hxid hfinishes hbegins htime (fun z hz => (hmid z hz).2) ?_ hg hgid
    hrow huser henabled hcredential hverified⟩
  rw [hxpost]
  exact AList.lookup_erase _ _

/-- **Two doors.** In every interleaving of the calls from the time when no challenge was pending, who
gets through a door has answered a challenge, begun at most five minutes before, with an enabled
passkey: the sign-in names the user of the passkey, and the elevation is for transfers of the signed-in
user, whose passkey it was. A challenge is answered by one call at most, at whichever door. -/
theorem passkey_doors (env : Env) (ttl : Crypto.TokenTtl) (s₀ : State)
    (hempty : s₀.pendingAuth = ∅) (tr : List (Step State Call)) (P : Pool State Error Answer Call)
    (hrun : Run (fun _ => handle env ttl) (fun _ => True) s₀ tr P) :
    (∀ i c userId deviceIdHint, P.Returned i c (.service (.user userId deviceIdHint)) →
      ∃ y earlier, Answered env tr i c userId y earlier) ∧
    (∀ i c token, P.Returned i c (.elevated token) →
      ∃ now sub handle response requestOrigin jti,
        c = .verify now sub handle response requestOrigin jti ∧
        token = Crypto.signElevation ttl now jti sub .transferAuthorize ∧
        ∃ y earlier, Answered env tr i c sub y earlier) ∧
    ∀ i j c c' userId userId' y y' earlier, Answered env tr i c userId y earlier →
      Answered env tr j c' userId' y' earlier → i = j := by
  have hpromise : ∀ {i c a}, P.Returned i c a → Promise env ttl c (own i tr) (.ok a) := by
    intro i c a hreturned
    exact (hrun.does fun _ c _ => handle_does c).2 i _ hreturned.thread
  refine ⟨fun i c userId deviceIdHint hreturned => ?_, fun i c token hreturned => ?_,
    fun i j c c' userId userId' y y' earlier h h' => h.unique h'⟩
  · exact answered_of_asserted hempty hrun (hpromise hreturned)
  · obtain ⟨now, sub, handle, response, requestOrigin, jti, hc, htoken, hasserted⟩ :=
      hpromise hreturned
    exact ⟨now, sub, handle, response, requestOrigin, jti, hc, htoken,
      answered_of_asserted hempty hrun hasserted⟩

/-! ### One elevation -/

/-- Every response verifies. -/
def sampleDoors : Env where
  rpIds := ["localhost"]
  origins := ["http://localhost:3000"]
  hostname := fun _ => none
  parsedChallenge := some
  verifyRegistrationResponse := fun _ _ => .ok none
  verifyAuthenticationResponse := fun _ _ _ => .ok (some 1)

/-- User 1 has a passkey, on the device 2. -/
def sampleEnrolled : State where
  enrollments := (∅ : Table Uuid BiometricEnrollment).insert 3 ⟨1, 2, "A", [7], 0, [], none, none⟩
  challenges := ∅
  pendingAuth := ∅
  notices := []

def sampleAnswer : Response := ⟨some "A", none, none, none, ""⟩

/-- User 1 begins a sign-in, and answers its challenge at the other door, where user 4 comes too
late. -/
def sampleElevation : List (Step State Call) × Pool State Error Answer Call :=
  exec (fun _ => handle sampleDoors .default) sampleEnrolled
    [.call (.service (.beginAuthentication 0 5 "c")), .step 0,
      .call (.verify 1000 1 5 sampleAnswer none 9), .call (.verify 1000 4 5 sampleAnswer none 10),
      .step 1, .step 2, .step 1, .step 1]

theorem passkey_doors_sample : ∃ now sub handle response requestOrigin jti,
    Call.verify 1000 1 5 sampleAnswer none 9 =
      .verify now sub handle response requestOrigin jti ∧
    (⟨{ sub := some 1, purpose := some .elevation, scope := some .transferAuthorize, jti := 9 },
      301⟩ : Crypto.Token) =
      Crypto.signElevation .default now jti sub .transferAuthorize ∧
    ∃ y earlier, Answered sampleDoors sampleElevation.1 1 (.verify 1000 1 5 sampleAnswer none 9) sub y
      earlier :=
  (passkey_doors sampleDoors .default sampleEnrolled rfl _ _ (exec_run _ fun _ _ => trivial)).2.1 1 _ _
    (by decide +kernel)

end Runs

end BankDemo.BiometricElevation
