import BankDemo.Signup.Rules

/-!
# The stages of a sign-up

In every run of sign-up calls, a session has what its stage asks for (`SignupSession.Sound`), although
the steps decide by copies that may be stale. What carries this is that a row extends every earlier
version of itself (`Versions`): a copy that was far enough along was sound, and what it had the row
still has.

A session is completed at most once while users stay and keep their e-mail addresses: all versions of
a session have the same address, and the second completion would make a second user with it
(`stages_sound`).
-/

namespace BankDemo.Signup

/-- The runs of sign-up calls. -/
abbrev SignupRun (env : Env) := Run (fun _ => handle env)

variable {env : Env} {s₀ : Registry} {tr : List (Step Registry Call)}
  {P : Pool Registry Error Answer Call} {ok : Call → Prop}

/-- Different calls draw different ids for the sessions they may make. -/
def Fresh (P : Pool Registry Error Answer Call) : Prop :=
  (P.threads.map fun t => t.call.drawn).Pairwise fun a b => a.isSome → a ≠ b

instance : Decidable (Fresh P) := inferInstanceAs (Decidable (List.Pairwise _ _))

/-- Every step of a run is one that its call can take. -/
theorem did_of_run (hrun : SignupRun env ok s₀ tr P) {later earlier : List (Step Registry Call)}
    {x : Step Registry Call} (hsplit : tr = later ++ x :: earlier) :
    Did env x.call ((x.pre, x.post) :: own x.tid earlier) :=
  (hrun.does fun _ c _ => handle_does env c).1 later x earlier hsplit

/-- An id is drawn by one thread. -/
theorem Fresh.tid_eq (hfresh : Fresh P) {i j : ℕ} {t t' : Thread Registry Error Answer Call}
    (hi : P.threads[i]? = some t) (hj : P.threads[j]? = some t') {id : Uuid}
    (hid : t.call.drawn = some id) (hid' : t'.call.drawn = some id) : i = j :=
  place_eq (List.pairwise_map.1 hfresh) hi hj
    (fun h => h (by rw [hid]; rfl) (hid.trans hid'.symm))
    fun h => h (by rw [hid']; rfl) (hid'.trans hid.symm)

/-! ## Versions -/

/-- The session was there when some step of the run was taken. -/
def Seen (tr : List (Step Registry Call)) (id : Uuid) (row : SignupSession) : Prop :=
  ∃ y ∈ tr, y.pre.db.signupSessions.lookup id = some row

theorem Read.seen {earlier : List (Step Registry Call)} {i : ℕ} {id : Uuid} {copy : SignupSession}
    (h : Read (own i earlier) id copy) : Seen earlier id copy := by
  obtain ⟨w, hw, hcopy⟩ := h
  obtain ⟨y, hy, -, rfl, -⟩ := mem_own.1 hw
  exact ⟨y, hy, hcopy⟩

/-- The rows are sound, as their versions were, and extend them. -/
structure Versions (tr : List (Step Registry Call)) (w : Registry) : Prop where
  sound : ∀ id s, w.db.signupSessions.lookup id = some s → s.Sound
  seen_sound : ∀ id row, Seen tr id row → row.Sound
  extends_seen : ∀ id s row, w.db.signupSessions.lookup id = some s → Seen tr id row →
    s.Extends row

/-- A session that was seen was made by a step of the run, if there were none at the start. -/
theorem made_of_seen (hnone : s₀.db.signupSessions = ∅) (hrun : SignupRun env ok s₀ tr P) {id : Uuid}
    {s : SignupSession} (hs : P.state.db.signupSessions.lookup id = some s) :
    ∃ x ∈ tr, x.call.drawn = some id ∧ x.pre.db.signupSessions.lookup id = none ∧
      x.post.db.signupSessions.lookup id ≠ none := by
  revert hs s
  refine hrun.induct (I := fun tr w => ∀ {s}, w.db.signupSessions.lookup id = some s →
    ∃ x ∈ tr, x.call.drawn = some id ∧ x.pre.db.signupSessions.lookup id = none ∧
      x.post.db.signupSessions.lookup id ≠ none) ?_ ?_
  · intro s hs
    rw [hnone] at hs
    cases hs
  · intro later x earlier hsplit ih s' hs'
    rcases (did_of_run hrun hsplit).session hs' with ⟨now, input, hc, -, hfree, -⟩ | ⟨s, hs, -⟩
    · refine ⟨x, List.mem_cons_self, by rw [hc]; rfl, hfree, ?_⟩
      rw [hs']
      simp
    · obtain ⟨y, hy, hmade⟩ := ih hs
      exact ⟨y, List.mem_cons_of_mem _ hy, hmade⟩

/-- A session that a step makes was never there before. -/
theorem not_seen_of_made (hnone : s₀.db.signupSessions = ∅) (hrun : SignupRun env ok s₀ tr P)
    (hfresh : Fresh P) {later earlier : List (Step Registry Call)} {x : Step Registry Call}
    (hsplit : tr = later ++ x :: earlier) {id : Uuid} (hdrawn : x.call.drawn = some id)
    (hown : NoneMade (own x.tid earlier)) (row : SignupSession) : ¬ Seen earlier id row := by
  rintro ⟨y, hy, hrow⟩
  -- the session was made by a step before `y`, which drew the same id
  obtain ⟨late, rest, rfl⟩ := List.append_of_mem hy
  have hsplit' : tr = (later ++ x :: late) ++ y :: rest := by rw [hsplit]; simp
  obtain ⟨P', hrun', hstate⟩ := hrun.before hsplit'
  rw [← hstate] at hrow
  obtain ⟨z, hz, hzdrawn, hzfree, hzmade⟩ := made_of_seen hnone hrun' hrow
  have hz' : z ∈ late ++ y :: rest := List.mem_append_right _ (List.mem_cons_of_mem _ hz)
  obtain ⟨t, ht, htc⟩ := hrun.thread_of_step (x := x) (by rw [hsplit]; simp)
  obtain ⟨t', ht', htc'⟩ := hrun.thread_of_step (x := z) (by
    rw [hsplit]
    exact List.mem_append_right _ (List.mem_cons_of_mem _ hz'))
  have htid : x.tid = z.tid :=
    hfresh.tid_eq ht ht' (by rw [htc]; exact hdrawn) (by rw [htc']; exact hzdrawn)
  -- but its call had made no session yet
  have hmem : (z.pre, z.post) ∈ own x.tid (late ++ y :: rest) :=
    mem_own.2 ⟨z, hz', htid.symm, rfl, rfl⟩
  exact hzmade (hown _ hmem id hzfree)

theorem newSession_sound (now : Instant) (input : BeginSignupDto) :
    (newSession env now input).Sound :=
  fun c hc => (not_due_contactCollected c hc).elim

theorem versions_start (hnone : s₀.db.signupSessions = ∅) : Versions [] s₀ := by
  refine ⟨fun id s hs => ?_, fun id row h => ?_, fun id s row hs => ?_⟩
  · rw [hnone] at hs
    cases hs
  · obtain ⟨y, hy, -⟩ := h
    cases hy
  · rw [hnone] at hs
    cases hs

theorem Versions.step {earlier : List (Step Registry Call)} {x : Step Registry Call}
    (h : Versions earlier x.pre) (hdid : Did env x.call ((x.pre, x.post) :: own x.tid earlier))
    (hnew : ∀ id row, x.call.drawn = some id → NoneMade (own x.tid earlier) →
      ¬ Seen earlier id row) : Versions (x :: earlier) x.post := by
  have hseen : ∀ id row, Seen (x :: earlier) id row → row.Sound ∧
      ∀ s, x.pre.db.signupSessions.lookup id = some s → s.Extends row := by
    rintro id row ⟨y, hy, hrow⟩
    rcases List.mem_cons.1 hy with rfl | hy
    · refine ⟨h.sound id row hrow, fun s hs => ?_⟩
      obtain rfl := Option.some.inj (hrow.symm.trans hs)
      exact .refl row
    · exact ⟨h.seen_sound id row ⟨y, hy, hrow⟩, fun s hs => h.extends_seen id s row hs
        ⟨y, hy, hrow⟩⟩
  refine ⟨fun id s' hs' => ?_, fun id row hrow => (hseen id row hrow).1,
    fun id s' row hs' hrow => ?_⟩
  · rcases hdid.session hs' with ⟨now, input, -, -, -, rfl⟩ | ⟨s, hs, rfl | ⟨copy, f, hread, hwrite,
      rfl⟩⟩
    · exact newSession_sound now input
    · exact h.sound id s' hs
    · exact hwrite.sound (h.seen_sound id copy hread.seen) (h.extends_seen id s copy hs hread.seen)
  · rcases hdid.session hs' with ⟨now, input, hc, hown, hfree, rfl⟩ | ⟨s, hs, rfl | ⟨copy, f, -,
      hwrite, rfl⟩⟩
    · -- a new session has no versions
      obtain ⟨y, hy, hy'⟩ := hrow
      rcases List.mem_cons.1 hy with rfl | hy
      · rw [hfree] at hy'
        cases hy'
      · exact (hnew id row (by rw [hc]; rfl) hown ⟨y, hy, hy'⟩).elim
    · exact (hseen id row hrow).2 s' hs
    · exact (hwrite.extends s).trans ((hseen id row hrow).2 s hs)

/-- Every row of every run is sound and extends its versions. -/
theorem versions_of_run (hnone : s₀.db.signupSessions = ∅) (hrun : SignupRun env ok s₀ tr P)
    (hfresh : Fresh P) : Versions tr P.state :=
  hrun.induct (versions_start hnone) fun _ _ _ hsplit ih =>
    ih.step (did_of_run hrun hsplit) fun _ row hdrawn hown =>
      not_seen_of_made hnone hrun hfresh hsplit hdrawn hown row

/-- So is every row that a step finds. -/
theorem versions_before (hnone : s₀.db.signupSessions = ∅) (hrun : SignupRun env ok s₀ tr P)
    (hfresh : Fresh P) {later earlier : List (Step Registry Call)} {x : Step Registry Call}
    (hsplit : tr = later ++ x :: earlier) : Versions earlier x.pre :=
  hrun.induct_before (versions_start hnone) (fun _ _ _ hsplit ih =>
    ih.step (did_of_run hrun hsplit) fun _ row hdrawn hown =>
      not_seen_of_made hnone hrun hfresh hsplit hdrawn hown row) hsplit

/-! ## Completion -/

/-- A step completes the session: it makes the user `u` with the KYC record `k`. -/
structure Completes (id u k : Uuid) (x : Step Registry Call) : Prop where
  call : x.call.completing = some id
  user_new : x.pre.db.users.lookup u = none
  user : (x.post.db.users.lookup u).isSome
  kyc_new : x.pre.db.kycRecords.lookup k = none
  kyc : ∃ record, x.post.db.kycRecords.lookup k = some record ∧ record.userId = u

/-- The step deletes no user and changes no user's e-mail address. -/
def KeepsUsers (x : Step Registry Call) : Prop :=
  ∀ u row, x.pre.db.users.lookup u = some row →
    ∃ row', x.post.db.users.lookup u = some row' ∧ row'.email = row.email

instance (x : Step Registry Call) : Decidable (KeepsUsers x) :=
  decidable_of_iff (∀ e ∈ x.pre.db.users.entries,
    (x.post.db.users.lookup e.1).any fun row => row.email = e.2.email) <| by
  simp only [Option.any_eq_true, decide_eq_true_eq]
  exact ⟨fun h u row hrow => h ⟨u, row⟩ (Table.mem_entries_iff.2 hrow),
    fun h e he => h e.1 e.2 (Table.mem_entries_iff.1 he)⟩

/-- The user has the e-mail address, and one KYC record. -/
structure Registered (u k : Uuid) (email : String) (w : Registry) : Prop where
  user : ∃ row, w.db.users.lookup u = some row ∧ row.email = email
  kyc : ∃ record, w.db.kycRecords.lookup k = some record ∧ record.userId = u
  kyc_unique : ∀ k' record, w.db.kycRecords.lookup k' = some record → record.userId = u → k' = k

theorem Completion.completes {now : Instant} {id userId kycId : Uuid} {copy : SignupSession}
    {x : Step Registry Call} (h : Completion id userId kycId copy x.pre x.post)
    (hc : x.call = .complete now id userId kycId) : Completes id userId kycId x := by
  obtain ⟨user, -, -, husers, -⟩ := h.user
  obtain ⟨record, hrecord, hkyc, -⟩ := h.kyc
  refine ⟨by rw [hc]; rfl, h.user_new, ?_, h.kyc_new, record, ?_, hrecord⟩
  · rw [husers, AList.lookup_insert]
    rfl
  · rw [hkyc, AList.lookup_insert]

theorem Completion.registered {id userId kycId : Uuid} {copy : SignupSession} {w w' : Registry}
    (h : Completion id userId kycId copy w w') :
    ∃ email, copy.email = some email ∧ Registered userId kycId email w' := by
  obtain ⟨user, hemail, -, husers, -⟩ := h.user
  obtain ⟨record, hrecord, hkyc, hfree⟩ := h.kyc
  refine ⟨user.email, hemail, ⟨user, by rw [husers, AList.lookup_insert], rfl⟩,
    ⟨record, by rw [hkyc, AList.lookup_insert], hrecord⟩, fun k' r hr huser => ?_⟩
  rw [hkyc, Table.lookup_insert_ite] at hr
  split at hr
  · assumption
  · exact (hfree k' r hr huser).elim

/-- The only steps that complete a session are completions by a copy of it. -/
theorem Completes.completion {id u k : Uuid} {x : Step Registry Call}
    {own : List (Registry × Registry)} (h : Completes id u k x)
    (hdid : Did env x.call ((x.pre, x.post) :: own)) :
    ∃ now copy, x.call = .complete now id u k ∧ Read own id copy ∧
      Completion id u k copy x.pre x.post := by
  have hsame : x.post.db.users ≠ x.pre.db.users := by
    intro heq
    have huser := h.user
    rw [heq, h.user_new] at huser
    cases huser
  have hcall := h.call
  generalize x.call = c at hdid hcall
  cases hdid with
  | aside h => exact (hsame h.users).elim
  | began husers _ _ => exact (hsame husers.users).elim
  | dropped husers _ => exact (hsame husers.users).elim
  | wrote husers _ _ _ _ _ => exact (hsame husers.users).elim
  | users hc _ _ =>
    rw [hc] at hcall
    cases hcall
  | deleted _ _ _ => cases hcall
  | @completed now id' userId kycId copy _ _ _ hread hcompletion =>
    obtain rfl := Option.some.inj hcall
    obtain ⟨user, -, -, husers, -⟩ := hcompletion.user
    obtain ⟨record, -, hkyc, -⟩ := hcompletion.kyc
    -- the user and the record of the step are those it makes
    have hu : u = userId := by
      by_contra hne
      have huser := h.user
      rw [husers, AList.lookup_insert_ne hne, h.user_new] at huser
      cases huser
    have hk : k = kycId := by
      by_contra hne
      obtain ⟨record, hrecord, -⟩ := h.kyc
      rw [hkyc, AList.lookup_insert_ne hne, h.kyc_new] at hrecord
      cases hrecord
    subst hu hk
    exact ⟨now, copy, rfl, hread, hcompletion⟩

/-- A step that keeps users keeps what is registered. -/
theorem Registered.step {x : Step Registry Call} {own : List (Registry × Registry)} {u k : Uuid}
    {email : String} (h : Registered u k email x.pre)
    (hdid : Did env x.call ((x.pre, x.post) :: own)) (hkeeps : KeepsUsers x) :
    Registered u k email x.post := by
  obtain ⟨row, hrow, hemail⟩ := h.user
  obtain ⟨row', hrow', hemail'⟩ := hkeeps u row hrow
  have huser : ∃ row, x.post.db.users.lookup u = some row ∧ row.email = email :=
    ⟨row', hrow', hemail'.trans hemail⟩
  have hsame : x.post.db.kycRecords = x.pre.db.kycRecords → Registered u k email x.post := by
    intro hkyc
    refine ⟨huser, ?_, ?_⟩
    · rw [hkyc]
      exact h.kyc
    · rw [hkyc]
      exact h.kyc_unique
  generalize x.call = c at hdid
  cases hdid with
  | aside h => exact hsame h.kycRecords
  | began husers _ _ => exact hsame husers.kycRecords
  | dropped husers _ => exact hsame husers.kycRecords
  | wrote husers _ _ _ _ _ => exact hsame husers.kycRecords
  | users _ hkyc _ => exact hsame hkyc
  | deleted hthere hgone _ =>
    -- the deletion of a user is excluded
    obtain ⟨gone, hgone'⟩ := Option.isSome_iff_exists.1 hthere
    obtain ⟨row'', hrow'', -⟩ := hkeeps _ gone hgone'
    rw [hgone] at hrow''
    cases hrow''
  | @completed now id userId kycId copy _ _ _ hread hcompletion =>
    obtain ⟨record, hrecord, hkyc, -⟩ := hcompletion.kyc
    obtain ⟨old, hold, hofu⟩ := h.kyc
    have hne : k ≠ kycId := by
      rintro rfl
      rw [hcompletion.kyc_new] at hold
      cases hold
    have hneu : userId ≠ u := by
      rintro rfl
      rw [hcompletion.user_new] at hrow
      cases hrow
    refine ⟨huser, ⟨old, ?_, hofu⟩, fun k' r hr hru => ?_⟩
    · rw [hkyc, AList.lookup_insert_ne hne]
      exact hold
    · rw [hkyc, Table.lookup_insert_ite] at hr
      split at hr
      · obtain rfl := Option.some.inj hr
        exact (hneu (hrecord.symm.trans hru)).elim
      · exact h.kyc_unique k' r hr hru

section Once

variable (hrun : SignupRun env ok s₀ tr P) (hkeeps : ∀ x ∈ tr, KeepsUsers x)
  {later earlier : List (Step Registry Call)} {x : Step Registry Call} {id u k : Uuid}

include hrun hkeeps

/-- The user of a completion stays registered. -/
theorem registered_of_completes (hsplit : tr = later ++ x :: earlier) (hx : Completes id u k x) :
    ∃ copy email, Seen earlier id copy ∧ copy.email = some email ∧
      (∀ y ∈ later, Registered u k email y.pre) ∧ Registered u k email P.state := by
  obtain ⟨-, copy, -, hread, hcompletion⟩ := hx.completion (did_of_run hrun hsplit)
  obtain ⟨email, hemail, hregistered⟩ := hcompletion.registered
  obtain ⟨hlater, hlast⟩ := hrun.keeps (I := Registered u k email) hsplit hregistered
    fun late y mid hy hpre => by
      have hsplit' : tr = late ++ y :: (mid ++ x :: earlier) := by rw [hsplit, hy]; simp
      exact hpre.step (did_of_run hrun hsplit') (hkeeps y (by rw [hsplit']; simp))
  rw [hrun.state_eq]
  exact ⟨copy, email, hread.seen, hemail, fun y hy => (hlater y hy).1, hlast⟩

/-- A session is completed at most once. -/
theorem completed_once (hnone : s₀.db.signupSessions = ∅) (hfresh : Fresh P) (id : Uuid) :
    AtMostOnce (fun x => ∃ u k, Completes id u k x) tr := by
  refine hrun.induct (I := fun tr _ => AtMostOnce (fun x => ∃ u k, Completes id u k x) tr) .nil ?_
  intro later x earlier hsplit ih
  refine ih.cons ?_
  rintro ⟨u, k, hx⟩ y hy ⟨u', k', hy'⟩
  obtain ⟨late, rest, rfl⟩ := List.append_of_mem hy
  have hsplit' : tr = (later ++ x :: late) ++ y :: rest := by rw [hsplit]; simp
  -- the user of the first completion is still there, with the session's e-mail address
  obtain ⟨copy', email, ⟨z, hz, hcopy'⟩, hemail, hlater, -⟩ :=
    registered_of_completes hrun hkeeps hsplit' hy'
  obtain ⟨row, hrow, hrowEmail⟩ := (hlater x (by simp)).user
  -- which the user of the second one would have, too
  obtain ⟨-, copy, -, hread, hcompletion⟩ := hx.completion (did_of_run hrun hsplit)
  obtain ⟨user, huserEmail, -, -, hfree⟩ := hcompletion.user
  obtain ⟨s, hs, -⟩ := hcompletion.sessions
  have hversions := versions_before hnone hrun hfresh hsplit
  have hcopies : copy.email = copy'.email := by
    rw [← (hversions.extends_seen id s copy hs hread.seen).email_eq,
      ← (hversions.extends_seen id s copy' hs ⟨z, by simp [hz], hcopy'⟩).email_eq]
  refine hfree u' row hrow ?_
  rw [hrowEmail]
  exact Option.some.inj (by rw [← hemail, ← hcopies, huserEmail])

end Once

/-- The user that a session after a step names: none, if it is new, the same as before, or the one
that the step has made. -/
theorem Did.names {c : Call} {w w' : Registry} {own : List (Registry × Registry)}
    (h : Did env c ((w, w') :: own)) {id : Uuid} {s' : SignupSession}
    (hs' : w'.db.signupSessions.lookup id = some s') :
    (s'.stage ≠ .completed ∧ s'.resolvedUserId = none) ∨
    (∃ s, w.db.signupSessions.lookup id = some s ∧ (s'.stage = .completed → s.stage = .completed) ∧
      s'.resolvedUserId = s.resolvedUserId) ∨
    ∃ now userId kycId copy, c = .complete now id userId kycId ∧
      Completion id userId kycId copy w w' ∧ s'.resolvedUserId = some userId := by
  cases h with
  | aside h =>
    rw [h.sessions] at hs'
    exact .inr (.inl ⟨s', hs', fun h => h, rfl⟩)
  | began husers hown hsessions =>
    rw [hsessions.lookup] at hs'
    split at hs'
    · obtain rfl := Option.some.inj hs'
      exact .inl ⟨by simp [newSession], rfl⟩
    · exact .inr (.inl ⟨s', hs', fun h => h, rfl⟩)
  | dropped husers hsessions => exact .inr (.inl ⟨s', hsessions _ _ hs', fun h => h, rfl⟩)
  | wrote husers hread hwrite hresolved hstage hsessions =>
    obtain ⟨s, hs, rfl | ⟨-, rfl⟩⟩ := updated_origin hsessions hs'
    · exact .inr (.inl ⟨s', hs, fun h => h, rfl⟩)
    · exact .inr (.inl ⟨s, hs, fun h => (hstage s h).elim, hresolved s⟩)
  | @completed now id' userId kycId copy _ _ _ hread h =>
    obtain ⟨s, hs, rfl | ⟨rfl, rfl⟩⟩ := updated_origin h.sessions hs'
    · exact .inr (.inl ⟨s', hs, fun h => h, rfl⟩)
    · exact .inr (.inr ⟨now, userId, kycId, copy, rfl, h, rfl⟩)
  | users hc hkyc hsessions =>
    rw [hsessions] at hs'
    exact .inr (.inl ⟨s', hs', fun h => h, rfl⟩)
  | deleted hthere hgone hsessions =>
    exact .inr (.inl ⟨s', hsessions _ _ hs', fun h => h, rfl⟩)

/-- Who completed a session: its completion, if its stage says so or it names a user. -/
theorem resolved_of_run (hnone : s₀.db.signupSessions = ∅) (hrun : SignupRun env ok s₀ tr P)
    {id : Uuid} {s : SignupSession} (hs : P.state.db.signupSessions.lookup id = some s) :
    (s.stage ≠ .completed ∧ s.resolvedUserId = none) ∨
      ∃ u k, s.resolvedUserId = some u ∧ ∃ x ∈ tr, Completes id u k x := by
  revert s
  refine hrun.induct (I := fun tr w => ∀ {s}, w.db.signupSessions.lookup id = some s →
    (s.stage ≠ .completed ∧ s.resolvedUserId = none) ∨
      ∃ u k, s.resolvedUserId = some u ∧ ∃ x ∈ tr, Completes id u k x) ?_ ?_
  · intro s hs
    rw [hnone] at hs
    cases hs
  · intro later x earlier hsplit ih s' hs'
    rcases (did_of_run hrun hsplit).names hs' with hnew | ⟨s, hs, hstage, hresolved⟩ |
      ⟨now, userId, kycId, copy, hc, hcompletion, hresolved⟩
    · exact .inl hnew
    · rcases ih hs with ⟨hopen, hnone⟩ | ⟨u, k, hu, y, hy, hcompletes⟩
      · exact .inl ⟨fun h => hopen (hstage h), hresolved.trans hnone⟩
      · exact .inr ⟨u, k, hresolved.trans hu, y, List.mem_cons_of_mem _ hy, hcompletes⟩
    · exact .inr ⟨userId, kycId, hresolved, x, List.mem_cons_self, hcompletion.completes hc⟩

/-- The session was completed once, by a step that made the user it names, with the only KYC record
of that user. -/
structure CompletedOnce (tr : List (Step Registry Call)) (w : Registry) (id : Uuid)
    (s : SignupSession) (u k : Uuid) : Prop where
  resolved : s.resolvedUserId = some u
  made : ∃ x ∈ tr, Completes id u k x
  only : ∀ x ∈ tr, ∀ u' k', Completes id u' k' x → u' = u ∧ k' = k
  user : (w.db.users.lookup u).isSome
  kyc : ∀ k', (∃ record, w.db.kycRecords.lookup k' = some record ∧ record.userId = u) ↔ k' = k

/-- **Stage soundness of sign-up.** In every run of sign-up calls that overlap in any way, each step
deciding by a copy of the session that may be stale, every session has the columns that are due at
its stage. If no step of the run deletes a user or changes a user's e-mail address, then moreover each
session is completed at most once, and a completed session names the one user that its completion made,
who has the one KYC record that it made. -/
theorem stages_sound (env : Env) (s₀ : Registry) (hnone : s₀.db.signupSessions = ∅)
    (tr : List (Step Registry Call)) (P : Pool Registry Error Answer Call)
    (hrun : SignupRun env (fun _ => True) s₀ tr P) (hfresh : Fresh P) :
    (∀ id s, P.state.db.signupSessions.lookup id = some s → s.Sound) ∧
    ((∀ x ∈ tr, KeepsUsers x) → ∀ id, AtMostOnce (fun x => ∃ u k, Completes id u k x) tr ∧
      ∀ s, P.state.db.signupSessions.lookup id = some s → s.stage = .completed →
        ∃ u k, CompletedOnce tr P.state id s u k) := by
  refine ⟨(versions_of_run hnone hrun hfresh).sound, fun hkeeps id => ?_⟩
  have honce := completed_once hrun hkeeps hnone hfresh id
  refine ⟨honce, fun s hs hstage => ?_⟩
  rcases resolved_of_run hnone hrun hs with ⟨hopen, -⟩ | ⟨u, k, hu, x, hx, hcompletes⟩
  · exact (hopen hstage).elim
  obtain ⟨later, earlier, hsplit⟩ := List.append_of_mem hx
  obtain ⟨copy, email, -, -, -, hregistered⟩ :=
    registered_of_completes hrun hkeeps hsplit hcompletes
  refine ⟨u, k, hu, ⟨x, hx, hcompletes⟩, fun y hy u' k' hy' => ?_, ?_, fun k' => ⟨?_, ?_⟩⟩
  · obtain rfl := honce.eq hy hx ⟨u', k', hy'⟩ ⟨u, k, hcompletes⟩
    obtain ⟨now, _, hc, -⟩ := hcompletes.completion (did_of_run hrun hsplit)
    obtain ⟨now', _, hc', -⟩ := hy'.completion (did_of_run hrun hsplit)
    rw [hc] at hc'
    cases hc'
    exact ⟨rfl, rfl⟩
  · obtain ⟨row, hrow, -⟩ := hregistered.user
    rw [hrow]
    rfl
  · rintro ⟨record, hrecord, hofu⟩
    exact hregistered.kyc_unique k' record hrecord hofu
  · rintro rfl
    exact hregistered.kyc

/-- Ann signs up, and her last request is sent twice: both read her session before either writes. -/
def sampleSignup : List (Choice Call) :=
  (([sampleBegin, sampleSend .email, sampleVerify] ++ sampleSteps).zipIdx.map fun c =>
      Choice.call c.1 :: List.replicate 6 (Choice.step c.2)).flatten ++
    [.call (.complete 0 100 300 301), .call (.complete 0 100 310 311)] ++
    (List.replicate 4 [Choice.step 11, Choice.step 12]).flatten

/-- The run of her sign-up. -/
def sampleSignedUp : List (Step Registry Call) × Pool Registry Error Answer Call :=
  exec (fun _ => handle sampleEnv) sampleRegistry sampleSignup

theorem sampleSignedUp_run :
    SignupRun sampleEnv (fun _ => True) sampleRegistry sampleSignedUp.1 sampleSignedUp.2 :=
  exec_run _ fun _ _ => trivial

theorem stages_sound_sample :
    (sampleSignedUp.2.state.db.signupSessions.lookup 100).map SignupSession.stage =
        some .completed ∧
      (∀ id s, sampleSignedUp.2.state.db.signupSessions.lookup id = some s → s.Sound) ∧
      AtMostOnce (fun x => ∃ u k, Completes 100 u k x) sampleSignedUp.1 := by
  have hsound := stages_sound sampleEnv sampleRegistry rfl _ _ sampleSignedUp_run (by decide +kernel)
  exact ⟨by decide +kernel, hsound.1, (hsound.2 (by decide +kernel) 100).1⟩

end BankDemo.Signup
