import Mathlib.Data.List.Infix
import BankDemo.Signup.Addresses
import BankDemo.Users.Service

/-!
# One user per address

`AuthService.login` ignores the case of an address and the white space around it, so two users with
addresses that differ in no other way cannot be told apart. The services that write addresses look for
the same text only, and a sign-up keeps the case as it was typed: a visitor may sign up as
`Ann@example.com` when there is a user `ann@example.com` (`second_ann`).

* `one_user_per_address`: in every sequence of calls in which no address is written that another user
  has in another spelling, there is one user per address in every state reached, and a login refers to
  it unless a wildcard is typed or the address is taken for one that is not ASCII.
-/

namespace BankDemo.Users

/-- An address without its case and the white space around it. -/
def address (env : Env) (email : String) : String := env.toLowerCase (JsString.trim email)

/-- No wildcard is typed, and the typed address is taken for ASCII addresses only. -/
structure TypedPlainly (env : Env) (d : Directory) (email : String) : Prop where
  typed : Plain ['%', '_', '\\'] (JsString.trim email)
  stored : ∀ u x, d.users.lookup u = some x → env.sameEmail x.email (JsString.trim email) = true →
    Plain [] x.email

/-- There is one user per address, and a login refers to it, if the address is typed plainly. -/
structure OnePerAddress (env : Env) (d : Directory) : Prop where
  unique : d.users.Distinct fun u => address env u.email
  login : ∀ email u x, TypedPlainly env d email → d.users.lookup u = some x →
    env.sameEmail x.email (JsString.trim email) = true → loginUser env email d = some (u, x)

/-- There is one user per address, and no address in the directory has white space around it. -/
structure Orderly (env : Env) (d : Directory) : Prop where
  unique : d.users.Distinct fun u => address env u.email
  users : ∀ u x, d.users.lookup u = some x → JsString.trim x.email = x.email
  sessions : ∀ s row email, d.registry.db.signupSessions.lookup s = some row →
    row.email = some email → JsString.trim email = email

/-- A user other than `except` has the address in another spelling. -/
def Respelled (env : Env) (d : Directory) (except : Option Uuid) (email : String) : Prop :=
  ∃ u x, d.users.lookup u = some x ∧ some u ≠ except ∧ address env x.email = address env email ∧
    x.email ≠ email

/-- If a user has the address to be seeded in another spelling, both are ASCII, and there is no backslash
in the latter. Then the seeding finds the user and leaves it at that. -/
def ClearSeed (env : Env) (d : Directory) (email : Option String) : Prop :=
  ∀ e u x, email = some e → d.users.lookup u = some x → address env x.email = address env e →
    x.email ≠ JsString.trim e → Plain [] x.email ∧ Plain ['\\'] (JsString.trim e)

/-- If the call goes through, no other user has the address it gives a user in another spelling. -/
def Clear (env : Env) (d : Directory) : Call → Prop
  | .signup (.complete now id userId kycId) => ∀ s email,
      Signup.Completable ⟨now, id, userId, kycId⟩ d.registry.db s → s.email = some email →
        ¬ Respelled env d none email
  | .create c => Creatable env c d → ¬ Respelled env d none (c.user env).email
  | .update c => ∀ user email, Updatable env c d user →
      (patchOf env c.dto user (d.profile c.targetUserId)).email = some email →
        ¬ Respelled env d (some c.targetUserId) email
  | .bootstrap cfg => ClearSeed env d cfg.adminEmail ∧
      ClearSeed env ((seedIfSet env cfg.adminEmail cfg.adminPassword (cfg.input true)).run d).2
        cfg.userEmail
  | _ => True

/-- Every call of the sequence is clear in the state it finds. -/
def ClearRun (env : Env) : Directory → List Call → Prop
  | _, [] => True
  | d, c :: calls => Clear env d c ∧ ClearRun env (afterCall env d c) calls

section Steps

variable {env : Env} {d d' : Directory}

theorem address_of_trimmed {email : String} (h : JsString.trim email = email) :
    address env email = env.toLowerCase email := by
  rw [address, h]

theorem Orderly.onePerAddress (h : Orderly env d) (hmode : Insensitive env) :
    OnePerAddress env d := by
  refine ⟨h.unique, fun email u x hplain hx hmatch => ?_⟩
  refine Table.findRow_unique hx hmatch fun v y hy hmatch' => ?_
  have hsame : address env y.email = address env x.email := by
    rw [address_of_trimmed (h.users v y hy), address_of_trimmed (h.users u x hx),
      hmode.only _ _ (hplain.stored v y hy hmatch') hplain.typed hmatch',
      hmode.only _ _ (hplain.stored u x hx hmatch) hplain.typed hmatch]
  exact h.unique v u y x hy hx hsame

/-- A user with a trimmed address that nobody else has is written. -/
theorem Orderly.write (h : Orderly env d) (id : Uuid) {user : Signup.User}
    (husers : d'.users = d.users.insert id user)
    (hsessions : ∀ s row email, d'.registry.db.signupSessions.lookup s = some row →
      row.email = some email → ∃ s' row', d.registry.db.signupSessions.lookup s' = some row' ∧
        row'.email = some email)
    (htrimmed : JsString.trim user.email = user.email)
    (hfree : ∀ v y, v ≠ id → d.users.lookup v = some y →
      address env y.email ≠ address env user.email) : Orderly env d' := by
  refine ⟨?_, fun u x hx => ?_, fun s row email hs he => ?_⟩
  · rw [husers]
    exact h.unique.insert hfree
  · rw [husers, Table.lookup_insert_ite] at hx
    split at hx
    · obtain rfl := Option.some.inj hx
      exact htrimmed
    · exact h.users u x hx
  · obtain ⟨s', row', hs', he'⟩ := hsessions s row email hs he
    exact h.sessions s' row' email hs' he'

/-- An address that no other user has letter by letter, nor in another spelling, is nobody else's. -/
theorem address_free {except : Option Uuid} {email : String}
    (htaken : ∀ v y, d.users.lookup v = some y → some v ≠ except → y.email ≠ email)
    (hspelled : ¬ Respelled env d except email) {v : Uuid} {y : Signup.User}
    (hy : d.users.lookup v = some y) (hv : some v ≠ except) :
    address env y.email ≠ address env email :=
  fun hsame => hspelled ⟨v, y, hy, hv, hsame, htaken v y hy hv⟩

theorem not_taken {except : Option Uuid} {email : String} (h : d.emailTaken except email = false)
    (v : Uuid) (y : Signup.User) (hy : d.users.lookup v = some y) (hv : some v ≠ except) :
    y.email ≠ email := by
  intro heq
  have hany := List.any_eq_false.1 h ⟨v, y⟩ (Table.mem_entries_iff.2 hy)
  simp [hv, heq] at hany

theorem trim_normalizeEmail
    (htrim : ∀ s, JsString.trim (env.toLowerCase s) = env.toLowerCase (JsString.trim s))
    (raw : String) : JsString.trim (normalizeEmail env raw) = normalizeEmail env raw := by
  rw [normalizeEmail, htrim, JsString.trim_trim]

/-! ## Each call -/

theorem Orderly.create (h : Orderly env d)
    (htrim : ∀ s, JsString.trim (env.toLowerCase s) = env.toLowerCase (JsString.trim s))
    {c : CreateCall} (hclear : Creatable env c d → ¬ Respelled env d none (c.user env).email) :
    (create env c).Ensures d fun _ d' => Orderly env d' := by
  refine (create_ensures c d).imp fun r d' hr => ?_
  cases r with
  | error e =>
    have hsame : d' = d := hr
    rw [hsame]
    exact h
  | ok _ =>
    obtain ⟨hcreatable, rfl⟩ := hr
    refine h.write c.userId rfl (fun s row email hs he => ⟨s, row, hs, he⟩)
      (trim_normalizeEmail htrim _) fun v y _ hy => ?_
    exact address_free (not_taken hcreatable.email) (hclear hcreatable) hy (by simp)

theorem Orderly.update (h : Orderly env d)
    (htrim : ∀ s, JsString.trim (env.toLowerCase s) = env.toLowerCase (JsString.trim s))
    {c : UpdateCall} (hclear : ∀ user email, Updatable env c d user →
      (patchOf env c.dto user (d.profile c.targetUserId)).email = some email →
        ¬ Respelled env d (some c.targetUserId) email) :
    (update env c).Ensures d fun _ d' => Orderly env d' := by
  refine (update_ensures c d).imp fun r d' hr => ?_
  rcases hr with rfl | ⟨user, profiles, hupdatable, rfl⟩
  · exact h
  · have hsessions : ∀ s row email, d.registry.db.signupSessions.lookup s = some row →
        row.email = some email → ∃ s' row', d.registry.db.signupSessions.lookup s' = some row' ∧
          row'.email = some email := fun s row email hs he => ⟨s, row, hs, he⟩
    cases hemail : (patchOf env c.dto user (d.profile c.targetUserId)).email with
    | none =>
      -- the address stays
      have hsame : ((patchOf env c.dto user (d.profile c.targetUserId)).user user).email =
          user.email := by
        simp [UserPatch.user, hemail]
      refine h.write c.targetUserId rfl hsessions ?_ fun v y hv hy => ?_
      · rw [hsame]
        exact h.users _ user hupdatable.row
      · rw [hsame]
        exact fun heq => hv (h.unique v _ y user hy hupdatable.row heq)
    | some email =>
      have hnew : ((patchOf env c.dto user (d.profile c.targetUserId)).user user).email =
          email := by
        simp [UserPatch.user, hemail]
      refine h.write c.targetUserId rfl hsessions ?_ fun v y hv hy => ?_
      · rw [hnew]
        obtain ⟨raw, -, rfl⟩ : ∃ raw, c.dto.email = some raw ∧ normalizeEmail env raw = email := by
          exact Option.map_eq_some_iff.1 (Option.filter_eq_some_iff.1 hemail).1
        exact trim_normalizeEmail htrim raw
      · rw [hnew]
        exact address_free (not_taken (hupdatable.email email hemail))
          (hclear user email hupdatable hemail) hy (by simpa using hv)

/-- The seeding writes a trimmed address, which nobody has in another case, or it would be found. -/
theorem Orderly.seeded (h : Orderly env d) (hmode : Insensitive env) {i : SeedInput}
    (hclear : ClearSeed env d (some i.email)) (hseeded : Seeded env i d d') : Orderly env d' := by
  cases hseeded with
  | skipped => exact h
  | made hfree hnew husers hsessions =>
    have htrimmed : JsString.trim (i.user env).email = (i.user env).email := JsString.trim_trim _
    refine h.write _ husers (fun s row email hs he => ⟨s, row, hsessions ▸ hs, he⟩) htrimmed
      fun v y hv hy heq => ?_
    rw [address_of_trimmed htrimmed] at heq
    obtain ⟨hstored, hplain⟩ := hclear i.email v y rfl hy heq (hnew v y hy hv)
    rw [address_of_trimmed (h.users v y hy)] at heq
    have hfound := hmode.finds _ _ hstored hplain heq
    rw [hfree v y hy] at hfound
    cases hfound

theorem Orderly.seedIfSet (h : Orderly env d) (hmode : Insensitive env)
    {email : Option String} (password : Option String) {input : String → String → SeedInput}
    (hinput : ∀ e p, (input e p).email = e) (hclear : ClearSeed env d email) :
    (seedIfSet env email password input).Ensures d fun _ d' => Orderly env d' := by
  unfold Users.seedIfSet
  split
  · rename_i email password
    split
    · refine (ensureUser_ensures _ _).imp fun _ _ hseeded => h.seeded hmode ?_ hseeded
      intro e u x he hx hsame hne
      obtain rfl := Option.some.inj he
      rw [hinput, address, address, JsString.trim_trim] at hsame
      rw [hinput, JsString.trim_trim] at hne ⊢
      exact hclear email u x rfl hx hsame hne
    · exact Prog.ensures_pure h
  · exact Prog.ensures_pure h

theorem Orderly.bootstrap (h : Orderly env d) (hmode : Insensitive env) {cfg : SeedConfig}
    (hclear : Clear env d (.bootstrap cfg)) :
    (bootstrap env cfg).Ensures d fun _ d' => Orderly env d' := by
  have hadmin : (Users.seedIfSet env cfg.adminEmail cfg.adminPassword (cfg.input true)).Ensures d
      fun _ d' => Orderly env d' :=
    h.seedIfSet hmode cfg.adminPassword (fun _ _ => rfl) hclear.1
  obtain ⟨-, hclear⟩ := hclear
  unfold Prog.Ensures at hadmin
  refine Prog.ensures_bind ?_
  unfold Prog.Ensures
  generalize (Users.seedIfSet env cfg.adminEmail cfg.adminPassword (cfg.input true)).run d = x
    at hadmin hclear
  obtain ⟨r, d₁⟩ := x
  cases r with
  | ok _ => exact hadmin.seedIfSet hmode cfg.userPassword (fun _ _ => rfl) hclear
  | error e => exact hadmin

theorem Orderly.addressed (h : Orderly env d) {typed : Option String} {r : Signup.Registry}
    (haddressed : Signup.Addressed typed d.registry r)
    (htyped : ∀ email, typed = some email → JsString.trim email = email) :
    Orderly env { d with registry := r } := by
  refine ⟨h.unique.subset haddressed.users, fun u x hx => h.users u x (haddressed.users u x hx),
    fun s row email hs he => ?_⟩
  rcases haddressed.sessions s row email hs he with hnew | ⟨s', row', hs', he'⟩
  · exact htyped email hnew
  · exact h.sessions s' row' email hs' he'

/-- A sign-up that completes gives the user the address of its session. -/
theorem Orderly.complete (h : Orderly env d) {c : Signup.CompleteCall} {s : Signup.SignupSession}
    {r : Signup.Registry} (hcompletable : Signup.Completable c d.registry.db s)
    (hcompletion : Signup.Completion c.sessionId c.userId c.kycId s d.registry r)
    (hclear : ∀ email, s.email = some email → ¬ Respelled env d none email) :
    Orderly env { d with registry := r } := by
  obtain ⟨user, hemail, -, husers, hfree⟩ := hcompletion.user
  refine h.write _ husers (fun s' row email hs' he => ?_)
    (h.sessions _ s _ hcompletable.row hemail) fun v y _ hy => ?_
  · obtain ⟨row', hrow', rfl | ⟨-, rfl⟩⟩ := Signup.updated_origin hcompletion.sessions hs'
    · exact ⟨s', row, hrow', he⟩
    · exact ⟨s', row', hrow', he⟩
  · exact address_free (fun v y hy _ => hfree v y hy) (hclear _ hemail) hy (by simp)

theorem Orderly.signup (h : Orderly env d)
    (hisEmail : ∀ s, env.isEmail s = true → JsString.trim s = s) {c : Signup.Call}
    (hok : (Call.signup c).Admissible env) (hclear : Clear env d (.signup c)) :
    (Signup.handle env.signup c).Ensures d.registry fun _ r => Orderly env { d with registry := r } := by
  by_cases hmakes : c.makesUser = false
  · have haddressed := (Signup.handle_addressed env.signup hmakes).run Signup.addressed_refl
      (fun h h' => h.trans h') d.registry
    refine h.addressed haddressed fun email htyped => ?_
    cases c with
    | begin now sessionId input =>
      obtain rfl := Option.some.inj htyped
      exact hisEmail _ hok
    | _ => cases htyped
  · cases c with
    | complete now id userId kycId =>
      have hhandle : Signup.handle env.signup (.complete now id userId kycId) =
          Signup.completeHandler ⟨now, id, userId, kycId⟩ >>= fun user =>
            pure (.completed user) := by
        simp [Signup.handle, Signup.completeHandler]
      rw [hhandle]
      refine Prog.ensures_bind ((Signup.completeHandler_finishes _ _).imp fun res r hr => ?_)
      cases res with
      | error e =>
        have hsame : r = d.registry := hr
        rw [hsame]
        exact h
      | ok user =>
        obtain ⟨s, hcompletable, hcompletion⟩ := hr
        exact h.complete hcompletable hcompletion fun email => hclear s email hcompletable
    | addUser | editUser => exact hok.elim
    | _ => exact absurd rfl hmakes

end Steps

section Runs

variable {env : Env} (htrim : ∀ s, JsString.trim (env.toLowerCase s) = env.toLowerCase (JsString.trim s))
  (hisEmail : ∀ s, env.isEmail s = true → JsString.trim s = s) (hmode : Insensitive env)

include htrim hisEmail hmode

/-- A call that is clear keeps the directory orderly. -/
theorem Orderly.step {d : Directory} (h : Orderly env d) {c : Call} (hok : c.Admissible env)
    (hclear : Clear env d c) : Orderly env (afterCall env d c) := by
  cases c with
  | signup c =>
    have hzoom : ((Signup.handle env.signup c).zoom Directory.registryPart).Ensures d
        fun _ d' => Orderly env d' :=
      Prog.ensures_zoom (h.signup hisEmail hok hclear)
    exact Prog.ensures_discard hzoom
  | create c => exact Prog.ensures_discard (h.create htrim hclear)
  | update c => exact h.update htrim hclear
  | bootstrap cfg => exact h.bootstrap hmode hclear

theorem orderly_after (calls : List Call) {d : Directory} (h : Orderly env d)
    (hok : ∀ c ∈ calls, c.Admissible env) (hclear : ClearRun env d calls) :
    Orderly env (afterCalls env d calls) := by
  induction calls generalizing d with
  | nil => exact h
  | cons c calls ih =>
    have hstep := h.step htrim hisEmail hmode (hok c List.mem_cons_self) hclear.1
    exact ih hstep (fun c hc => hok c (List.mem_cons_of_mem _ hc)) hclear.2

omit htrim hisEmail hmode in
theorem ClearRun.before {before after : List Call} {d : Directory}
    (h : ClearRun env d (before ++ after)) : ClearRun env d before := by
  induction before generalizing d with
  | nil => trivial
  | cons c before ih => exact ⟨h.1, ih h.2⟩

end Runs

/-! ## Two spellings of one address -/

/-- Does a pattern of `LIKE` without a backslash fit the text? -/
def like : List Char → List Char → Bool
  | [], t => t.isEmpty
  | c :: p, t =>
    if c = '%' then t.tails.any (like p)
    else t.head?.any (fun d => c = '_' || c = d) && like p t.tail

/-- Lower case for ASCII, and addresses that have an at sign and are trimmed. -/
def sampleEnv : Env where
  signup := Signup.sampleEnv
  toLowerCase s := String.ofList (s.toList.map Char.toLower)
  sameEmail stored typed := like (typed.toList.map Char.toLower) (stored.toList.map Char.toLower)
  isEmail s := s.toList.contains '@' && JsString.trim s = s

theorem sampleEnv_trim (s : String) :
    JsString.trim (sampleEnv.toLowerCase s) = sampleEnv.toLowerCase (JsString.trim s) :=
  JsString.trim_map JsString.isSpace_toLower s

theorem like_self (p : List Char) : like p p = true := by
  induction p with
  | nil => rfl
  | cons c p ih =>
    rw [like]
    split
    · exact List.any_eq_true.2 ⟨p, (List.mem_tails p (c :: p)).2 (List.suffix_cons c p), ih⟩
    · simpa using ih

theorem eq_of_like {p t : List Char} (hp : ∀ c ∈ p, c ≠ '%' ∧ c ≠ '_') (h : like p t = true) :
    t = p := by
  induction p generalizing t with
  | nil => simpa [like] using h
  | cons c p ih =>
    obtain ⟨hc, hp⟩ := List.forall_mem_cons.1 hp
    rw [like, if_neg hc.1] at h
    cases t with
    | nil => cases h
    | cons d t =>
      simp only [hc.2, List.head?_cons, Option.any_some, List.tail_cons, decide_false,
        Bool.false_or, Bool.and_eq_true, decide_eq_true_eq] at h
      rw [h.1, ih hp h.2]

theorem insensitive_sample : Insensitive sampleEnv where
  finds stored typed _ _ hsame := by
    have hlower : stored.toList.map Char.toLower = typed.toList.map Char.toLower :=
      String.ofList_injective hsame
    show like _ _ = true
    rw [hlower]
    exact like_self _
  only stored typed _ hplain hmatch := by
    refine congrArg String.ofList (eq_of_like (fun c hc => ?_) hmatch)
    obtain ⟨d, hd, rfl⟩ := List.mem_map.1 hc
    have hspecial := (hplain d hd).2
    simp only [List.mem_cons, List.not_mem_nil, or_false, not_or] at hspecial
    rcases JsString.toLower_cases d with hsame | ⟨hlow, hhigh, hlower⟩
    · rw [hsame]
      exact ⟨hspecial.1, hspecial.2.1⟩
    · constructor
      all_goals
        intro heq
        rw [heq] at hlower
        simp at hlower
        omega

theorem sampleEnv_isEmail (s : String) (h : sampleEnv.isEmail s = true) : JsString.trim s = s := by
  simp only [sampleEnv, Bool.and_eq_true, decide_eq_true_eq] at h
  exact h.2

/-- There are no users. -/
def sampleDirectory : Directory := ⟨Signup.sampleRegistry, ∅⟩

theorem orderly_sample : Orderly sampleEnv sampleDirectory := by
  have hempty : ∀ u : Uuid, sampleDirectory.users.lookup u = none := fun _ => rfl
  refine ⟨fun u v x y hx => ?_, fun u x hx => ?_, fun s row email hs => ?_⟩
  · rw [hempty] at hx
    cases hx
  · rw [hempty] at hx
    cases hx
  · cases hs

/-- An admin makes a customer with this address. -/
def sampleCreate (userId : Uuid) (email : String) : Call :=
  .create ⟨.admin, ⟨email, "correct horse", some "Ann", some "Lee", none, none, none, none⟩, userId, 0⟩

/-- Someone signs up with this address. -/
def sampleSignup (email : String) (h : email ≠ "") : List Call :=
  let begins : Signup.Call :=
    .begin 0 100 ⟨"Ann", "Lee", email, "+15550001", none, h, Signup.isE164_ann⟩
  ([begins, Signup.sampleSend .email, Signup.sampleVerify] ++ Signup.sampleSteps ++
    [Signup.Call.complete 0 100 300 301]).map .signup

/-- An underscore is typed for any character: one of two customers logs in as the other. -/
example : (loginUser sampleEnv "john_doe@example.com" (afterCalls sampleEnv sampleDirectory
    [sampleCreate 1 "john_doe@example.com", sampleCreate 2 "johnxdoe@example.com"])).map Prod.fst =
      some 2 := by
  decide +kernel

/-- An admin makes Ann a customer, then tries to make another with the same address. -/
def sampleCreates : List Call :=
  [sampleCreate 1 "Ann@example.com", sampleCreate 2 " ann@example.com "]

/-- Nobody has the address in another spelling. -/
def unspelled (env : Env) (d : Directory) (email : String) : Bool :=
  d.users.entries.all fun e => address env e.2.email ≠ address env email || e.2.email = email

theorem not_respelled {env : Env} {d : Directory} {except : Option Uuid} {email : String}
    (h : unspelled env d email = true) : ¬ Respelled env d except email := by
  rintro ⟨u, x, hx, -, hsame, hne⟩
  have hx' := List.all_eq_true.1 h ⟨u, x⟩ (Table.mem_entries_iff.2 hx)
  simp [hsame, hne] at hx'

/-- Bob signs up, after the admin. -/
def sampleCalls : List Call := sampleCreates ++ sampleSignup "bob@example.com" (by decide)

/-- The directory when Bob's sign-up is about to complete. -/
def sampleBefore : Directory :=
  afterCalls sampleEnv sampleDirectory sampleCalls.dropLast

theorem clear_sample : ClearRun sampleEnv sampleDirectory sampleCalls := by
  have hcomplete : Clear sampleEnv sampleBefore (.signup (.complete 0 100 300 301)) := by
    intro s email hs hemail
    have hbob : (sampleBefore.registry.db.signupSessions.lookup 100).bind
        Signup.SignupSession.email = some "bob@example.com" := by
      decide +kernel
    rw [hs.row, Option.bind_some, hemail] at hbob
    obtain rfl := Option.some.inj hbob
    exact not_respelled (by decide +kernel)
  exact ⟨fun _ => not_respelled (by decide +kernel), fun _ => not_respelled (by decide +kernel),
    trivial, trivial, trivial, trivial, trivial, trivial, trivial, trivial, trivial, trivial, trivial,
    hcomplete, trivial⟩

/-- Ann is a customer already, and a visitor signs up with her address in another spelling. -/
def secondAnn : List Call :=
  sampleCreate 1 "ann@example.com" :: sampleSignup "Ann@example.com" (by decide)

end BankDemo.Users
