import BankDemo.Foundations.Interleave
import BankDemo.Users.Service
import BankDemo.Signup.Addresses
import BankDemo.Properties.OneAddress

/-!
# One user at every door

Three services look up a user by a typed address: `AuthService.login`, `RecoveryController.request` and
`BiometricService.beginAuthentication`. The first ignores the case of the address that is stored, since
a sign-up keeps the address as it was typed. The other two look for the typed address in lower case,
letter by letter: who has signed up with a capital letter logs in, but cannot recover the password
(`ann_locked_out`). And it takes `_` and `%` for wildcards: who types `john_doe@example.com` may log in
as `johnxdoe@example.com`.

* `sameUser_iff`: the three find the same user for a typed address if and only if the users that the
  mode `insensitive` takes for its owners have it in lower case, and it finds these.
* `same_user_at_every_door`: so they do, for an address that is typed plainly, in every run in which
  the addresses that are not prepared, those of sign-ups and of the seeding, are in lower case.
-/

namespace BankDemo.Users

/-- In whatever order the rows of the users come, the three services find the same user. -/
def SameUser (env : Env) (d : Directory) (email : String) : Prop :=
  ∀ d' : Directory, (∀ u, d'.users.lookup u = d.users.lookup u) →
    recoveryUser env email d' = loginUser env email d' ∧
      biometricUser env (some email) d' = loginUser env email d'

/-- The users whose address is taken for the typed one have it in lower case. -/
def Lowered (env : Env) (d : Directory) (email : String) : Prop :=
  ∀ u x, d.users.lookup u = some x → env.sameEmail x.email (JsString.trim email) = true →
    x.email = normalizeEmail env email

/-- The users that have the typed address in lower case are found by it. -/
def Found (env : Env) (d : Directory) (email : String) : Prop :=
  ∀ u x, d.users.lookup u = some x → x.email = normalizeEmail env email →
    env.sameEmail x.email (JsString.trim email) = true

/-- The text is in lower case. -/
def IsLower (env : Env) (s : String) : Prop := env.toLowerCase s = s

/-- Every address of the directory, those of sign-ups included, is in lower case. -/
def AllLower (env : Env) (d : Directory) : Prop := Signup.EveryAddress (IsLower env) d.registry

/-- The addresses that the call stores as they are, or only trimmed, are in lower case. -/
def Call.TypesLower (env : Env) : Call → Prop
  | .signup (.begin _ _ input) => IsLower env input.email
  | .bootstrap cfg => ∀ email, cfg.adminEmail = some email ∨ cfg.userEmail = some email →
      IsLower env (JsString.trim email)
  | _ => True

section Lookups

variable {env : Env} {d : Directory} {email : String}

theorem biometricUser_eq (hemail : email ≠ "") :
    biometricUser env (some email) d = recoveryUser env email d := by
  simp [biometricUser, recoveryUser, hemail]

/-- Both lookups accept the same rows. -/
theorem Lowered.recoveryUser_eq (h : Lowered env d email) (hfound : Found env d email) :
    recoveryUser env email d = loginUser env email d := by
  unfold recoveryUser loginUser
  refine Table.findRow_congr fun u x hx => ?_
  rw [Bool.eq_iff_iff]
  constructor
  · exact fun hexact => hfound u x hx (of_decide_eq_true hexact)
  · exact fun hmatch => decide_eq_true (h u x hx hmatch)

/-- A user comes first in some order of the rows. -/
theorem exists_front {u : Uuid} {x : Signup.User} (hx : d.users.lookup u = some x) :
    ∃ d' : Directory, (∀ v, d'.users.lookup v = d.users.lookup v) ∧
      ∀ p : Signup.User → Bool, p x = true → d'.users.findRow p = some (u, x) := by
  refine ⟨d.setUsers (d.users.insert u x) d.profiles, fun v => ?_, fun p hp => Table.findRow_front hp⟩
  show (d.users.insert u x).lookup v = _
  rw [Table.lookup_insert_ite]
  split
  · rename_i hv
    rw [hv, hx]
  · rfl

/-- A user that is stored in another spelling comes first in some order of the rows. -/
theorem SameUser.lowered (h : SameUser env d email) : Lowered env d email := by
  intro u x hx hmatch
  obtain ⟨d', hrows, hfront⟩ := exists_front hx
  have hlogin : loginUser env email d' = some (u, x) := hfront _ hmatch
  have hfound := (h d' hrows).1
  rw [hlogin] at hfound
  unfold recoveryUser at hfound
  exact of_decide_eq_true (Table.findRow_some hfound).2

theorem SameUser.found (h : SameUser env d email) : Found env d email := by
  intro u x hx hexact
  obtain ⟨d', hrows, hfront⟩ := exists_front hx
  have hrecovery : recoveryUser env email d' = some (u, x) :=
    hfront (fun y => y.email = normalizeEmail env email) (decide_eq_true hexact)
  have hfound := (h d' hrows).1
  rw [hrecovery] at hfound
  unfold loginUser at hfound
  exact (Table.findRow_some hfound.symm).2

/-- The three doors lead to the same user exactly if the users that are taken for the owners of the
address are those that have it in lower case. -/
theorem sameUser_iff (hemail : email ≠ "") :
    SameUser env d email ↔ Lowered env d email ∧ Found env d email := by
  refine ⟨fun h => ⟨h.lowered, h.found⟩, fun ⟨h, hfound⟩ d' hrows => ?_⟩
  have h' : Lowered env d' email := fun u x hx => h u x ((hrows u).symm.trans hx)
  have hfound' : Found env d' email := fun u x hx => hfound u x ((hrows u).symm.trans hx)
  have hrecovery := h'.recoveryUser_eq hfound'
  exact ⟨hrecovery, (biometricUser_eq hemail).trans hrecovery⟩

theorem Plain.mono {special special' : List Char} {s : String} (h : Plain special s)
    (hsub : special' ⊆ special) : Plain special' s :=
  fun c hc => ⟨(h c hc).1, fun hmem => (h c hc).2 (hsub hmem)⟩

/-- A plain address finds the users that have it in lower case. -/
theorem found_plain (hlower : ∀ s, IsLower env (env.toLowerCase s))
    (hascii : ∀ s, Plain [] s → Plain [] (env.toLowerCase s)) (hmode : Insensitive env)
    (hplain : Plain ['\\'] (JsString.trim email)) : Found env d email := by
  intro u x _ hexact
  rw [hexact]
  exact hmode.finds _ _ (hascii _ (hplain.mono (List.nil_subset _))) hplain
    (hlower (JsString.trim email))

/-- In a directory in lower case, an address that is typed plainly is taken for no other spelling. -/
theorem AllLower.lowered (h : AllLower env d) (hmode : Insensitive env)
    (hplain : TypedPlainly env d email) : Lowered env d email := by
  intro u x hx hmatch
  calc x.email = env.toLowerCase x.email := (h.users u x hx).symm
    _ = normalizeEmail env email :=
      hmode.only _ _ (hplain.stored u x hx hmatch) hplain.typed hmatch

end Lookups

/-! ## Each call -/

section Calls

variable {env : Env} {d d' : Directory}

/-- A user with an address in lower case is written. -/
theorem AllLower.write (h : AllLower env d) {id : Uuid} {user : Signup.User}
    (husers : d'.users = d.users.insert id user)
    (hsessions : d'.registry.db.signupSessions = d.registry.db.signupSessions)
    (hlower : IsLower env user.email) : AllLower env d' := by
  refine ⟨fun u x hx => ?_, fun s row email hs he => ?_⟩
  · change d'.users.lookup u = some x at hx
    rw [husers, Table.lookup_insert_ite] at hx
    split at hx
    · obtain rfl := Option.some.inj hx
      exact hlower
    · exact h.users u x hx
  · rw [hsessions] at hs
    exact h.sessions s row email hs he

theorem keeps_assertFree {I : Directory → Prop} (taken : Directory → String → Bool)
    (message : String) (value : Option String) :
    (assertFree taken message value).Keeps I fun _ => True := by
  unfold assertFree
  split
  · exact Prog.keeps_pure trivial
  · refine Prog.keeps_read_bind fun _ _ => ?_
    split
    · exact Prog.keeps_throw trivial
    · exact Prog.keeps_pure trivial

theorem keeps_createUser {id : Uuid} {user : Signup.User} {profile : Profile}
    (hlower : IsLower env user.email) :
    (createUser id user profile).Keeps (AllLower env) fun _ => True := by
  refine Prog.keeps_attempt (fun d a d' hd hb => ⟨?_, trivial⟩) fun _ => trivial
  split at hb
  · cases hb
  · cases hb
    exact AllLower.write hd rfl rfl hlower

theorem keeps_create (hlower : ∀ s, IsLower env (env.toLowerCase s)) (c : CreateCall) :
    (create env c).Keeps (AllLower env) fun _ => True := by
  unfold create
  split
  · exact Prog.keeps_throw trivial
  · split
    · exact Prog.keeps_throw trivial
    · refine (keeps_assertFree _ _ _).seq fun _ => ?_
      refine (keeps_assertFree _ _ _).seq fun _ => ?_
      refine (keeps_assertFree _ _ _).seq fun _ => ?_
      exact (keeps_createUser (hlower _)).seq fun _ => Prog.keeps_pure trivial

/-- An update keeps the address, or sets one in lower case. -/
theorem keeps_updateUser {id : Uuid} {p : UserPatch}
    (hlower : ∀ email, p.email = some email → IsLower env email) :
    (updateUser id p).Keeps (AllLower env) fun _ => True := by
  refine Prog.keeps_attempt (fun d a d' hd hb => ⟨?_, trivial⟩) fun _ => trivial
  split at hb
  · cases hb
  · rename_i user huser
    split at hb
    · cases hb
    · cases hb
      refine AllLower.write hd rfl rfl ?_
      show IsLower env (p.email.getD user.email)
      cases hemail : p.email with
      | none => exact hd.users id user huser
      | some email => exact hlower email hemail

theorem keeps_update (hlower : ∀ s, IsLower env (env.toLowerCase s)) (c : UpdateCall) :
    (update env c).Keeps (AllLower env) fun _ => True := by
  refine Prog.keeps_read_bind fun d _ => ?_
  split
  · exact Prog.keeps_throw trivial
  · rename_i user profile hfound
    have hpatch : ∀ email, (patchOf env c.dto user profile).email = some email →
        IsLower env email := by
      intro email hemail
      obtain ⟨raw, -, rfl⟩ := Option.map_eq_some_iff.1 (Option.filter_eq_some_iff.1 hemail).1
      exact hlower _
    unfold updateFound
    dsimp only
    split
    · exact Prog.keeps_throw trivial
    · split
      · exact Prog.keeps_throw trivial
      · refine (keeps_assertFree _ _ _).seq fun _ => ?_
        refine (keeps_assertFree _ _ _).seq fun _ => ?_
        split
        · exact Prog.keeps_throw trivial
        · refine (keeps_assertFree _ _ _).seq fun _ => ?_
          split
          · exact Prog.keeps_pure trivial
          · exact keeps_updateUser hpatch

theorem keeps_ensureUser {i : SeedInput} (hlower : IsLower env (JsString.trim i.email)) :
    (ensureUser env i).Keeps (AllLower env) fun _ => True := by
  have hseed : (seedUser env i).Keeps (AllLower env) fun _ => True := by
    refine Prog.keeps_attempt (fun d a d' hd hb => ⟨?_, trivial⟩) fun _ => trivial
    split at hb
    · cases hb
    · cases hb
      exact AllLower.write hd rfl rfl hlower
  refine Prog.keeps_tryCatch ?_
  refine (Prog.keeps_read_bind (Q := fun _ => True) fun d _ => ?_).imp fun r _ => ?_
  · split
    · exact Prog.keeps_pure trivial
    · exact hseed
  · cases r with
    | ok _ => trivial
    | error e => exact Prog.keeps_pure trivial

theorem keeps_seedIfSet (email password : Option String) {input : String → String → SeedInput}
    (hinput : ∀ e p, (input e p).email = e)
    (hlower : ∀ e, email = some e → IsLower env (JsString.trim e)) :
    (seedIfSet env email password input).Keeps (AllLower env) fun _ => True := by
  cases email with
  | none => exact Prog.keeps_pure trivial
  | some e =>
    cases password with
    | none => exact Prog.keeps_pure trivial
    | some p =>
      unfold seedIfSet
      dsimp only
      split
      · refine keeps_ensureUser ?_
        rw [hinput, JsString.trim_trim]
        exact hlower e rfl
      · exact Prog.keeps_pure trivial

theorem keeps_bootstrap {cfg : SeedConfig} (hlower : (Call.bootstrap cfg).TypesLower env) :
    (bootstrap env cfg).Keeps (AllLower env) fun _ => True := by
  refine (keeps_seedIfSet _ _ (fun _ _ => rfl) fun e he => hlower e (.inl he)).seq fun _ => ?_
  exact keeps_seedIfSet _ _ (fun _ _ => rfl) fun e he => hlower e (.inr he)

/-- A call that types its addresses in lower case keeps them so. -/
theorem keeps_handle (hlower : ∀ s, IsLower env (env.toLowerCase s)) {c : Call}
    (hok : c.Admissible env) (htypes : c.TypesLower env) :
    (handle env c).Keeps (AllLower env) fun _ => True := by
  cases c with
  | signup c =>
    have hsignup : (Signup.handle env.signup c).Keeps (Signup.EveryAddress (IsLower env))
        fun _ => True := by
      refine Signup.handle_keeps env.signup (fun hmakes => ?_) fun email htyped => ?_
      · cases c with
        | complete now id userId kycId => exact ⟨now, id, userId, kycId, rfl⟩
        | addUser | editUser => exact hok.elim
        | _ => cases hmakes
      · cases c with
        | begin now sessionId input =>
          obtain rfl := Option.some.inj htyped
          exact htypes
        | _ => cases htyped
    have hzoom : ((Signup.handle env.signup c).zoom Directory.registryPart).Keeps
        (fun d => Signup.EveryAddress (IsLower env) (Directory.registryPart.get d))
        fun _ => True := hsignup.zoom
    exact hzoom.seq fun _ => Prog.keeps_pure trivial
  | create c => exact (keeps_create hlower c).seq fun _ => Prog.keeps_pure trivial
  | update c => exact keeps_update hlower c
  | bootstrap cfg => exact keeps_bootstrap htypes

end Calls

/-! ## Runs -/

/-- The runs of the services from `d`, in which their calls interleave. -/
abbrev DirectoryRun (env : Env) (ok : Call → Prop) (d : Directory) :
    List (Step Directory Call) → Pool Directory Error Unit Call → Prop :=
  Run (fun _ => handle env) ok d

/-- **One user at every door.** In every directory, the three services find the same user for a typed
address, or none, exactly if the users whose address is taken for it in the mode `insensitive` have it
in lower case and those that have it in lower case are found, as they are by a plain address. From a
directory in lower case, the services do so for every address that is typed plainly, in every run
whose sign-ups and seeding type their addresses in lower case. -/
theorem same_user_at_every_door (env : Env)
    (hlower : ∀ s, env.toLowerCase (env.toLowerCase s) = env.toLowerCase s)
    (hascii : ∀ s, Plain [] s → Plain [] (env.toLowerCase s)) (hmode : Insensitive env) :
    (∀ d email, email ≠ "" → (SameUser env d email ↔ Lowered env d email ∧ Found env d email)) ∧
    (∀ d email, Plain ['\\'] (JsString.trim email) → Found env d email) ∧
    ∀ d tr P, AllLower env d →
      DirectoryRun env (fun c => c.Admissible env ∧ c.TypesLower env) d tr P →
        ∀ email, email ≠ "" → TypedPlainly env P.state email → SameUser env P.state email := by
  refine ⟨fun d email hemail => sameUser_iff hemail,
    fun d email hplain => found_plain hlower hascii hmode hplain,
    fun d tr P hd hrun email hemail hplain => ?_⟩
  have hreached : AllLower env P.state :=
    (hrun.invariant (fun _ c hc => keeps_handle hlower hc.1 hc.2) hd).1
  exact (sameUser_iff hemail).2 ⟨hreached.lowered hmode hplain,
    found_plain hlower hascii hmode (hplain.typed.mono (by simp))⟩

/-! ## Ann signs up -/

/-- The requests of a sign-up with this address, one after the other. -/
def signupInTurn (email : String) (h : email ≠ "") : List (Choice Call) :=
  ((sampleSignup email h).zipIdx.map fun c =>
    Choice.call c.1 :: List.replicate 6 (Choice.step c.2)).flatten

/-- The run of a sign-up with this address. -/
def signedUp (email : String) (h : email ≠ "") :
    List (Step Directory Call) × Pool Directory Error Unit Call :=
  exec (fun _ => handle sampleEnv) sampleDirectory (signupInTurn email h)

theorem mem_signupInTurn {email : String} {h : email ≠ ""} {c : Call}
    (hc : Choice.call c ∈ signupInTurn email h) : c ∈ sampleSignup email h := by
  obtain ⟨l, hl, hcl⟩ := List.mem_flatten.1 hc
  obtain ⟨⟨c', i⟩, hc', rfl⟩ := List.mem_map.1 hl
  rcases List.mem_cons.1 hcl with heq | hstep
  · cases heq
    exact List.fst_mem_of_mem_zipIdx hc'
  · exact absurd (List.eq_of_mem_replicate hstep) (by simp)

theorem toLowerCase_sample (s : String) :
    sampleEnv.toLowerCase (sampleEnv.toLowerCase s) = sampleEnv.toLowerCase s := by
  have hlower : Char.toLower ∘ Char.toLower = Char.toLower := funext JsString.toLower_toLower
  simp [sampleEnv, hlower]

theorem toLowerCase_ascii (s : String) (h : Plain [] s) : Plain [] (sampleEnv.toLowerCase s) := by
  intro c hc
  rw [show (sampleEnv.toLowerCase s).toList = s.toList.map Char.toLower from String.toList_ofList] at hc
  obtain ⟨d, hd, rfl⟩ := List.mem_map.1 hc
  have hascii := (h d hd).1
  refine ⟨?_, List.not_mem_nil⟩
  rcases JsString.toLower_cases d with hsame | ⟨-, hhigh, hlower⟩
  · rwa [hsame]
  · omega

/-- Nobody has an address yet. -/
theorem allLower_sample : AllLower sampleEnv sampleDirectory := by
  refine ⟨fun u x hx => ?_, fun s row email hs => ?_⟩
  · cases hx
  · cases hs

theorem admissible_signup {email : String} {h : email ≠ ""} (hemail : sampleEnv.isEmail email = true) :
    ∀ c ∈ sampleSignup email h, c.Admissible sampleEnv := by
  simp [sampleSignup, Call.Admissible, Signup.sampleSend, Signup.sampleVerify, Signup.sampleSteps,
    hemail]

/-- Ann signs up in lower case, and can recover the password whichever way she types the address. -/
theorem same_user_sample :
    (recoveryUser sampleEnv "Ann@Example.com" (signedUp "ann@example.com" (by decide)).2.state).map
      Prod.fst = some 300 ∧
    SameUser sampleEnv (signedUp "ann@example.com" (by decide)).2.state "Ann@Example.com" := by
  have hrun : DirectoryRun sampleEnv (fun c => c.Admissible sampleEnv ∧ c.TypesLower sampleEnv)
      sampleDirectory (signedUp "ann@example.com" (by decide)).1
      (signedUp "ann@example.com" (by decide)).2 := by
    refine exec_run _ fun c hc => ⟨admissible_signup (by decide +kernel) c (mem_signupInTurn hc), ?_⟩
    have hlower : ∀ c ∈ sampleSignup "ann@example.com" (by decide), c.TypesLower sampleEnv := by
      simp [sampleSignup, Call.TypesLower, Signup.sampleSend, Signup.sampleVerify,
        Signup.sampleSteps, IsLower]
      decide +kernel
    exact hlower c (mem_signupInTurn hc)
  have hstored : ((signedUp "ann@example.com" (by decide)).2.state.users.entries.all
      fun e => Plain [] e.2.email) = true := by
    decide +kernel
  have hplain : TypedPlainly sampleEnv (signedUp "ann@example.com" (by decide)).2.state
      "Ann@Example.com" := by
    refine ⟨by decide +kernel, fun u x hx _ => ?_⟩
    exact of_decide_eq_true (List.all_eq_true.1 hstored ⟨u, x⟩ (Table.mem_entries_iff.2 hx))
  exact ⟨by decide +kernel, (same_user_at_every_door sampleEnv toLowerCase_sample
    toLowerCase_ascii insensitive_sample).2.2 _ _ _ allLower_sample hrun "Ann@Example.com"
    (by decide) hplain⟩

/-- Ann signs up with a capital letter. She logs in with the address as she typed it, but neither can
she recover the password with it nor is she offered her passkeys. -/
theorem ann_locked_out :
    DirectoryRun sampleEnv (Call.Admissible sampleEnv) sampleDirectory
      (signedUp "Ann@example.com" (by decide)).1 (signedUp "Ann@example.com" (by decide)).2 ∧
    (loginUser sampleEnv "Ann@example.com" (signedUp "Ann@example.com" (by decide)).2.state).map
      Prod.fst = some 300 ∧
    recoveryUser sampleEnv "Ann@example.com" (signedUp "Ann@example.com" (by decide)).2.state =
      none ∧
    biometricUser sampleEnv (some "Ann@example.com")
      (signedUp "Ann@example.com" (by decide)).2.state = none ∧
    ¬ SameUser sampleEnv (signedUp "Ann@example.com" (by decide)).2.state "Ann@example.com" := by
  have hlogin : (loginUser sampleEnv "Ann@example.com"
      (signedUp "Ann@example.com" (by decide)).2.state).map Prod.fst = some 300 := by
    decide +kernel
  have hrecovery : recoveryUser sampleEnv "Ann@example.com"
      (signedUp "Ann@example.com" (by decide)).2.state = none := by
    decide +kernel
  refine ⟨exec_run _ fun c hc => admissible_signup (by decide +kernel) c (mem_signupInTurn hc),
    hlogin, hrecovery, by decide +kernel, fun h => ?_⟩
  have hsame := (h _ fun _ => rfl).1
  rw [hrecovery] at hsame
  rw [← hsame] at hlogin
  cases hlogin

end BankDemo.Users
