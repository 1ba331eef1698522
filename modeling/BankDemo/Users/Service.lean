import BankDemo.Identity.Store
import BankDemo.Signup.Completion

/-!
# The users and their e-mail addresses

Three services make users, and one changes the address of a user: `SignupService.complete`, the
admins' `create` and `update`, and the seeding at startup. Each prepares the address in its own way. A
sign-up takes it as it was typed. `create` and `update` trim it and turn it to lower case. The seeding
trims it. The first three look for the same text among the users, which is what the unique index does,
too; the seeding, as `AuthService.login`, has the database compare in its mode `insensitive`. That mode
is a parameter (`sameEmail`), of which only `Insensitive` is used: it ignores the case of ASCII text,
but it takes some characters of the typed text for wildcards.

`Directory` is the registry with the columns of the users that sign-ups leave alone. Alone, each service
either writes one user, having passed its checks (`Creatable`, `Updatable`), or it does nothing. The
seeding writes a user only if the database finds none.
-/

namespace BankDemo.Users

structure Profile where
  novaTag : Option String
  role : UserRole
  status : Identity.UserStatus
  deriving DecidableEq

/-- The profile of a user that has signed up. -/
def Profile.initial : Profile := ⟨none, .customer, .active⟩

/-- The registry, and the profiles of the users that an admin or the seeding has made or changed. -/
structure Directory where
  registry : Signup.Registry
  profiles : Table Uuid Profile

namespace Directory

/-- The registry, as a part of the directory. -/
def registryPart : Prog.Part Directory Signup.Registry where
  get := Directory.registry
  put r d := { d with registry := r }
  get_put _ _ := rfl
  put_get _ := rfl
  put_put _ _ _ := rfl

def users (d : Directory) : Table Uuid Signup.User := d.registry.db.users

/-- The profile of a user. -/
def profile (d : Directory) (id : Uuid) : Profile := (d.profiles.lookup id).getD .initial

/-- The directory with other users and profiles. -/
def setUsers (d : Directory) (users : Table Uuid Signup.User) (profiles : Table Uuid Profile) :
    Directory where
  registry := { d.registry with db := { d.registry.db with users } }
  profiles

/-- A user other than `except` has this tag. -/
def tagTaken (d : Directory) (except : Option Uuid) (tag : String) : Bool :=
  d.users.entries.any fun e => some e.1 ≠ except && (d.profile e.1).novaTag = some tag

/-- A user other than `except` has this phone number. -/
def phoneTaken (d : Directory) (except : Option Uuid) (phone : String) : Bool :=
  d.users.entries.any fun e => some e.1 ≠ except && e.2.phoneE164 = some phone

/-- A user other than `except` has this e-mail address, letter by letter. -/
def emailTaken (d : Directory) (except : Option Uuid) (email : String) : Bool :=
  d.users.entries.any fun e => some e.1 ≠ except && e.2.email = email

/-- A unique column of the row is another user's. -/
def clash (d : Directory) (id : Uuid) (user : Signup.User) (profile : Profile) : Bool :=
  Signup.userClash d.registry.db id user || profile.novaTag.any (d.tagTaken (some id))

end Directory

/-- The functions of the language and of other packages that the services use. -/
structure Env where
  signup : Signup.Env
  /-- `s.toLowerCase()`. -/
  toLowerCase : String → String
  /-- The comparison of a stored with a typed text in the mode `insensitive` of the database. -/
  sameEmail : String → String → Bool
  /-- The e-mail addresses that validation lets through. -/
  isEmail : String → Bool

/-- ASCII text without any of these characters. -/
def Plain (special : List Char) (s : String) : Prop := ∀ c ∈ s.toList, c.toNat < 128 ∧ c ∉ special

instance (special : List Char) (s : String) : Decidable (Plain special s) :=
  List.decidableBAll (fun c : Char => c.toNat < 128 ∧ c ∉ special) s.toList

/-- The mode `insensitive` compares by `ILIKE`, the typed text being the pattern: of the ASCII texts it
finds those that differ in case, and no others if there are no wildcards. A backslash escapes the
character after it, and the case of what is not ASCII is the database's own. -/
structure Insensitive (env : Env) : Prop where
  finds : ∀ stored typed, Plain [] stored → Plain ['\\'] typed →
    env.toLowerCase stored = env.toLowerCase typed → env.sameEmail stored typed = true
  only : ∀ stored typed, Plain [] stored → Plain ['%', '_', '\\'] typed →
    env.sameEmail stored typed = true → env.toLowerCase stored = env.toLowerCase typed

/-- A request handler over the directory. -/
abbrev Handler (α : Type) := Prog Directory Error α

/-- A query outside a transaction. -/
def query {α : Type} (f : Directory → α) : Handler α := .read f

section

variable (env : Env)

/-- The user that `AuthService.login` finds. -/
def loginUser (email : String) (d : Directory) : Option (Uuid × Signup.User) :=
  d.users.findRow fun u => env.sameEmail u.email (JsString.trim email)

/-- `normalizeEmail`. -/
def normalizeEmail (raw : String) : String := env.toLowerCase (JsString.trim raw)

/-- The user that `RecoveryController.request` finds. -/
def recoveryUser (email : String) (d : Directory) : Option (Uuid × Signup.User) :=
  let email := env.toLowerCase (JsString.trim email)
  d.users.findRow fun u => u.email = email

/-- The user that `BiometricService.beginAuthentication` finds; it looks for none without an address. -/
def biometricUser (email : Option String) (d : Directory) : Option (Uuid × Signup.User) :=
  match email with
  | none => none
  | some email =>
    if email = "" then none
    else d.users.findRow fun u => u.email = env.toLowerCase (JsString.trim email)

/-- `normalizeNovaTag`. -/
def normalizeNovaTag (raw : String) : Option String :=
  let cleaned := env.toLowerCase
    (String.ofList ((JsString.trim raw).toList.dropWhile fun c => c = '@'))
  if cleaned = "" then none else some ("@" ++ cleaned)

/-- `s.trim() || null`. -/
def trimmed? (s : String) : Option String := JsString.orElse (some (JsString.trim s)) none

/-- Nobody else has the value, if there is one. -/
def assertFree (taken : Directory → String → Bool) (message : String) (value : Option String) :
    Handler Unit :=
  match value with
  | none => pure ()
  | some v => do
    let found ← query fun d => taken d v
    if found then throw (.conflict message) else pure ()

/-! ## Creating -/

structure CreateAdminUserDto where
  email : String
  password : String
  firstName : Option String
  lastName : Option String
  novaTag : Option String
  phoneE164 : Option String
  role : Option UserRole
  status : Option Identity.UserStatus
  deriving DecidableEq

/-- A call of `create`, with the id and the salt it draws. -/
structure CreateCall where
  actorRole : UserRole
  dto : CreateAdminUserDto
  userId : Uuid
  salt : ℕ

/-- `dto.novaTag ? normalizeNovaTag(dto.novaTag) : null`. -/
def CreateCall.novaTag (c : CreateCall) : Option String :=
  if JsString.truthy c.dto.novaTag then c.dto.novaTag.bind (normalizeNovaTag env) else none

/-- The row that `create` makes. -/
def CreateCall.user (c : CreateCall) : Signup.User where
  email := normalizeEmail env c.dto.email
  phoneE164 := c.dto.phoneE164.bind trimmed?
  passwordHash := env.signup.argonHash c.salt c.dto.password
  firstName := c.dto.firstName.bind trimmed?
  lastName := c.dto.lastName.bind trimmed?
  dob := none

def CreateCall.profile (c : CreateCall) : Profile where
  novaTag := c.novaTag env
  role := c.dto.role.getD .customer
  status := c.dto.status.getD .active

/-- `user.create`. -/
def createUser (id : Uuid) (user : Signup.User) (profile : Profile) : Handler Unit :=
  .attempt (fun _ => true) fun d =>
    if (d.users.lookup id).isSome || d.clash id user profile then .error .uniqueViolation
    else .ok ((), d.setUsers (d.users.insert id user) (d.profiles.insert id profile))

/-- `AdminUsersService.create`. -/
def create (c : CreateCall) : Handler Uuid :=
  if (c.profile env).role ≠ .customer ∧ c.actorRole ≠ .superadmin then
    throw (.forbidden "Only superadmin can create admin accounts")
  else if JsString.length c.dto.password < 10 then
    throw (.badRequest "Password must be at least 10 characters")
  else do
    assertFree (fun d => d.emailTaken none) "email already in use" (some (c.user env).email)
    assertFree (fun d => d.tagTaken none) "novaTag already taken" (c.novaTag env)
    assertFree (fun d => d.phoneTaken none) "phone already in use" (c.user env).phoneE164
    createUser c.userId (c.user env) (c.profile env)
    return c.userId

/-! ## Updating -/

/-- The fields that a request does not mention are `none`; `dob` is what `new Date` makes of the
text, `none` for an invalid date. -/
structure UpdateAdminUserDto where
  firstName : Option String
  lastName : Option String
  novaTag : Option String
  phoneE164 : Option String
  dob : Option (Option Instant)
  email : Option String
  role : Option UserRole
  status : Option Identity.UserStatus
  deriving DecidableEq

/-- The columns that an update writes. -/
structure UserPatch where
  firstName : Option (Option String)
  lastName : Option (Option String)
  novaTag : Option (Option String)
  phoneE164 : Option (Option String)
  dob : Option (Option Instant)
  email : Option String
  role : Option UserRole
  status : Option Identity.UserStatus
  deriving DecidableEq

/-- A value that is not the one there already. -/
def changed {α : Type} [DecidableEq α] (new : Option α) (old : α) : Option α :=
  new.filter fun v => v ≠ old

/-- The fields of the request that differ from the user's. -/
def patchOf (dto : UpdateAdminUserDto) (user : Signup.User) (profile : Profile) : UserPatch where
  firstName := changed (dto.firstName.map fun s => some (JsString.trim s)) user.firstName
  lastName := changed (dto.lastName.map fun s => some (JsString.trim s)) user.lastName
  novaTag := changed (dto.novaTag.map (normalizeNovaTag env)) profile.novaTag
  phoneE164 := changed (dto.phoneE164.map trimmed?) user.phoneE164
  dob := changed dto.dob user.dob
  email := changed (dto.email.map (normalizeEmail env)) user.email
  role := changed dto.role profile.role
  status := changed dto.status profile.status

/-- The patch writes nothing. -/
def UserPatch.isEmpty (p : UserPatch) : Bool :=
  p = ⟨none, none, none, none, none, none, none, none⟩

def UserPatch.user (p : UserPatch) (user : Signup.User) : Signup.User :=
  { user with
    firstName := p.firstName.getD user.firstName
    lastName := p.lastName.getD user.lastName
    phoneE164 := p.phoneE164.getD user.phoneE164
    dob := p.dob.getD user.dob
    email := p.email.getD user.email }

def UserPatch.profile (p : UserPatch) (profile : Profile) : Profile where
  novaTag := p.novaTag.getD profile.novaTag
  role := p.role.getD profile.role
  status := p.status.getD profile.status

/-- A call of `update`. -/
structure UpdateCall where
  actorUserId : Uuid
  targetUserId : Uuid
  dto : UpdateAdminUserDto

/-- `user.update`. -/
def updateUser (id : Uuid) (p : UserPatch) : Handler Unit :=
  .attempt (fun _ => true) fun d => match d.users.lookup id with
    | none => .error .recordNotFound
    | some user =>
      if d.clash id (p.user user) (p.profile (d.profile id)) then .error .uniqueViolation
      else .ok ((), d.setUsers (d.users.insert id (p.user user))
        (d.profiles.insert id (p.profile (d.profile id))))

/-- `update` on a user that was found. -/
def updateFound (c : UpdateCall) (user : Signup.User) (profile : Profile) : Handler Unit :=
  let id := c.targetUserId
  let p := patchOf env c.dto user profile
  if c.actorUserId = id ∧ p.role.isSome then throw (.badRequest "Cannot change your own role")
  else if c.actorUserId = id ∧ p.status.isSome ∧ c.dto.status ≠ some .active then
    throw (.badRequest "Cannot suspend / un-verify your own account")
  else do
    assertFree (fun d => d.tagTaken (some id)) "novaTag already taken" p.novaTag.join
    assertFree (fun d => d.phoneTaken (some id)) "phone already in use" p.phoneE164.join
    if c.dto.dob = some none then throw (.badRequest "Invalid DOB")
    else do
      assertFree (fun d => d.emailTaken (some id)) "email already in use" p.email
      if p.isEmpty then pure () else updateUser id p

/-- `AdminUsersService.update`. -/
def update (c : UpdateCall) : Handler Unit := do
  let target ← query fun d => (d.users.lookup c.targetUserId).map fun user =>
    (user, d.profile c.targetUserId)
  match target with
  | none => throw (.notFound "User not found")
  | some (user, profile) => updateFound env c user profile

/-! ## Seeding -/

/-- The words of a text. -/
def words (s : String) : List String :=
  ((s.toList.splitOnP JsString.isSpace).filter fun w => w ≠ []).map String.ofList

/-- `splitName`. -/
def splitName (name : Option String) (fallbackFirst : String) : String × Option String :=
  match words (name.getD "") with
  | [] => (fallbackFirst, none)
  | first :: rest => (first, if rest = [] then none else some (" ".intercalate rest))

/-- The input of `ensureUser`, with what it draws; `accountsMade` says whether the accounts can be
made under the numbers drawn. -/
structure SeedInput where
  email : String
  password : String
  role : UserRole
  name : Option String
  provisionAccounts : Bool
  userId : Uuid
  kycId : Uuid
  salt : ℕ
  accountsMade : Bool

/-- The row that the seeding makes. -/
def SeedInput.user (i : SeedInput) : Signup.User :=
  let (firstName, lastName) := splitName i.name (if i.role = .admin then "Admin" else "Account")
  { email := JsString.trim i.email
    phoneE164 := none
    passwordHash := env.signup.argonHash i.salt i.password
    firstName := some firstName
    lastName
    dob := none }

/-- The transaction of `ensureUser`: a user with a KYC record that is approved. -/
def seedUser (i : SeedInput) : Handler Unit :=
  .attempt (fun _ => true) fun d =>
    if (d.users.lookup i.userId).isSome || d.clash i.userId (i.user env) ⟨none, i.role, .active⟩ ||
        (d.registry.db.kycRecords.lookup i.kycId).isSome ||
        (d.registry.db.kycRecords.findRow fun r => r.userId = i.userId).isSome ||
        (i.provisionAccounts && !i.accountsMade) then .error .uniqueViolation
    else
      let kycRecords := d.registry.db.kycRecords.insert i.kycId ⟨i.userId, .approved, []⟩
      let users := d.users.insert i.userId (i.user env)
      .ok ((), {
        registry := { d.registry with db := { d.registry.db with users, kycRecords } }
        profiles := d.profiles.insert i.userId ⟨none, i.role, .active⟩ })

/-- `ensureUser`: failures are logged. -/
def ensureUser (i : SeedInput) : Handler Unit :=
  tryCatch (do
    let existing ← query fun d => d.users.findRow fun u => env.sameEmail u.email (JsString.trim i.email)
    if existing.isSome then pure () else seedUser env i) fun _ => pure ()

/-- The configuration of the seeding, with what it draws. -/
structure SeedConfig where
  adminEmail : Option String
  adminPassword : Option String
  adminName : Option String
  userEmail : Option String
  userPassword : Option String
  userName : Option String
  draws : Bool → Uuid × Uuid × ℕ × Bool

/-- One of the two users, if its address and its password are set. -/
def seedIfSet (email password : Option String) (input : String → String → SeedInput) :
    Handler Unit :=
  match email, password with
  | some email, some password =>
    if JsString.trim email ≠ "" ∧ password ≠ "" then
      ensureUser env (input (JsString.trim email) password)
    else pure ()
  | _, _ => pure ()

/-- The input for the admin (`true`) or the customer. -/
def SeedConfig.input (cfg : SeedConfig) (admin : Bool) (email password : String) : SeedInput :=
  let (userId, kycId, salt, accountsMade) := cfg.draws admin
  { email, password
    role := if admin then .admin else .customer
    name := if admin then cfg.adminName else cfg.userName
    provisionAccounts := !admin
    userId, kycId, salt, accountsMade }

/-- `onApplicationBootstrap`. -/
def bootstrap (cfg : SeedConfig) : Handler Unit := do
  seedIfSet env cfg.adminEmail cfg.adminPassword (cfg.input true)
  seedIfSet env cfg.userEmail cfg.userPassword (cfg.input false)

end

/-! ## Calls -/

/-- The requests, and the seeding at startup. Those of sign-up include the steps between `begin` and
`complete`. -/
inductive Call
  | signup (c : Signup.Call)
  | create (c : CreateCall)
  | update (c : UpdateCall)
  | bootstrap (cfg : SeedConfig)

/-- What validation lets through; of the calls of sign-up, those that stand for the admins' services
are left out. -/
def Call.Admissible (env : Env) : Call → Prop
  | .signup (.begin _ _ input) => env.isEmail input.email = true
  | .signup (.addUser _ _) | .signup (.editUser _ _) => False
  | _ => True

/-- The handler of a call; what it answers is left out. -/
def handle (env : Env) : Call → Handler Unit
  | .signup c => do
    let _ ← (Signup.handle env.signup c).zoom Directory.registryPart
    pure ()
  | .create c => do
    let _ ← create env c
    pure ()
  | .update c => update env c
  | .bootstrap cfg => bootstrap env cfg

/-- The directory after a call, one after the other. -/
def afterCall (env : Env) (d : Directory) (c : Call) : Directory := ((handle env c).run d).2

/-- The directory after a sequence of calls. -/
def afterCalls (env : Env) (d : Directory) (calls : List Call) : Directory :=
  calls.foldl (afterCall env) d

/-! ## What the services do to the users -/

section Rules

variable {α : Type} {env : Env} {d : Directory}

theorem ensures_query {Q : Except Error α → Directory → Prop} {β : Type} {f : Directory → β}
    {k : β → Handler α} (hk : (k (f d)).Ensures d Q) : (query f >>= k).Ensures d Q := hk

theorem ensures_assertFree {Q : Except Error α → Directory → Prop}
    {taken : Directory → String → Bool} {message : String} {value : Option String}
    {k : Unit → Handler α} (hk : (∀ v, value = some v → taken d v = false) → (k ()).Ensures d Q)
    (herr : ∀ e, Q (.error e) d) : (assertFree taken message value >>= k).Ensures d Q := by
  unfold assertFree
  cases value with
  | none => exact hk fun v hv => by cases hv
  | some v =>
    simp only [bind_assoc]
    refine ensures_query ?_
    split
    · exact Prog.ensures_throw (herr _)
    · rename_i hfree
      refine hk fun v' hv' => ?_
      obtain rfl := Option.some.inj hv'
      simpa using hfree

/-! ## Creating -/

/-- The checks of `create` let it through, and the id is new. -/
structure Creatable (env : Env) (c : CreateCall) (d : Directory) : Prop where
  role : ¬ ((c.profile env).role ≠ .customer ∧ c.actorRole ≠ .superadmin)
  password : ¬ JsString.length c.dto.password < 10
  email : d.emailTaken none (c.user env).email = false
  tag : ∀ v, c.novaTag env = some v → d.tagTaken none v = false
  phone : ∀ v, (c.user env).phoneE164 = some v → d.phoneTaken none v = false
  fresh : d.users.lookup c.userId = none

theorem create_ensures (c : CreateCall) (d : Directory) :
    (create env c).Ensures d fun r d' => match r with
      | .ok _ => Creatable env c d ∧
          d' = d.setUsers (d.users.insert c.userId (c.user env))
            (d.profiles.insert c.userId (c.profile env))
      | .error _ => d' = d := by
  unfold create
  split
  · exact Prog.ensures_throw rfl
  · rename_i hrole
    split
    · exact Prog.ensures_throw rfl
    · rename_i hpassword
      refine ensures_assertFree (fun hemail => ?_) fun _ => rfl
      refine ensures_assertFree (fun htag => ?_) fun _ => rfl
      refine ensures_assertFree (fun hphone => ?_) fun _ => rfl
      refine Prog.ensures_bind (Prog.ensures_attempt (fun _ d' hb => ?_) fun _ _ => rfl)
      split at hb
      · cases hb
      · rename_i hclash
        cases hb
        rw [Bool.or_eq_true, not_or] at hclash
        exact ⟨⟨hrole, hpassword, hemail _ rfl, htag, hphone, by simpa using hclash.1⟩, rfl⟩

/-! ## Updating -/

/-- The checks of `update` let it through, for the user that is there. -/
structure Updatable (env : Env) (c : UpdateCall) (d : Directory) (user : Signup.User) : Prop where
  row : d.users.lookup c.targetUserId = some user
  role : ¬ (c.actorUserId = c.targetUserId ∧
    (patchOf env c.dto user (d.profile c.targetUserId)).role.isSome)
  status : ¬ (c.actorUserId = c.targetUserId ∧
    (patchOf env c.dto user (d.profile c.targetUserId)).status.isSome ∧ c.dto.status ≠ some .active)
  tag : ∀ v, (patchOf env c.dto user (d.profile c.targetUserId)).novaTag.join = some v →
    d.tagTaken (some c.targetUserId) v = false
  phone : ∀ v, (patchOf env c.dto user (d.profile c.targetUserId)).phoneE164.join = some v →
    d.phoneTaken (some c.targetUserId) v = false
  dob : c.dto.dob ≠ some none
  email : ∀ v, (patchOf env c.dto user (d.profile c.targetUserId)).email = some v →
    d.emailTaken (some c.targetUserId) v = false

/-- An update that is accepted writes its patch, any other nothing. -/
theorem update_ensures (c : UpdateCall) (d : Directory) :
    (update env c).Ensures d fun _ d' => d' = d ∨ ∃ user profiles, Updatable env c d user ∧
      d' = d.setUsers (d.users.insert c.targetUserId
        ((patchOf env c.dto user (d.profile c.targetUserId)).user user)) profiles := by
  refine ensures_query ?_
  cases hrow : d.users.lookup c.targetUserId with
  | none => exact Prog.ensures_throw (.inl rfl)
  | some user =>
    simp only [Option.map_some, updateFound]
    split
    · exact Prog.ensures_throw (.inl rfl)
    · rename_i hrole
      split
      · exact Prog.ensures_throw (.inl rfl)
      · rename_i hstatus
        refine ensures_assertFree (fun htag => ?_) fun _ => .inl rfl
        refine ensures_assertFree (fun hphone => ?_) fun _ => .inl rfl
        split
        · exact Prog.ensures_throw (.inl rfl)
        · rename_i hdob
          refine ensures_assertFree (fun hemail => ?_) fun _ => .inl rfl
          split
          · exact Prog.ensures_pure (.inl rfl)
          · refine Prog.ensures_attempt (fun _ d' hb => .inr ?_) fun _ _ => .inl rfl
            rw [hrow] at hb
            dsimp only at hb
            split at hb
            · cases hb
            · cases hb
              exact ⟨user, _, ⟨hrow, hrole, hstatus, htag, hphone, hdob, hemail⟩, rfl⟩

/-! ## Seeding -/

theorem email_new {id u : Uuid} {user x : Signup.User} {profile : Profile}
    (hclash : d.clash id user profile = false) (hx : d.users.lookup u = some x) (hu : u ≠ id) :
    x.email ≠ user.email := by
  intro heq
  rw [Directory.clash, Bool.or_eq_false_iff] at hclash
  have hany := List.any_eq_false.1 hclash.1 ⟨u, x⟩ (Table.mem_entries_iff.2 hx)
  simp [hu, heq] at hany

/-- What the seeding of a user does to the directory. -/
inductive Seeded (env : Env) (i : SeedInput) (d : Directory) : Directory → Prop
  | skipped : Seeded env i d d
  | made {d' : Directory} (hfree : ∀ u x, d.users.lookup u = some x →
        env.sameEmail x.email (JsString.trim i.email) = false)
      (hnew : ∀ u x, d.users.lookup u = some x → u ≠ i.userId → x.email ≠ JsString.trim i.email)
      (husers : d'.users = d.users.insert i.userId (i.user env))
      (hsessions : d'.registry.db.signupSessions = d.registry.db.signupSessions) : Seeded env i d d'

theorem ensureUser_ensures (i : SeedInput) (d : Directory) :
    (ensureUser env i).Ensures d fun _ d' => Seeded env i d d' := by
  refine Prog.ensures_tryCatch (ensures_query ?_)
  split
  · exact Prog.ensures_pure .skipped
  · rename_i hsome
    have hnone : (d.users.findRow fun u => env.sameEmail u.email (JsString.trim i.email)) = none := by
      simpa using hsome
    refine Prog.ensures_attempt (fun _ d' hb => ?_) fun _ _ => Prog.ensures_pure .skipped
    split at hb
    · cases hb
    · rename_i hclash
      cases hb
      refine .made (fun u x hx => Table.findRow_none hnone hx) (fun u x hx hu => ?_) rfl rfl
      simp only [Bool.or_eq_true, not_or] at hclash
      exact email_new (by simpa using hclash.1.1.1.2) hx hu

end Rules

end BankDemo.Users
