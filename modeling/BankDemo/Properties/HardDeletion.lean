import BankDemo.Admin.Deletion
import BankDemo.Admin.Rules
import BankDemo.Auth.Recovery
import BankDemo.Properties.UserDeletion

/-!
# Deletions that are confirmed but fail

The rows that refer to a user are deleted by hand, and the password resets were forgotten: a user who
once asked for one cannot be deleted any more (`recovery_forbids_deletion`).

* `hardDelete_commits_iff`: in every state reached, a confirmed deletion goes through exactly when no
  password reset refers to the user.

What else could forbid a deletion is a session of another user on a device of the user. `Reached`
collects the states that any writes lead to, as long as sessions are made by signing in: on a device
that was found, or registered, for the user who signs in. In these there is none (`reached_own`).
-/

namespace BankDemo

open Admin

/-- The states reached, with the devices that the sign-ins under way go by: the user of each, and the
device. -/
inductive Reached : Db → List (Uuid × Uuid) → Prop
  | start {db : Db} (hnone : db.sessions = ∅) : Reached db []
  /-- `upsertOnLogin` finds the user's device. -/
  | finds {db : Db} {known : List (Uuid × Uuid)} (userId deviceId : Uuid) (h : Reached db known)
      (hdevice : db.owned.lookup (.device, deviceId) = some userId) :
      Reached db ((userId, deviceId) :: known)
  /-- `upsertOnLogin` registers a device for the user, under an id that was never drawn before. -/
  | registers {db : Db} {known : List (Uuid × Uuid)} (userId deviceId : Uuid) (h : Reached db known)
      (hknown : ∀ u, (u, deviceId) ∉ known)
      (hsessions : ∀ id s, db.sessions.lookup id = some s → s.deviceId ≠ deviceId) :
      Reached { db with owned := db.owned.insert (.device, deviceId) userId }
        ((userId, deviceId) :: known)
  /-- `issueSession` makes the session of a sign-in. -/
  | signsIn {db : Db} {known : List (Uuid × Uuid)} (userId deviceId sessionId : Uuid)
      (h : Reached db known) (hknown : (userId, deviceId) ∈ known) :
      Reached { db with sessions := db.sessions.insert sessionId ⟨userId, deviceId⟩ } known
  /-- Any other write: on any tables, with no new device or session. -/
  | writes {db db' : Db} {known : List (Uuid × Uuid)} (h : Reached db known)
      (hsessions : ∀ id s, db'.sessions.lookup id = some s → db.sessions.lookup id = some s)
      (hdevices : ∀ id u, db'.owned.lookup (.device, id) = some u →
        db.owned.lookup (.device, id) = some u) : Reached db' known

/-- What a sign-in goes by stays true of the device, as long as there is one. -/
theorem reached_known {db : Db} {known : List (Uuid × Uuid)} (h : Reached db known) :
    ∀ x ∈ known, ∀ u, db.owned.lookup (.device, x.2) = some u → u = x.1 := by
  induction h with
  | start _ => exact fun x hx => absurd hx List.not_mem_nil
  | finds userId deviceId _ hdevice ih =>
    intro x hx u hu
    rcases List.mem_cons.1 hx with rfl | hx
    · exact Option.some.inj (hu.symm.trans hdevice)
    · exact ih x hx u hu
  | registers userId deviceId _ hknown _ ih =>
    intro x hx u hu
    rw [Table.lookup_insert_ite] at hu
    split at hu
    · rename_i heq
      obtain ⟨-, hid⟩ := Prod.mk.inj heq
      obtain rfl := Option.some.inj hu
      rcases List.mem_cons.1 hx with rfl | hold
      · rfl
      · obtain ⟨v, id⟩ := x
        dsimp only at hid
        subst hid
        exact absurd hold (hknown v)
    · rename_i hne
      rcases List.mem_cons.1 hx with rfl | hx
      · exact absurd rfl hne
      · exact ih x hx u hu
  | signsIn userId deviceId sessionId _ _ ih => exact ih
  | writes _ _ hdevices ih => exact fun x hx u hu => ih x hx u (hdevices _ u hu)

/-- **Sessions are on devices of their own users** in every state reached. -/
theorem reached_own {db : Db} {known : List (Uuid × Uuid)} (h : Reached db known) :
    OwnDevices db := by
  induction h with
  | start hnone =>
    intro id s owner hs
    rw [hnone] at hs
    cases hs
  | finds _ _ _ _ ih => exact ih
  | registers userId deviceId _ _ hsessions ih =>
    intro id s owner hs howner
    rw [Table.lookup_insert_ite, if_neg fun heq => hsessions id s hs (Prod.mk.inj heq).2] at howner
    exact ih id s owner hs howner
  | signsIn userId deviceId sessionId h hknown ih =>
    intro id s owner hs howner
    rw [Table.lookup_insert_ite] at hs
    split at hs
    · obtain rfl := Option.some.inj hs
      exact (reached_known h _ hknown owner howner).symm
    · exact ih id s owner hs howner
  | writes _ hsessions hdevices ih =>
    exact fun id s owner hs howner => ih id s owner (hsessions id s hs) (hdevices _ owner howner)

/-- A request for a recovery is among the writes. -/
theorem reached_request {w : World} {known : List (Uuid × Uuid)} (h : Reached w.db known)
    (env : Recovery.Env) (me : ℕ) (c : Recovery.RequestCall) :
    Reached ((Recovery.request env me c).run w).2.db known := by
  obtain ⟨_, hw⟩ := Recovery.request_ensures env me c w
  rw [hw]
  exact .writes h (fun _ _ hs => hs) fun _ _ hu => hu

/-- A confirmed deletion is its transaction. -/
theorem run_confirmed {toLowerCase : String → String} {me : ℕ} {c : HardDeleteCall} {w : World}
    {target : User} (htarget : w.db.users.lookup c.targetUserId = some target)
    (hc : Confirmed toLowerCase c target) :
    (hardDelete toLowerCase me c).run w =
      (transaction me (accountsOf c.targetUserId w.db)
        (hardDeleteTx c.targetUserId target.email (accountsOf c.targetUserId w.db))).run w := by
  have hrole : ¬ (c.actorRole ≠ .admin ∧ c.actorRole ≠ .superadmin) := fun h =>
    hc.role.elim h.1 h.2
  have hgiven : ¬ (toLowerCase (JsString.trim c.confirmation) = "" ∨
      toLowerCase (JsString.trim c.confirmation) ≠ toLowerCase (JsString.trim target.email)) :=
    fun h => h.elim hc.given fun hne => hne hc.same
  unfold hardDelete
  rw [if_neg hrole, if_neg hc.other, Prog.run_bind]
  simp only [query, Prog.run_read, htarget, deleteFound]
  rw [if_neg (by simp [hc.may]), if_neg hgiven, Prog.run_bind]
  rfl

/-- **Confirmed deletions of users.** In every state reached, whoever asks for the deletion of a
user and passes the checks on the role, the target and the confirmation gets it exactly when no
password reset refers to the user. -/
theorem hardDelete_commits_iff (toLowerCase : String → String) (me : ℕ) (c : HardDeleteCall)
    (w : World) (known : List (Uuid × Uuid)) (hreached : Reached w.db known) (target : User)
    (htarget : w.db.users.lookup c.targetUserId = some target) (hc : Confirmed toLowerCase c target) :
    (∃ counts w', (hardDelete toLowerCase me c).run w = (.ok counts, w')) ↔
      ∀ id r, w.db.passwordResets.lookup id = some r → r.userId ≠ c.targetUserId := by
  constructor
  · rintro ⟨counts, w', hrun⟩
    obtain ⟨email, htx⟩ := hardDelete_run hrun
    exact (hardDeleteTx_ok htx).2.2
  · intro hresets
    have hclear : ForeignKeys.Clear refs .passwordResetUser (fun id => id = c.targetUserId) w.db := by
      simp only [ForeignKeys.Clear, refs]
      intro x hx
      obtain ⟨id, r, hr, howner⟩ := Table.mem_values.1 hx
      obtain rfl := Option.some.inj howner
      exact decide_eq_false (hresets id r hr)
    have hcommits : ForeignKeys.Commits (hardDeleteTx c.targetUserId target.email
        (accountsOf c.targetUserId w.db)) w.db fun _ _ => True :=
      hardDeleteTx_commits (reached_own hreached) (by rw [htarget]; rfl) hclear
    obtain ⟨counts, db, htx, -⟩ := hcommits
    refine ⟨counts, { w with db }, ?_⟩
    rw [run_confirmed htarget hc, transaction, Prog.run_attempt, htx]

/-- The recovery service of the samples. -/
def sampleRecovery : Recovery.Env where
  ttlSec := 600
  toLowerCase s := String.ofList (s.toList.map Char.toLower)
  hashEmail s := s!"hmac:{s}"
  argonHash salt s := s!"argon:{salt}:{s}"

/-- Bob has forgotten his password. -/
def sampleRequest : Recovery.RequestCall := ⟨"Bob@example.org", 70, "123456", 0, 0⟩

/-- The bank after Bob has asked for a recovery. -/
def recoveryWorld : World := ((Recovery.request sampleRecovery 0 sampleRequest).run sampleWorld).2

theorem reached_sampleWorld : Reached sampleWorld.db [] := .start rfl

theorem sample_bob : sampleWorld.db.users.lookup sampleDeletion.targetUserId =
    some ⟨"bob@example.org", some "Bob", none, none, .customer, false, none⟩ := rfl

theorem sample_confirmed : Confirmed sampleRecovery.toLowerCase sampleDeletion
    ⟨"bob@example.org", some "Bob", none, none, .customer, false, none⟩ :=
  ⟨.inl rfl, by decide, by decide, by decide +kernel, by decide +kernel⟩

/-- Bob, who has asked for nothing, can be deleted. -/
theorem hardDelete_commits_sample :
    ∃ counts w', (hardDelete sampleRecovery.toLowerCase 0 sampleDeletion).run sampleWorld =
      (.ok counts, w') :=
  (hardDelete_commits_iff _ 0 sampleDeletion sampleWorld [] reached_sampleWorld _ sample_bob
    sample_confirmed).2 fun _ _ hr => by cases hr

/-- Bob has asked for a recovery, and cannot be deleted any more. -/
theorem recovery_forbids_deletion :
    ¬ ∀ (toLowerCase : String → String) (me : ℕ) (c : HardDeleteCall) (w : World)
        (known : List (Uuid × Uuid)), Reached w.db known →
        ∀ (target : User), w.db.users.lookup c.targetUserId = some target →
        Confirmed toLowerCase c target →
        ∃ counts w', (hardDelete toLowerCase me c).run w = (.ok counts, w') := by
  intro h
  have hrefused : ((hardDelete sampleRecovery.toLowerCase 0 sampleDeletion).run
      recoveryWorld).1.toBool = false := by
    decide +kernel
  obtain ⟨counts, w', hrun⟩ := h sampleRecovery.toLowerCase 0 sampleDeletion recoveryWorld []
    (reached_request reached_sampleWorld _ _ _) _ rfl sample_confirmed
  rw [hrun] at hrefused
  cases hrefused

end BankDemo
