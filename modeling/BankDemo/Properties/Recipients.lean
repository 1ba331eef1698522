import BankDemo.Properties.PayNotices

/-!
# One recipient

`resolveRecipient` tries its rules in order, and each rule takes the first row that it finds. The rules
for an identifier and a tag go by unique columns; the rule for addresses ignores case, and that for
phone numbers goes by the last digits. So a user is returned whenever one matches
(`resolveRecipient_decides`), and more than one may: what the input must be for the answer to be
unambiguous is that only one does (`recipient_unambiguous`).
-/

namespace BankDemo.Pay

open Transfers Prog

/-! ## The rules -/

/-- The form selects the rule for e-mail addresses. -/
def EmailForm (raw : String) : Prop := raw.toList.contains '@' ∧ ¬ JsString.startsWith raw "@"

/-- The rules that the form of what was typed selects, and the users they are about. -/
inductive Matches (env : PayEnv) (raw : String) (id : Uuid) (u : User) : Prop
  | uuid (h : env.parseUuid raw = some id)
  | tag (h : u.novaTag = some (tagOf raw))
  | email (hform : EmailForm raw) (h : env.sameEmail u.email raw = true)
  | phone (hform : 7 ≤ (JsString.digits raw).length)
      (h : (u.phoneE164.any fun phone =>
        (JsString.digits raw).toList.isSuffixOf phone.toList) = true)

/-- A user whom the input matches. -/
structure IsMatch (env : PayEnv) (w : World) (handleOrId : String) (x : Uuid × User) : Prop where
  row : w.db.users.lookup x.1 = some x.2
  typed : JsString.trim handleOrId ≠ ""
  rule : Matches env (JsString.trim handleOrId) x.1 x.2

/-- The outcome is a user of whom `p` holds, or there is none. -/
def Decides (w : World) (p : Uuid → User → Prop) : Except Error (Uuid × User) → Prop
  | .ok x => w.db.users.lookup x.1 = some x.2 ∧ p x.1 x.2
  | .error _ => ∀ id u, w.db.users.lookup id = some u → ¬ p id u

variable {env : PayEnv} {w : World} {p q : Uuid → User → Prop}

theorem Decides.congr {r : Except Error (Uuid × User)} (h : Decides w p r)
    (hpq : ∀ id u, w.db.users.lookup id = some u → (p id u ↔ q id u)) : Decides w q r := by
  cases r with
  | ok x => exact ⟨h.1, (hpq _ _ h.1).1 h.2⟩
  | error e => exact fun id u hu hq => h id u hu ((hpq id u hu).2 hq)

/-- No user is left. -/
theorem decides_throw {e : Error} :
    (throw e : Service (Uuid × User)).Ensures w fun r _ => Decides w (fun _ _ => False) r :=
  ensures_throw fun _ _ _ h => h

/-- A rule by a column, then the other rules. -/
theorem decides_find {found : User → Bool} {next : Service (Uuid × User)}
    (hnext : next.Ensures w fun r _ => Decides w p r) :
    (match w.db.users.findRow found with | some x => pure x | none => next).Ensures w fun r _ =>
      Decides w (fun id u => found u = true ∨ p id u) r := by
  cases hfound : w.db.users.findRow found with
  | some x =>
    obtain ⟨hrow, hp⟩ := Table.findRow_some hfound
    exact ensures_pure ⟨hrow, .inl hp⟩
  | none =>
    refine hnext.imp fun r s' h => h.congr fun id u hu => ?_
    simp [Table.findRow_none hfound hu]

/-- A rule that the form of the input selects, then the other rules. -/
theorem decides_rule {form : Prop} [Decidable form] {found : User → Bool}
    {next : Service (Uuid × User)} (hnext : next.Ensures w fun r _ => Decides w p r) :
    (if form then query (fun db => db.users.findRow found) >>= fun x =>
        (match x with | some x => pure x | none => next : Service (Uuid × User))
      else next).Ensures w fun r _ => Decides w (fun id u => (form ∧ found u = true) ∨ p id u) r := by
  by_cases hform : form
  · rw [if_pos hform]
    refine ensures_query ((decides_find hnext).imp fun r _ h => h.congr fun _ _ _ => ?_)
    simp [hform]
  · rw [if_neg hform]
    refine hnext.imp fun r _ h => h.congr fun _ _ _ => ?_
    simp [hform]

/-- The user has the address or the phone number that was typed. -/
def ByContact (env : PayEnv) (raw : String) (u : User) : Prop :=
  (EmailForm raw ∧ env.sameEmail u.email raw = true) ∨
    (7 ≤ (JsString.digits raw).length ∧ (u.phoneE164.any fun phone =>
      (JsString.digits raw).toList.isSuffixOf phone.toList) = true)

theorem matches_iff {raw : String} {id : Uuid} {u : User} : Matches env raw id u ↔
    env.parseUuid raw = some id ∨ u.novaTag = some (tagOf raw) ∨ ByContact env raw u := by
  constructor
  · intro h
    cases h with
    | uuid h => exact .inl h
    | tag h => exact .inr (.inl h)
    | email hform h => exact .inr (.inr (.inl ⟨hform, h⟩))
    | phone hform h => exact .inr (.inr (.inr ⟨hform, h⟩))
  · rintro (h | h | ⟨hform, h⟩ | ⟨hform, h⟩)
    · exact .uuid h
    · exact .tag h
    · exact .email hform h
    · exact .phone hform h

theorem resolveByContact_decides (raw : String) :
    (resolveByContact env raw).Ensures w fun r _ => Decides w (fun _ u => ByContact env raw u) r := by
  unfold resolveByContact
  -- without a rule, what is left is the next rule
  simp only [pure_bind]
  refine (decides_rule (decides_rule decides_throw)).imp fun r _ h => h.congr fun _ _ _ => ?_
  rw [or_false]
  rfl

/-- The answer is a match, and an error says that there is none. -/
theorem resolveRecipient_decides (handleOrId : String) :
    (resolveRecipient env handleOrId).Ensures w fun r _ =>
      Decides w (fun id u => IsMatch env w handleOrId (id, u)) r := by
  unfold resolveRecipient
  simp only
  rcases eq_or_ne (JsString.trim handleOrId) "" with hraw | hraw
  · rw [if_pos hraw]
    exact ensures_throw fun id u _ h => h.typed hraw
  rw [if_neg hraw]
  have hmatch : ∀ id u, w.db.users.lookup id = some u →
      (Matches env (JsString.trim handleOrId) id u ↔ IsMatch env w handleOrId (id, u)) :=
    fun id u hu => ⟨fun h => ⟨hu, hraw, h⟩, fun h => h.rule⟩
  generalize JsString.trim handleOrId = raw at hmatch
  -- the rules after that for identifiers
  have htag : (query (fun db => db.users.findRow fun u => u.novaTag = some (tagOf raw)) >>= fun x =>
      (match x with
        | some found => pure found
        | none => resolveByContact env raw : Service (Uuid × User))).Ensures w fun r _ =>
      Decides w (fun _ u => u.novaTag = some (tagOf raw) ∨ ByContact env raw u) r := by
    refine ensures_query ((decides_find (resolveByContact_decides raw)).imp fun r _ h =>
      h.congr fun _ _ _ => ?_)
    rw [decide_eq_true_eq]
  cases hid : env.parseUuid raw with
  | none =>
    simp only [pure_bind]
    refine htag.imp fun r _ h => h.congr fun id u hu => ?_
    rw [← hmatch id u hu, matches_iff, hid]
    simp
  | some id =>
    refine ensures_query ?_
    cases hrow : w.db.users.lookup id with
    | some u => exact ensures_pure ⟨hrow, (hmatch id u hrow).1 (.uuid hid)⟩
    | none =>
      simp only [Option.map_none]
      refine htag.imp fun r _ h => h.congr fun id' u hu => ?_
      have hne : id ≠ id' := by
        rintro rfl
        rw [hrow] at hu
        cases hu
      rw [← hmatch id' u hu, matches_iff, hid]
      simp [hne]

/-! ## The answer is unambiguous -/

/-- Whoever is returned is the only match, and if there are several nobody is. -/
structure Unambiguous (env : PayEnv) (w : World) (handleOrId : String) : Prop where
  only : ∀ x, ((resolveRecipient env handleOrId).run w).1 = .ok x →
    ∀ y, IsMatch env w handleOrId y → y.1 = x.1
  refuses : ∀ x y, IsMatch env w handleOrId x → IsMatch env w handleOrId y → x.1 ≠ y.1 →
    ∃ e, ((resolveRecipient env handleOrId).run w).1 = .error e

/-- **One recipient**: the answer is unambiguous if and only if at most one user matches the input. -/
theorem recipient_unambiguous (env : PayEnv) (w : World) (handleOrId : String) :
    Unambiguous env w handleOrId ↔
      ∀ x y, IsMatch env w handleOrId x → IsMatch env w handleOrId y → x.1 = y.1 := by
  have hdecides := @resolveRecipient_decides env w handleOrId
  unfold Prog.Ensures at hdecides
  constructor
  · intro h x y hx hy
    cases hrun : ((resolveRecipient env handleOrId).run w).1 with
    | ok found => exact (h.only found hrun x hx).trans (h.only found hrun y hy).symm
    | error e =>
      rw [hrun] at hdecides
      exact absurd hx (hdecides x.1 x.2 hx.row)
  · intro honly
    refine ⟨fun x hx y hy => ?_, fun x y hx hy hne => absurd (honly x y hx hy) hne⟩
    rw [hx] at hdecides
    exact honly y x hy hdecides.2

/-- Two users whose numbers end in the same seven digits. -/
def sampleUsers : Table Uuid User :=
  ((∅ : Table Uuid User).insert 1
    ⟨"ann@example.org", some "Ann", none, none, .customer, false, some "+12021234567"⟩).insert 2
    ⟨"bob@example.org", some "Bob", none, none, .customer, false, some "+13031234567"⟩

def sampleDirectory : World := { sampleWorld with db := { sampleDb with users := sampleUsers } }

/-- Seven digits that two numbers end in are taken for one of the users. -/
theorem digits_ambiguous : ¬ ∀ (env : PayEnv) (w : World) (handleOrId : String),
    Unambiguous env w handleOrId := by
  intro h
  have hmatch : ∀ id u, sampleUsers.lookup id = some u →
      (u.phoneE164.any fun phone =>
        (JsString.digits (JsString.trim "123 4567")).toList.isSuffixOf phone.toList) = true →
      IsMatch samplePayEnv sampleDirectory "123 4567" (id, u) :=
    fun id u hu hphone => ⟨hu, by decide, .phone (by decide) hphone⟩
  obtain ⟨e, he⟩ := (h samplePayEnv sampleDirectory "123 4567").refuses (1, _) (2, _)
    (hmatch 1 _ rfl (by decide)) (hmatch 2 _ rfl (by decide)) (by decide)
  have hok : ((resolveRecipient samplePayEnv "123 4567").run sampleDirectory).1 = .ok (2, ⟨
      "bob@example.org", some "Bob", none, none, .customer, false, some "+13031234567"⟩) := by decide
  rw [hok] at he
  cases he

end BankDemo.Pay
