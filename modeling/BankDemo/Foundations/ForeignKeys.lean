import BankDemo.Foundations.Prog

/-!
# Foreign keys

Databases `δ` whose rows refer to others by their keys `κ`: a relation `r : ρ` is a column, and
`refs r db` is what it holds in the database `db`. Where no action is declared for it, a required
relation forbids the deletion of a row that it still refers to (`restricts`, `referenced`).

* `restricts_eq_false`: a deletion is allowed when each of the relations is clear of its rows.
* `Clear.fewer`: what is clear stays clear as long as references only go (`Fewer`).
* `commits_bind` and the rules beside it: a script of such statements goes through when each of
  them does where the one before has left the database.
-/

namespace BankDemo

namespace ForeignKeys

variable {δ ρ κ ε α β : Type} (refs : ρ → δ → List κ)

/-! ## References -/

/-- One of the relations refers to a row that is to go. -/
def restricts (relations : List ρ) (gone : κ → Bool) (db : δ) : Bool :=
  relations.any fun r => (refs r db).any gone

/-- The relation refers to none of the rows that are to go. -/
def Clear (r : ρ) (gone : κ → Bool) (db : δ) : Prop := ∀ id ∈ refs r db, gone id = false

/-- From `db` to `db'` references have only gone. -/
def Fewer (db db' : δ) : Prop := ∀ r, refs r db' ⊆ refs r db

variable {refs} {relations : List ρ} {gone : κ → Bool} {db db' db'' : δ}

theorem restricts_eq_false : restricts refs relations gone db = false ↔
    ∀ r ∈ relations, Clear refs r gone db := by
  simp [restricts, Clear]

theorem Fewer.refl (db : δ) : Fewer refs db db := fun _ => List.Subset.refl _

theorem Fewer.trans (h : Fewer refs db db') (h' : Fewer refs db' db'') : Fewer refs db db'' :=
  fun r => List.Subset.trans (h' r) (h r)

theorem Clear.fewer {r : ρ} (hclear : Clear refs r gone db) (h : Fewer refs db db') :
    Clear refs r gone db' :=
  fun id hid => hclear id (h r hid)

/-- Fewer rows are to go. -/
theorem Clear.imp {r : ρ} {gone' : κ → Bool} (hclear : Clear refs r gone db)
    (h : ∀ id, gone' id = true → gone id = true) : Clear refs r gone' db := by
  intro id hid
  by_contra hgone
  have hfalse := hclear id hid
  rw [h id (by simpa using hgone)] at hfalse
  cases hfalse

/-! ## Statements -/

/-- A statement that the relations forbid as long as one of them refers to a row it would take. -/
def referenced (refs : ρ → δ → List κ) (relations : List ρ) (violation : ε) (gone : δ → κ → Bool)
    (statement : StateT δ (Except ε) α) : StateT δ (Except ε) α := fun db =>
  if restricts refs relations (gone db) db then .error violation else statement db

/-- The script goes through, and leaves a result and a database as `Q` says. -/
def Commits (x : StateT δ (Except ε) α) (db : δ) (Q : α → δ → Prop) : Prop :=
  ∃ a db', x db = .ok (a, db') ∧ Q a db'

theorem referenced_ok {violation : ε} {gone : δ → κ → Bool} {statement : StateT δ (Except ε) α}
    {r : α × δ} (h : referenced refs relations violation gone statement db = .ok r) :
    (∀ k ∈ relations, Clear refs k (gone db) db) ∧ statement db = .ok r := by
  unfold referenced at h
  split at h
  · cases h
  · rename_i hallowed
    exact ⟨restricts_eq_false.1 (by simpa using hallowed), h⟩

theorem commits_referenced {violation : ε} {gone : δ → κ → Bool}
    {statement : StateT δ (Except ε) α} {Q : α → δ → Prop}
    (hclear : ∀ k ∈ relations, Clear refs k (gone db) db) (h : Commits statement db Q) :
    Commits (referenced refs relations violation gone statement) db Q := by
  have hrun : referenced refs relations violation gone statement db = statement db := by
    simp only [referenced, restricts_eq_false.2 hclear, Bool.false_eq_true, if_false]
  unfold Commits
  rw [hrun]
  exact h

theorem commits_pure {a : α} {Q : α → δ → Prop} (h : Q a db) :
    Commits (pure a : StateT δ (Except ε) α) db Q :=
  ⟨a, db, rfl, h⟩

theorem commits_bind {x : StateT δ (Except ε) α} {f : α → StateT δ (Except ε) β}
    {Q : β → δ → Prop} (h : Commits x db fun a db' => Commits (f a) db' Q) :
    Commits (x >>= f) db Q := by
  obtain ⟨a, db₁, hx, b, db₂, hf, hQ⟩ := h
  exact ⟨b, db₂, Prog.body_bind_ok.2 ⟨a, db₁, hx, hf⟩, hQ⟩

theorem Commits.imp {x : StateT δ (Except ε) α} {Q Q' : α → δ → Prop} (h : Commits x db Q)
    (hQ : ∀ a db', Q a db' → Q' a db') : Commits x db Q' := by
  obtain ⟨a, db', hx, hq⟩ := h
  exact ⟨a, db', hx, hQ a db' hq⟩

end ForeignKeys

end BankDemo
