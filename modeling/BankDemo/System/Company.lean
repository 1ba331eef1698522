import BankDemo.Store

/-!
# Services in company

Calls of services overlap, and what a call may rely on between its actions is little: the past
stays, and the rows it has locked keep their balances (`rely`). In return its own actions leave
alone what other threads have locked (`Keeps`). The rules here are for services under any
guarantee `G` that lets a thread be idle (`Idles`): they are used for the calls of the transfer
services and for those of the services around them alike.
-/

namespace BankDemo

/-- The accounts locked by thread `i` stay locked by it, with their balances. -/
def Keeps (i : ℕ) (w w' : World) : Prop :=
  ∀ a, w.locks a = some i → w'.locks a = some i ∧ w'.db.balance a = w.db.balance a

theorem Keeps.trans {i : ℕ} {w₁ w₂ w₃ : World} (h : Keeps i w₁ w₂) (h' : Keeps i w₂ w₃) :
    Keeps i w₁ w₃ := by
  intro a ha
  obtain ⟨ha₂, hb₂⟩ := h a ha
  obtain ⟨ha₃, hb₃⟩ := h' a ha₂
  exact ⟨ha₃, hb₃.trans hb₂⟩

theorem keeps_of_eq {i : ℕ} {w w' : World} (hdb : w'.db = w.db) (hlocks : w'.locks = w.locks) :
    Keeps i w w' := by
  intro a ha
  rw [hdb, hlocks]
  exact ⟨ha, rfl⟩

/-- A change of accounts whose rows are free keeps what others have locked. -/
theorem keeps_of_free {i : ℕ} {w : World} {rows : List Uuid} {db' : Db}
    (hfree : w.free i rows = true)
    (hbalance : ∀ x, x ∉ rows → db'.balance x = w.db.balance x) (j : ℕ) (hj : j ≠ i) :
    Keeps j w { w with db := db' } := by
  intro a ha
  refine ⟨ha, hbalance a fun hmem => ?_⟩
  have hlock := List.all_eq_true.1 hfree a hmem
  simp only [ha, Bool.or_eq_true, beq_iff_eq, Option.some.injEq, reduceCtorEq, false_or] at hlock
  exact hj hlock

/-! ## What a thread relies on -/

/-- What thread `i` relies on: the past stays, and what it has locked is kept. -/
def rely (i : ℕ) (h h' : List World) : Prop :=
  (∀ w ∈ h, w ∈ h') ∧
    ∀ w past w' past', h = w :: past → h' = w' :: past' → Keeps i w w'

theorem rely_refl (i : ℕ) (h : List World) : rely i h h := by
  refine ⟨fun w hw => hw, fun w past w' past' hw hw' => ?_⟩
  obtain ⟨rfl, -⟩ := List.cons.inj (hw.symm.trans hw')
  exact keeps_of_eq rfl rfl

theorem rely_trans {i : ℕ} {h₁ h₂ h₃ : List World} (h : rely i h₁ h₂) (h' : rely i h₂ h₃) :
    rely i h₁ h₃ := by
  refine ⟨fun w hw => h'.1 w (h.1 w hw), fun w past w' past' hw hw' => ?_⟩
  cases h₂ with
  | nil =>
    have hmem := h.1 w (by rw [hw]; exact List.mem_cons_self)
    simp at hmem
  | cons w₂ past₂ => exact (h.2 w past w₂ past₂ hw rfl).trans (h'.2 w₂ past₂ w' past' rfl hw')

theorem rely_own {i : ℕ} {w w' : World} {past : List World} (h : Keeps i w w') :
    rely i (w :: past) (w' :: w :: past) := by
  refine ⟨fun x hx => List.mem_cons_of_mem _ hx, fun x px x' px' hx hx' => ?_⟩
  cases hx
  cases hx'
  exact h

/-- The guarantee of thread `i` lets it leave the database as it is, if it also keeps what others
have locked. -/
class Idles (i : ℕ) (G : List World → World → Prop) : Prop where
  idle : ∀ {w w' : World} {past : List World}, w'.db = w.db → (∀ j, j ≠ i → Keeps j w w') →
    G (w :: past) w'

/-! ## Rules for services -/

section Rules

variable {i : ℕ} {G : List World → World → Prop} {h : List World} {α β : Type}

theorem idle_of_eq [Idles i G] {w w' : World} {past : List World} (hdb : w'.db = w.db)
    (hlocks : w'.locks = w.locks) : G (w :: past) w' :=
  Idles.idle (i := i) hdb fun _ _ => keeps_of_eq hdb hlocks

/-- A quiet service, with a demand on the outcome that only needs the history. -/
theorem Quiet.follows [Idles i G] {p : Service α} {Q : List World → Except Error α → Prop}
    (hp : Quiet p) (hQ : ∀ h' r, rely i h h' → Q h' r) : p.Follows (rely i) G Q h :=
  Prog.Each.follows hp (fun _ _ _ hP => idle_of_eq (i := i) hP.1 hP.2) (rely_refl i) rely_trans
    (fun _ _ _ hP => rely_own (keeps_of_eq hP.1 hP.2)) hQ

/-- A quiet service, then more. -/
theorem Quiet.follows_bind [Idles i G] {p : Service α} {k : α → Service β}
    {Q : List World → Except Error β → Prop} (hp : Quiet p)
    (hk : ∀ a h', rely i h h' → (k a).Follows (rely i) G Q h')
    (he : ∀ e h', rely i h h' → Q h' (.error e)) :
    (p >>= k).Follows (rely i) G Q h := by
  refine Prog.follows_bind (hp.follows fun h' r hR => ?_)
  cases r with
  | ok a => exact hk a h' hR
  | error e => exact he e h' hR

/-- A query, then more: what was read is in the history. -/
theorem follows_query [Idles i G] {f : Db → α} {k : α → Service β}
    {Q : List World → Except Error β → Prop}
    (hk : ∀ w past, rely i h (w :: past) →
      (k (f w.db)).Follows (rely i) G Q (w :: w :: past)) :
    (query f >>= k).Follows (rely i) G Q h :=
  Prog.follows_bind (Prog.follows_read fun w past hR =>
    ⟨idle_of_eq (i := i) rfl rfl, hk w past hR⟩)

/-- A transaction: it commits within the guarantee, on the rows it was to update, or nothing
happens. -/
theorem follows_commit [Idles i G] {rows : List Uuid} {body : Tx α}
    {Q : List World → Except Error α → Prop}
    (hok : ∀ w past a db', rely i h (w :: past) → body w.db = .ok (a, db') →
      (∀ x, x ∉ rows → db'.balance x = w.db.balance x) ∧
        ((∀ j, j ≠ i → Keeps j w { w with db := db' }) → G (w :: past) { w with db := db' }) ∧
        Q ({ w with db := db' } :: w :: past) (.ok a))
    (herr : ∀ e h', rely i h h' → Q h' (.error e)) :
    (transaction i rows body).Follows (rely i) G Q h := by
  refine Prog.follows_attempt (fun w past a w' hR hfree hb => ?_) fun w past e hR _ _ => ?_
  · cases hbody : body w.db with
    | error e => simp [hbody] at hb
    | ok r =>
      simp only [hbody, Except.ok.injEq, Prod.mk.injEq] at hb
      obtain ⟨rfl, rfl⟩ := hb
      obtain ⟨hbalance, hG, hQ⟩ := hok w past r.1 r.2 hR hbody
      exact ⟨hG (keeps_of_free hfree hbalance), hQ⟩
  · exact ⟨idle_of_eq (i := i) rfl rfl, herr e _ (rely_trans hR (rely_own (keeps_of_eq rfl rfl)))⟩

/-! What was known of the past is still true: a guarantee may be shown with it at hand. -/

instance [Idles i G] {h₀ : List World} :
    Idles i fun h w => (∀ v ∈ h₀, v ∈ h) → G h w where
  idle := fun hdb hkeeps _ => Idles.idle (i := i) hdb hkeeps

theorem follows_recall {Q : List World → Except Error α → Prop} {p : Service α}
    {h₀ : List World}
    (hp : p.Follows (rely i) (fun h w => (∀ v ∈ h₀, v ∈ h) → G h w) Q h)
    (hh : ∀ v ∈ h₀, v ∈ h) : p.Follows (rely i) G Q h := by
  induction p generalizing h with
  | ret a => exact hp
  | fail e => exact hp
  | act ready eff next ih =>
    intro w past hR hready
    obtain ⟨hG, hnext⟩ := hp w past hR hready
    have hh' : ∀ v ∈ h₀, v ∈ w :: past := fun v hv => hR.1 v (hh v hv)
    exact ⟨hG hh', ih w hnext fun v hv => List.mem_cons_of_mem _ (hh' v hv)⟩

/-! The lock of an account row. -/

/-- Thread `i` holds the lock on `a` now. -/
def Holds (i : ℕ) (a : Uuid) (h : List World) : Prop :=
  ∃ w past, h = w :: past ∧ w.locks a = some i

theorem Holds.rely {a : Uuid} {h : List World} {w : World} {past : List World} (hh : Holds i a h)
    (hR : rely i h (w :: past)) : w.locks a = some i := by
  obtain ⟨w₀, past₀, rfl, hlock⟩ := hh
  exact (hR.2 w₀ past₀ w past rfl rfl a hlock).1

/-- The end of the transaction of the thread that holds the lock. -/
theorem unlock_follows [Idles i G] {a : Uuid} {k : Unit → Service α}
    {Q : List World → Except Error α → Prop} (hh : Holds i a h)
    (hk : ∀ h', (∀ w ∈ h, w ∈ h') → (k ()).Follows (BankDemo.rely i) G Q h') :
    (unlockAccount a >>= k).Follows (BankDemo.rely i) G Q h := by
  refine Prog.follows_bind (Prog.follows_modify fun w past hR _ => ⟨?_, ?_⟩)
  · refine Idles.idle (i := i) rfl fun j hj b hb => ?_
    have hne : b ≠ a := by
      rintro rfl
      rw [hh.rely hR] at hb
      exact hj (Option.some.inj hb).symm
    exact ⟨(Function.update_of_ne hne _ _).trans hb, rfl⟩
  · exact hk _ fun x hx => List.mem_cons_of_mem _ (hR.1 x hx)

/-- The lock is held by no other thread when it is taken. -/
theorem withLock_follows [Idles i G] {a : Uuid} {body : Service α}
    {Q : List World → Except Error α → Prop}
    (hQ : ∀ h h' r, (∀ w ∈ h, w ∈ h') → Q h r → Q h' r)
    (hbody : ∀ h', (∀ w ∈ h, w ∈ h') → Holds i a h' →
      body.Follows (BankDemo.rely i) G (fun h r => Holds i a h ∧ Q h r) h') :
    (withLock i a body).Follows (BankDemo.rely i) G Q h := by
  refine Prog.follows_bind (Prog.follows_modify fun w past hR hfree => ⟨?_, ?_⟩)
  · refine Idles.idle (i := i) rfl fun j hj b hb => ?_
    have hne : b ≠ a := by
      rintro rfl
      simp only [World.free, List.all_cons, List.all_nil, hb, Bool.and_true, Bool.or_eq_true,
        beq_iff_eq, Option.some.injEq, reduceCtorEq, false_or] at hfree
      exact hj hfree
    exact ⟨(Function.update_of_ne hne _ _).trans hb, rfl⟩
  · refine Prog.follows_bind (Prog.follows_tryCatch ((hbody _ ?_ ?_).imp fun h' r hr => ?_))
    · exact fun x hx => List.mem_cons_of_mem _ (hR.1 x hx)
    · exact ⟨_, _, rfl, Function.update_self _ _ _⟩
    · cases r with
      | ok x =>
        exact unlock_follows hr.1 fun h'' hh => Prog.follows_pure (hQ _ _ _ hh hr.2)
      | error e =>
        exact unlock_follows hr.1 fun h'' hh => Prog.follows_throw (hQ _ _ _ hh hr.2)

end Rules

end BankDemo
