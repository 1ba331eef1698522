import Mathlib.Data.List.Basic

/-!
# Programs of atomic actions

A request handler that talks to a database is a sequence of atomic actions on a shared state,
with local computation in between: a query, a statement, a transaction. `Prog σ ε α` is such a
handler with shared state `σ`, errors `ε` and result `α`. Between two actions of a program, other
programs may act; an action may also have to wait (for a row lock) until the state is `ready`.

Two readings of a program are used:

* `Prog.run`, the program alone: all its actions in one go, which is what "modelled as one atomic
  step" means for a whole handler, and `Prog.Ensures`, what it then leads to;
* `Prog.Follows`, the program in company: whatever the others do between its actions, as far as
  the relation `R` on histories allows it, each of its actions satisfies `G` and its outcome
  satisfies `Q`. A history is the list of the states so far, the current one first, so `G` and
  `Q` can speak about what was read earlier.

`Prog.Upholds` is the second reading where only two states matter, the one found and the one left, and
`Prog.Keeps` that for an invariant.
Programs whose errors leave no change behind (`Prog.FailsClean`) are told apart too, and
`Prog.Begins` is for guarantees that refer to what a program found when it began. `Prog.Does` is for
guarantees that refer to a program's own actions so far, and to these only.

`Prog.zoom` runs a program on a part of a larger state. The interleavings themselves are in
`Foundations/Interleave.lean`.
-/

namespace BankDemo

/-- Programs of atomic actions on a shared state. `act ready eff next` waits until `ready`,
changes the state by `eff` and goes on as `next` says, both from the state found. -/
inductive Prog (σ ε α : Type) where
  | ret (a : α)
  | fail (e : ε)
  | act (ready : σ → Bool) (eff : σ → σ) (next : σ → Prog σ ε α)

namespace Prog

variable {σ ε α β : Type}

/-- Go on with `k` on the result; an error ends the program. -/
def bind : Prog σ ε α → (α → Prog σ ε β) → Prog σ ε β
  | .ret a, k => k a
  | .fail e, _ => .fail e
  | .act ready eff next, k => .act ready eff fun s => (next s).bind k

/-- Handle an error by `k`. -/
def handle : Prog σ ε α → (ε → Prog σ ε α) → Prog σ ε α
  | .ret a, _ => .ret a
  | .fail e, k => k e
  | .act ready eff next, k => .act ready eff fun s => (next s).handle k

instance : Monad (Prog σ ε) where
  pure := .ret
  bind := bind

theorem bind_ret (p : Prog σ ε α) : p.bind .ret = p := by
  induction p with
  | ret a => rfl
  | fail e => rfl
  | act ready eff next ih => exact congrArg (Prog.act ready eff) (funext ih)

theorem bind_bind {γ : Type} (p : Prog σ ε α) (k : α → Prog σ ε β) (l : β → Prog σ ε γ) :
    (p.bind k).bind l = p.bind fun a => (k a).bind l := by
  induction p with
  | ret a => rfl
  | fail e => rfl
  | act ready eff next ih => exact congrArg (Prog.act ready eff) (funext ih)

instance : LawfulMonad (Prog σ ε) :=
  LawfulMonad.mk' (Prog σ ε) bind_ret (fun _ _ => rfl) bind_bind

instance : MonadExcept ε (Prog σ ε) where
  throw := .fail
  tryCatch := handle

/-- Read the state. -/
def read (f : σ → α) : Prog σ ε α := .act (fun _ => true) id fun s => .ret (f s)

/-- Change the state, once `ready`. -/
def modify (ready : σ → Bool) (f : σ → σ) : Prog σ ε Unit := .act ready f fun _ => .ret ()

/-- A fallible action, once `ready`: an error leaves the state as it was. -/
def attempt (ready : σ → Bool) (body : σ → Except ε (α × σ)) : Prog σ ε α :=
  .act ready (fun s => match body s with | .ok r => r.2 | .error _ => s)
    fun s => match body s with | .ok r => .ret r.1 | .error e => .fail e

/-- A computation without an action. -/
def lift : Except ε α → Prog σ ε α
  | .ok a => .ret a
  | .error e => .fail e

/-- The outcome of a program that has ended. -/
def result : Prog σ ε α → Option (Except ε α)
  | .ret a => some (.ok a)
  | .fail e => some (.error e)
  | .act _ _ _ => none

/-! ## Bodies of transactions

The body of a transaction is a computation on the state that may fail. -/

theorem body_bind_ok {x : StateT σ (Except ε) α} {f : α → StateT σ (Except ε) β} {s : σ}
    {r : β × σ} : (x >>= f) s = .ok r ↔ ∃ a s₁, x s = .ok (a, s₁) ∧ f a s₁ = .ok r := by
  simp only [Bind.bind, StateT.bind, Except.bind]
  cases h : x s with
  | error e => simp
  | ok p => exact ⟨fun hf => ⟨p.1, p.2, rfl, hf⟩, by rintro ⟨a, s₁, hp, hf⟩; cases hp; exact hf⟩

theorem body_pure_ok {a : α} {s : σ} {r : α × σ} :
    (pure a : StateT σ (Except ε) α) s = .ok r ↔ r = (a, s) := by
  show Except.ok (a, s) = .ok r ↔ r = (a, s)
  rw [Except.ok.injEq]
  exact eq_comm

theorem body_throw_ok {e : ε} {s : σ} {r : α × σ} :
    (throw e : StateT σ (Except ε) α) s ≠ .ok r := by
  simp [throw, throwThe, MonadExceptOf.throw, StateT.lift, Bind.bind, Except.bind]

/-! ## A program alone -/

/-- All the actions of a program, one after the other: its outcome and the state it leaves. -/
def run : Prog σ ε α → σ → Except ε α × σ
  | .ret a, s => (.ok a, s)
  | .fail e, s => (.error e, s)
  | .act _ eff next, s => (next s).run (eff s)

@[simp] theorem run_pure (a : α) (s : σ) : (pure a : Prog σ ε α).run s = (.ok a, s) := rfl

@[simp] theorem run_throw (e : ε) (s : σ) : (throw e : Prog σ ε α).run s = (.error e, s) := rfl

@[simp] theorem run_read (f : σ → α) (s : σ) : (read f : Prog σ ε α).run s = (.ok (f s), s) := rfl

@[simp] theorem run_modify (ready : σ → Bool) (f : σ → σ) (s : σ) :
    (modify ready f : Prog σ ε Unit).run s = (.ok (), f s) := rfl

theorem run_attempt (ready : σ → Bool) (body : σ → Except ε (α × σ)) (s : σ) :
    (attempt ready body).run s =
      match body s with | .ok r => (.ok r.1, r.2) | .error e => (.error e, s) := by
  simp only [attempt, run]
  cases body s <;> rfl

theorem run_bind (p : Prog σ ε α) (k : α → Prog σ ε β) (s : σ) :
    (p >>= k).run s = match p.run s with
      | (.ok a, s') => (k a).run s'
      | (.error e, s') => (.error e, s') := by
  change (p.bind k).run s = _
  induction p generalizing s with
  | ret a => rfl
  | fail e => rfl
  | act ready eff next ih => exact ih s (eff s)

theorem run_bind_ok {p : Prog σ ε α} {k : α → Prog σ ε β} {s s'' : σ} {b : β} :
    (p >>= k).run s = (.ok b, s'') ↔
      ∃ a s', p.run s = (.ok a, s') ∧ (k a).run s' = (.ok b, s'') := by
  rw [run_bind]
  cases hp : p.run s with
  | mk r s' =>
    cases r with
    | ok a => exact ⟨fun h => ⟨a, s', rfl, h⟩, by rintro ⟨a, s', h, hk⟩; cases h; exact hk⟩
    | error e => exact ⟨fun h => (by cases h), by rintro ⟨a, s', h, hk⟩; cases h⟩

theorem run_tryCatch (p : Prog σ ε α) (k : ε → Prog σ ε α) (s : σ) :
    (tryCatch p k).run s = match p.run s with
      | (.ok a, s') => (.ok a, s')
      | (.error e, s') => (k e).run s' := by
  change (p.handle k).run s = _
  induction p generalizing s with
  | ret a => rfl
  | fail e => rfl
  | act ready eff next ih => exact ih s (eff s)

/-- `p.Ensures s Q`: alone, from the state `s`, the outcome of `p` and the state it leaves satisfy
`Q`. -/
def Ensures (p : Prog σ ε α) (s : σ) (Q : Except ε α → σ → Prop) : Prop := Q (p.run s).1 (p.run s).2

section Ensures

variable {s : σ}

theorem ensures_pure {Q : Except ε α → σ → Prop} {a : α} (h : Q (.ok a) s) :
    (pure a : Prog σ ε α).Ensures s Q := h

theorem ensures_throw {Q : Except ε α → σ → Prop} {e : ε} (h : Q (.error e) s) :
    (throw e : Prog σ ε α).Ensures s Q := h

theorem ensures_modify {Q : Except ε Unit → σ → Prop} {ready : σ → Bool} {f : σ → σ}
    (h : Q (.ok ()) (f s)) : (modify ready f : Prog σ ε Unit).Ensures s Q := h

theorem ensures_bind {Q : Except ε β → σ → Prop} {p : Prog σ ε α} {k : α → Prog σ ε β}
    (h : p.Ensures s fun r s' => match r with
      | .ok a => (k a).Ensures s' Q
      | .error e => Q (.error e) s') : (p >>= k).Ensures s Q := by
  unfold Ensures at h ⊢
  rw [run_bind]
  cases hp : p.run s with
  | mk r s' =>
    rw [hp] at h
    cases r with
    | ok a => exact h
    | error e => exact h

theorem ensures_read_bind {Q : Except ε β → σ → Prop} {f : σ → α} {k : α → Prog σ ε β}
    (h : (k (f s)).Ensures s Q) : (read f >>= k).Ensures s Q :=
  ensures_bind h

theorem ensures_lift_bind {Q : Except ε β → σ → Prop} {x : Except ε α} {k : α → Prog σ ε β}
    (hok : ∀ a, x = .ok a → (k a).Ensures s Q) (herr : ∀ e, x = .error e → Q (.error e) s) :
    (lift x >>= k).Ensures s Q := by
  cases x with
  | ok a => exact hok a rfl
  | error e => exact herr e rfl

theorem ensures_tryCatch {Q : Except ε α → σ → Prop} {p : Prog σ ε α} {k : ε → Prog σ ε α}
    (h : p.Ensures s fun r s' => match r with
      | .ok a => Q (.ok a) s'
      | .error e => (k e).Ensures s' Q) : (tryCatch p k).Ensures s Q := by
  unfold Ensures at h ⊢
  rw [run_tryCatch]
  cases hp : p.run s with
  | mk r s' =>
    rw [hp] at h
    cases r with
    | ok a => exact h
    | error e => exact h

theorem ensures_attempt {Q : Except ε α → σ → Prop} {ready : σ → Bool}
    {body : σ → Except ε (α × σ)} (hok : ∀ a s', body s = .ok (a, s') → Q (.ok a) s')
    (herr : ∀ e, body s = .error e → Q (.error e) s) : (attempt ready body).Ensures s Q := by
  unfold Ensures
  rw [run_attempt]
  cases hb : body s with
  | ok r => exact hok r.1 r.2 hb
  | error e => exact herr e hb

theorem Ensures.imp {Q Q' : Except ε α → σ → Prop} {p : Prog σ ε α} (h : p.Ensures s Q)
    (hQ : ∀ r s', Q r s' → Q' r s') : p.Ensures s Q' :=
  hQ _ _ h

/-- A program, then a computation on its result. -/
theorem ensures_map {Q : Except ε β → σ → Prop} {p : Prog σ ε α} {f : α → β}
    (hp : p.Ensures s fun r s' => Q (r.map f) s') :
    (p >>= fun a => (pure (f a) : Prog σ ε β)).Ensures s Q := by
  refine ensures_bind (hp.imp fun r s' hQ => ?_)
  cases r with
  | ok a => exact hQ
  | error e => exact hQ

/-- What a program leaves behind does not change when its result is dropped. -/
theorem ensures_discard {Q : σ → Prop} {p : Prog σ ε α} (hp : p.Ensures s fun _ s' => Q s') :
    (p >>= fun _ => (pure () : Prog σ ε Unit)).Ensures s fun _ s' => Q s' :=
  ensures_map hp

/-- What is ensured of the outcome of a sequence is ensured by its last part. -/
theorem ensures_last {Q : Except ε β → Prop} {p : Prog σ ε α} {k : α → Prog σ ε β}
    (hk : ∀ a s', (k a).Ensures s' fun r _ => Q r) (herr : ∀ e, Q (.error e)) :
    (p >>= k).Ensures s fun r _ => Q r := by
  unfold Ensures
  rw [run_bind]
  cases p.run s with
  | mk r s' =>
    cases r with
    | ok a => exact hk a s'
    | error e => exact herr e

end Ensures

/-! ## A program on a part of the state -/

/-- A part `σ` of the states `τ`, which can be read and replaced. -/
structure Part (τ σ : Type) where
  get : τ → σ
  put : σ → τ → τ
  get_put : ∀ s t, get (put s t) = s
  put_get : ∀ t, put (get t) t = t
  put_put : ∀ s s' t, put s' (put s t) = put s' t

/-- The program on the part. -/
def zoom {τ : Type} (part : Part τ σ) : Prog σ ε α → Prog τ ε α
  | .ret a => .ret a
  | .fail e => .fail e
  | .act ready eff next =>
    .act (fun t => ready (part.get t)) (fun t => part.put (eff (part.get t)) t)
      fun t => (next (part.get t)).zoom part

theorem zoom_bind {τ : Type} (part : Part τ σ) (p : Prog σ ε α) (k : α → Prog σ ε β) :
    (p >>= k).zoom part = p.zoom part >>= fun a => (k a).zoom part := by
  change (p.bind k).zoom part = (p.zoom part).bind fun a => (k a).zoom part
  induction p with
  | ret a => rfl
  | fail e => rfl
  | act ready eff next ih => exact congrArg (Prog.act _ _) (funext fun t => ih (part.get t))

/-- An action on the part is an action. -/
theorem zoom_attempt {τ : Type} (part : Part τ σ) (ready : σ → Bool)
    (body : σ → Except ε (α × σ)) :
    (attempt ready body).zoom part = attempt (fun t => ready (part.get t)) fun t =>
      (body (part.get t)).map fun r => (r.1, part.put r.2 t) := by
  unfold attempt
  rw [zoom]
  congr 1
  · funext t
    cases hb : body (part.get t) with
    | ok r => simp [hb, Except.map]
    | error e => simp [hb, Except.map, part.put_get]
  · funext t
    cases hb : body (part.get t) with
    | ok r => simp [hb, Except.map, zoom]
    | error e => simp [hb, Except.map, zoom]

theorem run_zoom {τ : Type} (part : Part τ σ) (p : Prog σ ε α) (t : τ) :
    (p.zoom part).run t = ((p.run (part.get t)).1, part.put (p.run (part.get t)).2 t) := by
  induction p generalizing t with
  | ret a => exact congrArg (Prod.mk _) (part.put_get t).symm
  | fail e => exact congrArg (Prod.mk _) (part.put_get t).symm
  | act ready eff next ih =>
    have hnext := ih (part.get t) (part.put (eff (part.get t)) t)
    rw [part.get_put, part.put_put] at hnext
    exact hnext

theorem ensures_zoom {τ : Type} {part : Part τ σ} {p : Prog σ ε α} {t : τ}
    {Q : Except ε α → τ → Prop} (h : p.Ensures (part.get t) fun r s => Q r (part.put s t)) :
    (p.zoom part).Ensures t Q := by
  unfold Ensures at h ⊢
  rw [run_zoom]
  exact h

/-! ## A program in company -/

/-- `p.Follows R G Q h`: continued from the history `h`, with the history growing by `R` between
its actions, every action of `p` satisfies `G` and the outcome satisfies `Q`. -/
def Follows (R : List σ → List σ → Prop) (G : List σ → σ → Prop)
    (Q : List σ → Except ε α → Prop) : Prog σ ε α → List σ → Prop
  | .ret a, h => Q h (.ok a)
  | .fail e, h => Q h (.error e)
  | .act ready eff next, h => ∀ s past, R h (s :: past) → ready s = true →
      G (s :: past) (eff s) ∧ Follows R G Q (next s) (eff s :: s :: past)

variable {R : List σ → List σ → Prop} {G : List σ → σ → Prop} {h : List σ}

theorem follows_pure {Q : List σ → Except ε α → Prop} {a : α} (hQ : Q h (.ok a)) :
    (pure a : Prog σ ε α).Follows R G Q h := hQ

theorem follows_throw {Q : List σ → Except ε α → Prop} {e : ε} (hQ : Q h (.error e)) :
    (throw e : Prog σ ε α).Follows R G Q h := hQ

theorem follows_read {Q : List σ → Except ε α → Prop} {f : σ → α}
    (hQ : ∀ s past, R h (s :: past) → G (s :: past) s ∧ Q (s :: s :: past) (.ok (f s))) :
    (read f : Prog σ ε α).Follows R G Q h :=
  fun s past hR _ => hQ s past hR

theorem follows_modify {Q : List σ → Except ε Unit → Prop} {ready : σ → Bool} {f : σ → σ}
    (hQ : ∀ s past, R h (s :: past) → ready s = true →
      G (s :: past) (f s) ∧ Q (f s :: s :: past) (.ok ())) :
    (modify ready f : Prog σ ε Unit).Follows R G Q h :=
  fun s past hR hs => hQ s past hR hs

theorem follows_attempt {Q : List σ → Except ε α → Prop} {ready : σ → Bool}
    {body : σ → Except ε (α × σ)}
    (hok : ∀ s past a s', R h (s :: past) → ready s = true → body s = .ok (a, s') →
      G (s :: past) s' ∧ Q (s' :: s :: past) (.ok a))
    (herr : ∀ s past e, R h (s :: past) → ready s = true → body s = .error e →
      G (s :: past) s ∧ Q (s :: s :: past) (.error e)) :
    (attempt ready body).Follows R G Q h := by
  intro s past hR hs
  cases hb : body s with
  | ok r =>
    simp only [hb]
    exact hok s past r.1 r.2 hR hs hb
  | error e =>
    simp only [hb]
    exact herr s past e hR hs hb

theorem follows_lift {Q : List σ → Except ε α → Prop} {x : Except ε α} (hQ : Q h x) :
    (lift x : Prog σ ε α).Follows R G Q h := by
  cases x <;> exact hQ

theorem follows_bind {Q : List σ → Except ε β → Prop} {p : Prog σ ε α} {k : α → Prog σ ε β}
    (hp : p.Follows R G (fun h r => match r with
      | .ok a => (k a).Follows R G Q h
      | .error e => Q h (.error e)) h) :
    (p >>= k).Follows R G Q h := by
  change (p.bind k).Follows R G Q h
  induction p generalizing h with
  | ret a => exact hp
  | fail e => exact hp
  | act ready eff next ih =>
    intro s past hR hs
    obtain ⟨hG, hn⟩ := hp s past hR hs
    exact ⟨hG, ih s hn⟩

theorem follows_tryCatch {Q : List σ → Except ε α → Prop} {p : Prog σ ε α}
    {k : ε → Prog σ ε α}
    (hp : p.Follows R G (fun h r => match r with
      | .ok a => Q h (.ok a)
      | .error e => (k e).Follows R G Q h) h) :
    (tryCatch p k).Follows R G Q h := by
  change (p.handle k).Follows R G Q h
  induction p generalizing h with
  | ret a => exact hp
  | fail e => exact hp
  | act ready eff next ih =>
    intro s past hR hs
    obtain ⟨hG, hn⟩ := hp s past hR hs
    exact ⟨hG, ih s hn⟩

/-- Every action, from whatever state, satisfies `P`. -/
def Each (P : σ → σ → Prop) : Prog σ ε α → Prop
  | .ret _ => True
  | .fail _ => True
  | .act _ eff next => ∀ s, P s (eff s) ∧ Each P (next s)

section Each

variable {P : σ → σ → Prop}

theorem each_pure (a : α) : (pure a : Prog σ ε α).Each P := trivial

theorem each_throw (e : ε) : (throw e : Prog σ ε α).Each P := trivial

theorem each_read (f : σ → α) (hP : ∀ s, P s s) : (read f : Prog σ ε α).Each P :=
  fun s => ⟨hP s, trivial⟩

theorem each_modify {ready : σ → Bool} {f : σ → σ} (hP : ∀ s, P s (f s)) :
    (modify ready f : Prog σ ε Unit).Each P :=
  fun s => ⟨hP s, trivial⟩

theorem each_bind {p : Prog σ ε α} {k : α → Prog σ ε β} (hp : p.Each P)
    (hk : ∀ a, (k a).Each P) : (p >>= k).Each P := by
  change (p.bind k).Each P
  induction p with
  | ret a => exact hk a
  | fail e => trivial
  | act ready eff next ih => exact fun s => ⟨(hp s).1, ih s (hp s).2⟩

theorem each_of_forall (p : Prog σ ε α) (hP : ∀ s s', P s s') : p.Each P := by
  induction p with
  | ret a => trivial
  | fail e => trivial
  | act ready eff next ih => exact fun s => ⟨hP s (eff s), ih s⟩

theorem each_attempt {ready : σ → Bool} {body : σ → Except ε (α × σ)} (hrefl : ∀ s, P s s)
    (hP : ∀ s r, body s = .ok r → P s r.2) : (attempt ready body).Each P := by
  intro s
  cases hb : body s with
  | ok r =>
    simp only [hb]
    exact ⟨hP s r hb, trivial⟩
  | error e =>
    simp only [hb]
    exact ⟨hrefl s, trivial⟩

theorem each_tryCatch {p : Prog σ ε α} {k : ε → Prog σ ε α} (hp : p.Each P)
    (hk : ∀ e, (k e).Each P) : (tryCatch p k).Each P := by
  change (p.handle k).Each P
  induction p with
  | ret a => trivial
  | fail e => exact hk e
  | act ready eff next ih => exact fun s => ⟨(hp s).1, ih s (hp s).2⟩

theorem Each.imp {P' : σ → σ → Prop} {p : Prog σ ε α} (hp : p.Each P)
    (hP : ∀ s s', P s s' → P' s s') : p.Each P' := by
  induction p with
  | ret a => trivial
  | fail e => trivial
  | act ready eff next ih => exact fun s => ⟨hP _ _ (hp s).1, ih s (hp s).2⟩

theorem each_lift (x : Except ε α) : (lift x : Prog σ ε α).Each P := by
  cases x <;> trivial

/-- A program on a part changes nothing but the part. -/
theorem each_zoom {τ : Type} {part : Part τ σ} {P : τ → τ → Prop} (p : Prog σ ε α)
    (hP : ∀ s t, P t (part.put s t)) : (p.zoom part).Each P := by
  induction p with
  | ret a => trivial
  | fail e => trivial
  | act ready eff next ih => exact fun t => ⟨hP _ t, ih (part.get t)⟩

/-- What a program does to the part. -/
theorem Each.zoom {τ : Type} {part : Part τ σ} {P' : τ → τ → Prop} {p : Prog σ ε α} (hp : p.Each P)
    (hP : ∀ s t, P (part.get t) s → P' t (part.put s t)) : (p.zoom part).Each P' := by
  induction p with
  | ret a => trivial
  | fail e => trivial
  | act ready eff next ih => exact fun t => ⟨hP _ t (hp (part.get t)).1, ih _ (hp (part.get t)).2⟩

/-- Such a program follows any discipline whose guarantee `P` gives. -/
theorem Each.follows {Q : List σ → Except ε α → Prop} {p : Prog σ ε α} (hp : p.Each P)
    (hG : ∀ s past s', P s s' → G (s :: past) s') (hrefl : ∀ h, R h h)
    (htrans : ∀ {h₁ h₂ h₃}, R h₁ h₂ → R h₂ h₃ → R h₁ h₃)
    (hown : ∀ s past s', P s s' → R (s :: past) (s' :: s :: past))
    (hQ : ∀ h' r, R h h' → Q h' r) : p.Follows R G Q h := by
  induction p generalizing h with
  | ret a => exact hQ h _ (hrefl h)
  | fail e => exact hQ h _ (hrefl h)
  | act ready eff next ih =>
    intro s past hR _
    refine ⟨hG s past _ (hp s).1, ih s (hp s).2 fun h' r hR' => hQ h' r ?_⟩
    exact htrans (htrans hR (hown s past _ (hp s).1)) hR'

/-- Alone, such a program changes the state within the closure of `P`. -/
theorem Each.run {p : Prog σ ε α} (hp : p.Each P) (hrefl : ∀ s, P s s)
    (htrans : ∀ {s₁ s₂ s₃}, P s₁ s₂ → P s₂ s₃ → P s₁ s₃) (s : σ) : P s (p.run s).2 := by
  induction p generalizing s with
  | ret a => exact hrefl s
  | fail e => exact hrefl s
  | act ready eff next ih => exact htrans (hp s).1 (ih s (hp s).2 (eff s))

end Each

/-! ## Invariants

Programs that keep to an invariant as long as the others do. -/

/-- Where `I` holds when it acts, `p` keeps `I`, and the outcome satisfies `Q`. -/
def Keeps (I : σ → Prop) (Q : Except ε α → Prop) : Prog σ ε α → Prop
  | .ret a => Q (.ok a)
  | .fail e => Q (.error e)
  | .act ready eff next => ∀ s, I s → ready s = true → I (eff s) ∧ Keeps I Q (next s)

section Keeps

variable {I : σ → Prop}

theorem keeps_pure {Q : Except ε α → Prop} {a : α} (hQ : Q (.ok a)) :
    (pure a : Prog σ ε α).Keeps I Q := hQ

theorem keeps_throw {Q : Except ε α → Prop} {e : ε} (hQ : Q (.error e)) :
    (throw e : Prog σ ε α).Keeps I Q := hQ

theorem keeps_read {Q : Except ε α → Prop} {f : σ → α} (hQ : ∀ s, I s → Q (.ok (f s))) :
    (read f : Prog σ ε α).Keeps I Q :=
  fun s hs _ => ⟨hs, hQ s hs⟩

theorem keeps_attempt {Q : Except ε α → Prop} {ready : σ → Bool} {body : σ → Except ε (α × σ)}
    (hok : ∀ s a s', I s → body s = .ok (a, s') → I s' ∧ Q (.ok a)) (herr : ∀ e, Q (.error e)) :
    (attempt ready body).Keeps I Q := by
  intro s hs _
  cases hb : body s with
  | ok r =>
    simp only [hb]
    exact hok s r.1 r.2 hs hb
  | error e =>
    simp only [hb]
    exact ⟨hs, herr e⟩

theorem keeps_bind {Q : Except ε β → Prop} {p : Prog σ ε α} {k : α → Prog σ ε β}
    (hp : p.Keeps I fun r => match r with
      | .ok a => (k a).Keeps I Q
      | .error e => Q (.error e)) : (p >>= k).Keeps I Q := by
  change (p.bind k).Keeps I Q
  induction p with
  | ret a => exact hp
  | fail e => exact hp
  | act ready eff next ih => exact fun s hs hr => ⟨(hp s hs hr).1, ih s (hp s hs hr).2⟩

/-- A read, and what follows from what it found. -/
theorem keeps_read_bind {Q : Except ε β → Prop} {f : σ → α} {k : α → Prog σ ε β}
    (hk : ∀ s, I s → (k (f s)).Keeps I Q) : (read f >>= k).Keeps I Q :=
  keeps_bind (keeps_read hk)

theorem keeps_tryCatch {Q : Except ε α → Prop} {p : Prog σ ε α} {k : ε → Prog σ ε α}
    (hp : p.Keeps I fun r => match r with
      | .ok a => Q (.ok a)
      | .error e => (k e).Keeps I Q) : (tryCatch p k).Keeps I Q := by
  change (p.handle k).Keeps I Q
  induction p with
  | ret a => exact hp
  | fail e => exact hp
  | act ready eff next ih => exact fun s hs hr => ⟨(hp s hs hr).1, ih s (hp s hs hr).2⟩

theorem Keeps.imp {Q Q' : Except ε α → Prop} {p : Prog σ ε α} (hp : p.Keeps I Q)
    (hQ : ∀ r, Q r → Q' r) : p.Keeps I Q' := by
  induction p with
  | ret a => exact hQ _ hp
  | fail e => exact hQ _ hp
  | act ready eff next ih => exact fun s hs hr => ⟨(hp s hs hr).1, ih s (hp s hs hr).2⟩

/-- A sequence of whose outcome nothing is asked. -/
theorem Keeps.seq {p : Prog σ ε α} {k : α → Prog σ ε β} (hp : p.Keeps I fun _ => True)
    (hk : ∀ a, (k a).Keeps I fun _ => True) : (p >>= k).Keeps I fun _ => True := by
  refine keeps_bind (hp.imp fun r _ => ?_)
  cases r with
  | ok a => exact hk a
  | error e => trivial

/-- What every action does keeps the invariant. -/
theorem Each.keeps {P : σ → σ → Prop} {p : Prog σ ε α} (hp : p.Each P)
    (hI : ∀ s s', P s s' → I s → I s') : p.Keeps I fun _ => True := by
  induction p with
  | ret a => trivial
  | fail e => trivial
  | act ready eff next ih => exact fun s hs _ => ⟨hI _ _ (hp s).1 hs, ih s (hp s).2⟩

/-- An invariant of the part. -/
theorem Keeps.zoom {τ : Type} {part : Part τ σ} {Q : Except ε α → Prop} {p : Prog σ ε α}
    (hp : p.Keeps I Q) : (p.zoom part).Keeps (fun t => I (part.get t)) Q := by
  induction p with
  | ret a => exact hp
  | fail e => exact hp
  | act ready eff next ih =>
    intro t ht hr
    obtain ⟨hI, hn⟩ := hp (part.get t) ht hr
    refine ⟨?_, ih _ hn⟩
    show I (part.get (part.put _ t))
    rw [part.get_put]
    exact hI

end Keeps

/-! ## Errors -/

/-- No outcome is an error. -/
def NeverFails : Prog σ ε α → Prop
  | .ret _ => True
  | .fail _ => False
  | .act _ _ next => ∀ s, NeverFails (next s)

theorem neverFails_pure (a : α) : (pure a : Prog σ ε α).NeverFails := trivial

theorem neverFails_read (f : σ → α) : (read f : Prog σ ε α).NeverFails := fun _ => trivial

theorem neverFails_modify {ready : σ → Bool} {f : σ → σ} :
    (modify ready f : Prog σ ε Unit).NeverFails := fun _ => trivial

theorem neverFails_bind {p : Prog σ ε α} {k : α → Prog σ ε β} (hp : p.NeverFails)
    (hk : ∀ a, (k a).NeverFails) : (p >>= k).NeverFails := by
  change (p.bind k).NeverFails
  induction p with
  | ret a => exact hk a
  | fail e => exact hp.elim
  | act ready eff next ih => exact fun s => ih s (hp s)

theorem neverFails_tryCatch {p : Prog σ ε α} {k : ε → Prog σ ε α} (hp : p.NeverFails) :
    (tryCatch p k).NeverFails := by
  change (p.handle k).NeverFails
  induction p with
  | ret a => trivial
  | fail e => exact hp.elim
  | act ready eff next ih => exact fun s => ih s (hp s)

/-- Errors that are handled without one are no errors. -/
theorem neverFails_catch {p : Prog σ ε α} {k : ε → Prog σ ε α} (hk : ∀ e, (k e).NeverFails) :
    (tryCatch p k).NeverFails := by
  change (p.handle k).NeverFails
  induction p with
  | ret a => trivial
  | fail e => exact hk e
  | act ready eff next ih => exact fun s => ih s

theorem NeverFails.run {p : Prog σ ε α} (hp : p.NeverFails) (s : σ) :
    ∃ a, (p.run s).1 = .ok a := by
  induction p generalizing s with
  | ret a => exact ⟨a, rfl⟩
  | fail e => exact hp.elim
  | act ready eff next ih => exact ih s (hp s) (eff s)

/-- Errors are clean: after an action that does not keep the state, up to `same`, there is no
error any more. -/
def FailsClean (same : σ → σ → Prop) : Prog σ ε α → Prop
  | .ret _ => True
  | .fail _ => True
  | .act _ eff next => ∀ s, (same s (eff s) ∧ FailsClean same (next s)) ∨ NeverFails (next s)

section FailsClean

variable {same : σ → σ → Prop}

theorem failsClean_attempt {ready : σ → Bool} {body : σ → Except ε (α × σ)}
    (hsame : ∀ s, same s s) : (attempt ready body).FailsClean same := by
  intro s
  cases hb : body s with
  | ok r =>
    simp only [hb]
    exact .inr trivial
  | error e =>
    simp only [hb]
    exact .inl ⟨hsame s, trivial⟩

theorem Each.failsClean_bind {p : Prog σ ε α} {k : α → Prog σ ε β} (hp : p.Each same)
    (hk : ∀ a, (k a).FailsClean same) : (p >>= k).FailsClean same := by
  change (p.bind k).FailsClean same
  induction p with
  | ret a => exact hk a
  | fail e => trivial
  | act ready eff next ih => exact fun s => .inl ⟨(hp s).1, ih s (hp s).2⟩

theorem FailsClean.bind {p : Prog σ ε α} {k : α → Prog σ ε β} (hp : p.FailsClean same)
    (hk : ∀ a, (k a).NeverFails) : (p >>= k).FailsClean same := by
  change (p.bind k).FailsClean same
  induction p with
  | ret a =>
    change (k a).FailsClean same
    have hka := hk a
    cases h : k a with
    | ret b => trivial
    | fail e => trivial
    | act ready eff next =>
      rw [h] at hka
      exact fun s => .inr (hka s)
  | fail e => trivial
  | act ready eff next ih =>
    intro s
    rcases hp s with ⟨hsame, hn⟩ | hn
    · exact .inl ⟨hsame, ih s hn⟩
    · exact .inr (neverFails_bind hn hk)

theorem FailsClean.tryCatch {p : Prog σ ε α} {k : ε → Prog σ ε α} (hp : p.FailsClean same)
    (hk : ∀ e, (k e).FailsClean same) : (tryCatch p k).FailsClean same := by
  change (p.handle k).FailsClean same
  induction p with
  | ret a => trivial
  | fail e => exact hk e
  | act ready eff next ih =>
    intro s
    rcases hp s with ⟨hsame, hn⟩ | hn
    · exact .inl ⟨hsame, ih s hn⟩
    · exact .inr (neverFails_tryCatch hn)

end FailsClean

/-- A weaker demand on the outcome. -/
theorem Follows.imp {Q Q' : List σ → Except ε α → Prop} {p : Prog σ ε α}
    (hp : p.Follows R G Q h) (hQ : ∀ h r, Q h r → Q' h r) : p.Follows R G Q' h := by
  induction p generalizing h with
  | ret a => exact hQ _ _ hp
  | fail e => exact hQ _ _ hp
  | act ready eff next ih =>
    intro s past hR hs
    obtain ⟨hG, hn⟩ := hp s past hR hs
    exact ⟨hG, ih s hn⟩

/-! Programs of whose outcomes nothing is asked. -/

theorem Follows.seq {p : Prog σ ε α} {k : α → Prog σ ε β} (hp : p.Follows R G (fun _ _ => True) h)
    (hk : ∀ a h', (k a).Follows R G (fun _ _ => True) h') :
    (p >>= k).Follows R G (fun _ _ => True) h := by
  refine follows_bind (hp.imp fun h' r _ => ?_)
  cases r with
  | ok a => exact hk a h'
  | error e => trivial

theorem Follows.catch {p : Prog σ ε α} {k : ε → Prog σ ε α}
    (hp : p.Follows R G (fun _ _ => True) h)
    (hk : ∀ e h', (k e).Follows R G (fun _ _ => True) h') :
    (tryCatch p k).Follows R G (fun _ _ => True) h := by
  refine follows_tryCatch (hp.imp fun h' r _ => ?_)
  cases r with
  | ok a => trivial
  | error e => exact hk e h'

/-- A weaker demand on the actions. -/
theorem Follows.guarantee {G' : List σ → σ → Prop} {Q : List σ → Except ε α → Prop}
    {p : Prog σ ε α} (hp : p.Follows R G Q h) (hG : ∀ h s, G h s → G' h s) :
    p.Follows R G' Q h := by
  induction p generalizing h with
  | ret a => exact hp
  | fail e => exact hp
  | act ready eff next ih =>
    intro s past hR hs
    obtain ⟨hg, hn⟩ := hp s past hR hs
    exact ⟨hG _ _ hg, ih s hn⟩

/-- What was in the history when a program went on is in it when the program ends. -/
theorem Follows.remembers {Q : List σ → Except ε α → Prop} {p : Prog σ ε α} {s₀ : σ}
    (hp : p.Follows R G Q h) (hR : ∀ h h', R h h' → ∀ s ∈ h, s ∈ h') (hs₀ : s₀ ∈ h) :
    p.Follows R G (fun h' r => Q h' r ∧ s₀ ∈ h') h := by
  induction p generalizing h with
  | ret a => exact ⟨hp, hs₀⟩
  | fail e => exact ⟨hp, hs₀⟩
  | act ready eff next ih =>
    intro s past hR' hs
    obtain ⟨hG, hn⟩ := hp s past hR' hs
    exact ⟨hG, ih s hn (List.mem_cons_of_mem _ (hR _ _ hR' s₀ hs₀))⟩

/-- A program on a part of the state follows what it follows on the part. -/
theorem Follows.zoom {τ : Type} {part : Part τ σ} {Q : List σ → Except ε α → Prop}
    {R' : List τ → List τ → Prop} {G' : List τ → τ → Prop} {Q' : List τ → Except ε α → Prop}
    {p : Prog σ ε α} {h : List τ} (hp : p.Follows R G Q (h.map part.get))
    (hR : ∀ h h', R' h h' → R (h.map part.get) (h'.map part.get))
    (hG : ∀ t past s, G ((t :: past).map part.get) s → G' (t :: past) (part.put s t))
    (hQ : ∀ h r, Q (h.map part.get) r → Q' h r) : (p.zoom part).Follows R' G' Q' h := by
  induction p generalizing h with
  | ret a => exact hQ h _ hp
  | fail e => exact hQ h _ hp
  | act ready eff next ih =>
    intro t past hR' hs
    obtain ⟨hg, hn⟩ := hp (part.get t) (past.map part.get) (hR _ _ hR') hs
    refine ⟨hG t past _ hg, ih (part.get t) ?_⟩
    rw [List.map_cons, List.map_cons, part.get_put]
    exact hn

/-- What the others do before the next action keeps `Follows`, when the demand on the outcome is
stable. -/
theorem Follows.rely {Q : List σ → Except ε α → Prop} {p : Prog σ ε α} {h' : List σ}
    (hp : p.Follows R G Q h) (htrans : ∀ h₂, R h' h₂ → R h h₂)
    (hQ : ∀ r, Q h r → Q h' r) : p.Follows R G Q h' := by
  cases p with
  | ret a => exact hQ _ hp
  | fail e => exact hQ _ hp
  | act ready eff next => exact fun s past hR' hs => hp s past (htrans _ hR') hs

/-! ## Relations between two states -/

/-- `p.Upholds R G Q s`: continued from the state `s`, which the others change by `R` between its
actions, every action of `p` satisfies `G`, and the outcome and the state it leaves satisfy `Q`. -/
def Upholds (R G : σ → σ → Prop) (Q : Except ε α → σ → Prop) : Prog σ ε α → σ → Prop
  | .ret a, s => Q (.ok a) s
  | .fail e, s => Q (.error e) s
  | .act ready eff next, s => ∀ s', R s s' → ready s' = true →
      G s' (eff s') ∧ Upholds R G Q (next s') (eff s')

section Upholds

variable {R G : σ → σ → Prop} {s : σ}

theorem upholds_pure {Q : Except ε α → σ → Prop} {a : α} (hQ : Q (.ok a) s) :
    (pure a : Prog σ ε α).Upholds R G Q s := hQ

theorem upholds_lift {Q : Except ε α → σ → Prop} {x : Except ε α} (hQ : Q x s) :
    (lift x : Prog σ ε α).Upholds R G Q s := by
  cases x <;> exact hQ

theorem upholds_read {Q : Except ε α → σ → Prop} {f : σ → α}
    (hQ : ∀ s', R s s' → G s' s' ∧ Q (.ok (f s')) s') : (read f : Prog σ ε α).Upholds R G Q s :=
  fun s' hR _ => hQ s' hR

theorem upholds_attempt {Q : Except ε α → σ → Prop} {ready : σ → Bool}
    {body : σ → Except ε (α × σ)}
    (hok : ∀ s₁ a s₂, R s s₁ → body s₁ = .ok (a, s₂) → G s₁ s₂ ∧ Q (.ok a) s₂)
    (herr : ∀ s₁ e, R s s₁ → body s₁ = .error e → G s₁ s₁ ∧ Q (.error e) s₁) :
    (attempt ready body).Upholds R G Q s := by
  intro s₁ hR _
  cases hb : body s₁ with
  | ok r =>
    simp only [hb]
    exact hok s₁ r.1 r.2 hR hb
  | error e =>
    simp only [hb]
    exact herr s₁ e hR hb

theorem upholds_bind {Q : Except ε β → σ → Prop} {p : Prog σ ε α} {k : α → Prog σ ε β}
    (hp : p.Upholds R G (fun r s' => match r with
      | .ok a => (k a).Upholds R G Q s'
      | .error e => Q (.error e) s') s) : (p >>= k).Upholds R G Q s := by
  change (p.bind k).Upholds R G Q s
  induction p generalizing s with
  | ret a => exact hp
  | fail e => exact hp
  | act ready eff next ih =>
    intro s' hR hs
    obtain ⟨hG, hn⟩ := hp s' hR hs
    exact ⟨hG, ih s' hn⟩

theorem upholds_tryCatch {Q : Except ε α → σ → Prop} {p : Prog σ ε α} {k : ε → Prog σ ε α}
    (hp : p.Upholds R G (fun r s' => match r with
      | .ok a => Q (.ok a) s'
      | .error e => (k e).Upholds R G Q s') s) : (tryCatch p k).Upholds R G Q s := by
  change (p.handle k).Upholds R G Q s
  induction p generalizing s with
  | ret a => exact hp
  | fail e => exact hp
  | act ready eff next ih =>
    intro s' hR hs
    obtain ⟨hG, hn⟩ := hp s' hR hs
    exact ⟨hG, ih s' hn⟩

theorem Upholds.imp {Q Q' : Except ε α → σ → Prop} {p : Prog σ ε α} (hp : p.Upholds R G Q s)
    (hQ : ∀ r s', Q r s' → Q' r s') : p.Upholds R G Q' s := by
  induction p generalizing s with
  | ret a => exact hQ _ _ hp
  | fail e => exact hQ _ _ hp
  | act ready eff next ih =>
    intro s' hR hs
    obtain ⟨hG, hn⟩ := hp s' hR hs
    exact ⟨hG, ih s' hn⟩

/-- The others went on. -/
theorem Upholds.rely {Q : Except ε α → σ → Prop} {p : Prog σ ε α} {s' : σ}
    (hp : p.Upholds R G Q s) (htrans : ∀ {s₁ s₂ s₃}, R s₁ s₂ → R s₂ s₃ → R s₁ s₃)
    (hQ : ∀ {r s₁ s₂}, R s₁ s₂ → Q r s₁ → Q r s₂) (hR : R s s') : p.Upholds R G Q s' := by
  cases p with
  | ret a => exact hQ hR hp
  | fail e => exact hQ hR hp
  | act ready eff next => exact fun s₂ hR' hs => hp s₂ (htrans hR hR') hs

/-- What an ended program promised. -/
theorem Upholds.result {Q : Except ε α → σ → Prop} {p : Prog σ ε α} {r : Except ε α}
    (hp : p.Upholds R G Q s) (hr : p.result = some r) : Q r s := by
  cases p with
  | ret a =>
    cases hr
    exact hp
  | fail e =>
    cases hr
    exact hp
  | act ready eff next => cases hr

end Upholds

/-! ## Guarantees that refer to the beginning -/

/-- `p.Begins R G Q h`: as `p.Follows`, with a guarantee that depends on the state the first action
finds. -/
def Begins (R : List σ → List σ → Prop) (G : σ → List σ → σ → Prop)
    (Q : List σ → Except ε α → Prop) : Prog σ ε α → List σ → Prop
  | .ret a, h => Q h (.ok a)
  | .fail e, h => Q h (.error e)
  | .act ready eff next, h => ∀ s past, R h (s :: past) → ready s = true →
      G s (s :: past) (eff s) ∧ (next s).Follows R (G s) Q (eff s :: s :: past)

section Begins

variable {R : List σ → List σ → Prop} {G : σ → List σ → σ → Prop} {h : List σ}

/-- A program that keeps to the guarantee whatever it found at first. -/
theorem Follows.begins {Q : List σ → Except ε α → Prop} {p : Prog σ ε α}
    (hp : ∀ s₁, p.Follows R (G s₁) Q h) (hQ : ∀ r, Q h r) : p.Begins R G Q h := by
  cases p with
  | ret a => exact hQ _
  | fail e => exact hQ _
  | act ready eff next => exact fun s past hR hs => hp s s past hR hs

/-- A program that begins by reading, then more. -/
theorem begins_read {Q : List σ → Except ε β → Prop} {f : σ → α} {k : α → Prog σ ε β}
    (hk : ∀ s past, R h (s :: past) →
      G s (s :: past) s ∧ (k (f s)).Follows R (G s) Q (s :: s :: past)) :
    (read f >>= k).Begins R G Q h :=
  fun s past hR _ => hk s past hR

/-- A program, then a computation on its outcome, when nothing is asked of that. -/
theorem Begins.map {p : Prog σ ε α} {f : α → β} (hp : p.Begins R G (fun _ _ => True) h) :
    (p >>= fun a => pure (f a)).Begins R G (fun _ _ => True) h := by
  cases p with
  | ret a => trivial
  | fail e => trivial
  | act ready eff next =>
    intro s past hR hs
    obtain ⟨hG, hn⟩ := hp s past hR hs
    exact ⟨hG, hn.seq fun _ _ => trivial⟩

theorem Begins.follows {Q : List σ → Except ε α → Prop} {p : Prog σ ε α} (hp : p.Begins R G Q h) :
    p.Follows R (fun h s' => ∃ s₁, G s₁ h s') Q h := by
  cases p with
  | ret a => exact hp
  | fail e => exact hp
  | act ready eff next =>
    intro s past hR hs
    obtain ⟨hG, hn⟩ := hp s past hR hs
    exact ⟨⟨s, hG⟩, hn.guarantee fun _ _ hg => ⟨s, hg⟩⟩

theorem Begins.rely {Q : List σ → Except ε α → Prop} {p : Prog σ ε α} {h' : List σ}
    (hp : p.Begins R G Q h) (htrans : ∀ h₂, R h' h₂ → R h h₂)
    (hQ : ∀ r, Q h r → Q h' r) : p.Begins R G Q h' := by
  cases p with
  | ret a => exact hQ _ hp
  | fail e => exact hQ _ hp
  | act ready eff next => exact fun s past hR' hs => hp s past (htrans _ hR') hs

end Begins

/-! ## What a program has done -/

/-- `p.Does G Q own`: having taken the actions `own` so far, the newest first, each with the state
it found and the state it left, `p` goes on so that `G` holds of the actions with every further one,
and `Q` of them all and the outcome, whatever states it goes on to find. -/
def Does (G : List (σ × σ) → Prop) (Q : List (σ × σ) → Except ε α → Prop) :
    Prog σ ε α → List (σ × σ) → Prop
  | .ret a, own => Q own (.ok a)
  | .fail e, own => Q own (.error e)
  | .act ready eff next, own => ∀ s, ready s = true →
      G ((s, eff s) :: own) ∧ Does G Q (next s) ((s, eff s) :: own)

section Does

variable {G : List (σ × σ) → Prop} {own : List (σ × σ)}

theorem does_throw {Q : List (σ × σ) → Except ε α → Prop} {e : ε} (hQ : Q own (.error e)) :
    (throw e : Prog σ ε α).Does G Q own := hQ

theorem does_lift {Q : List (σ × σ) → Except ε α → Prop} {x : Except ε α} (hQ : Q own x) :
    (lift x : Prog σ ε α).Does G Q own := by
  cases x with
  | ok a => exact hQ
  | error e => exact hQ

theorem does_read {Q : List (σ × σ) → Except ε α → Prop} {f : σ → α}
    (hQ : ∀ s, G ((s, s) :: own) ∧ Q ((s, s) :: own) (.ok (f s))) :
    (read f : Prog σ ε α).Does G Q own :=
  fun s _ => hQ s

theorem does_modify {Q : List (σ × σ) → Except ε Unit → Prop} {ready : σ → Bool} {f : σ → σ}
    (hQ : ∀ s, ready s = true → G ((s, f s) :: own) ∧ Q ((s, f s) :: own) (.ok ())) :
    (modify ready f : Prog σ ε Unit).Does G Q own :=
  fun s hs => hQ s hs

theorem does_attempt {Q : List (σ × σ) → Except ε α → Prop} {ready : σ → Bool}
    {body : σ → Except ε (α × σ)}
    (hok : ∀ s a s', ready s = true → body s = .ok (a, s') →
      G ((s, s') :: own) ∧ Q ((s, s') :: own) (.ok a))
    (herr : ∀ s e, ready s = true → body s = .error e →
      G ((s, s) :: own) ∧ Q ((s, s) :: own) (.error e)) :
    (attempt ready body).Does G Q own := by
  intro s hs
  cases hb : body s with
  | ok r =>
    simp only [hb]
    exact hok s r.1 r.2 hs hb
  | error e =>
    simp only [hb]
    exact herr s e hs hb

theorem does_bind {Q : List (σ × σ) → Except ε β → Prop} {p : Prog σ ε α} {k : α → Prog σ ε β}
    (hp : p.Does G (fun own r => match r with
      | .ok a => (k a).Does G Q own
      | .error e => Q own (.error e)) own) :
    (p >>= k).Does G Q own := by
  change (p.bind k).Does G Q own
  induction p generalizing own with
  | ret a => exact hp
  | fail e => exact hp
  | act ready eff next ih =>
    intro s hs
    obtain ⟨hG, hn⟩ := hp s hs
    exact ⟨hG, ih s hn⟩

theorem does_tryCatch {Q : List (σ × σ) → Except ε α → Prop} {p : Prog σ ε α} {k : ε → Prog σ ε α}
    (hp : p.Does G (fun own r => match r with
      | .ok a => Q own (.ok a)
      | .error e => (k e).Does G Q own) own) :
    (tryCatch p k).Does G Q own := by
  change (p.handle k).Does G Q own
  induction p generalizing own with
  | ret a => exact hp
  | fail e => exact hp
  | act ready eff next ih =>
    intro s hs
    obtain ⟨hG, hn⟩ := hp s hs
    exact ⟨hG, ih s hn⟩

theorem Does.imp {G' : List (σ × σ) → Prop} {Q Q' : List (σ × σ) → Except ε α → Prop}
    {p : Prog σ ε α} (hp : p.Does G Q own) (hG : ∀ own, G own → G' own)
    (hQ : ∀ own r, Q own r → Q' own r) : p.Does G' Q' own := by
  induction p generalizing own with
  | ret a => exact hQ _ _ hp
  | fail e => exact hQ _ _ hp
  | act ready eff next ih =>
    intro s hs
    obtain ⟨hg, hn⟩ := hp s hs
    exact ⟨hG _ hg, ih s hn⟩

/-- In the end the actions so far are among those taken. -/
theorem Does.grows {Q : List (σ × σ) → Except ε α → Prop} {p : Prog σ ε α} (hp : p.Does G Q own) :
    p.Does G (fun own' r => Q own' r ∧ own ⊆ own') own := by
  suffices h : ∀ before, before ⊆ own → p.Does G (fun own' r => Q own' r ∧ before ⊆ own') own from
    h own (List.Subset.refl own)
  induction p generalizing own with
  | ret a => exact fun before hbefore => ⟨hp, hbefore⟩
  | fail e => exact fun before hbefore => ⟨hp, hbefore⟩
  | act ready eff next ih =>
    intro before hbefore s hs
    obtain ⟨hg, hn⟩ := hp s hs
    exact ⟨hg, ih s hn before (List.Subset.trans hbefore (List.subset_cons_self _ own))⟩

/-- Actions that all satisfy `P`, then more, which knows that they did. -/
theorem Each.does_bind {P : σ → σ → Prop} {Q : List (σ × σ) → Except ε β → Prop}
    {p : Prog σ ε α} {k : α → Prog σ ε β} (hp : p.Each P)
    (hG : ∀ s s' later, P s s' → G ((s, s') :: (later ++ own)))
    (hk : ∀ a later, (∀ x ∈ later, P x.1 x.2) → (k a).Does G Q (later ++ own))
    (herr : ∀ e later, Q (later ++ own) (.error e)) : (p >>= k).Does G Q own := by
  suffices h : ∀ before : List (σ × σ), (∀ x ∈ before, P x.1 x.2) →
      (p.bind k).Does G Q (before ++ own) from h [] (by simp)
  induction p with
  | ret a => exact fun before hbefore => hk a before hbefore
  | fail e => exact fun before _ => herr e before
  | act ready eff next ih =>
    intro before hbefore s _
    refine ⟨hG s (eff s) before (hp s).1, ih s (hp s).2 ((s, eff s) :: before) ?_⟩
    exact List.forall_mem_cons.2 ⟨(hp s).1, hbefore⟩

/-- A program on a part of the state does what it does on the part. -/
theorem Does.zoom {τ : Type} {part : Part τ σ} {G' : List (τ × τ) → Prop}
    {Q : List (σ × σ) → Except ε α → Prop} {Q' : List (τ × τ) → Except ε α → Prop}
    {p : Prog σ ε α} {own : List (τ × τ)}
    (hp : p.Does G Q (own.map (Prod.map part.get part.get)))
    (hG : ∀ t s own, G ((part.get t, s) :: own.map (Prod.map part.get part.get)) →
      G' ((t, part.put s t) :: own))
    (hQ : ∀ own r, Q (own.map (Prod.map part.get part.get)) r → Q' own r) :
    (p.zoom part).Does G' Q' own := by
  induction p generalizing own with
  | ret a => exact hQ _ _ hp
  | fail e => exact hQ _ _ hp
  | act ready eff next ih =>
    intro t ht
    obtain ⟨hg, hn⟩ := hp (part.get t) ht
    refine ⟨hG t _ own hg, ih _ ?_⟩
    rw [List.map_cons, Prod.map_apply, part.get_put]
    exact hn

/-- Actions that all satisfy `P`, without errors. -/
theorem Each.does {P : σ → σ → Prop} {Q : List (σ × σ) → Except ε α → Prop} {p : Prog σ ε α}
    (hp : p.Each P) (hn : p.NeverFails) (hG : ∀ s s' own, P s s' → G ((s, s') :: own))
    (hQ : ∀ own a, Q own (.ok a)) : p.Does G Q own := by
  induction p generalizing own with
  | ret a => exact hQ own a
  | fail e => exact hn.elim
  | act ready eff next ih =>
    exact fun s _ => ⟨hG s (eff s) own (hp s).1, ih s (hp s).2 (hn s)⟩

theorem does_of_forall {Q : List (σ × σ) → Except ε α → Prop} (p : Prog σ ε α)
    (hG : ∀ own, G own) (hQ : ∀ own r, Q own r) : p.Does G Q own := by
  induction p generalizing own with
  | ret a => exact hQ own _
  | fail e => exact hQ own _
  | act ready eff next ih => exact fun s _ => ⟨hG _, ih s⟩

/-- However the program goes on, it ends with an outcome that satisfies `Q`. -/
def Ends (Q : Except ε α → Prop) : Prog σ ε α → Prop
  | .ret a => Q (.ok a)
  | .fail e => Q (.error e)
  | .act ready _ next => ∀ s, ready s = true → Ends Q (next s)

theorem Does.ends {Q : List (σ × σ) → Except ε α → Prop} {Q' : Except ε α → Prop}
    {p : Prog σ ε α} (hp : p.Does G Q own) (hQ : ∀ later r, Q (later ++ own) r → Q' r) :
    p.Ends Q' := by
  induction p generalizing own with
  | ret a => exact hQ [] _ hp
  | fail e => exact hQ [] _ hp
  | act ready eff next ih =>
    intro s hs
    refine ih s (hp s hs).2 fun later r hr => hQ (later ++ [(s, eff s)]) r ?_
    rw [List.append_assoc]
    exact hr

end Does

end Prog

end BankDemo
