import BankDemo.Recurring.Service

/-!
# What the calls on schedules guarantee

A scan makes transfers only for the occurrences it read, and moves a schedule on only after there
was a transfer under the key of the occurrence that it read (`recurring_begins`).
-/

namespace BankDemo.Recurring

open Transfers Goals

/-- The banks of a history. -/
def worlds (h : List Schedules) : List World := h.map Schedules.world

/-- There was a transfer of the owner under the key of the occurrence. -/
def Handled (h : List World) (id : Uuid) (r : RecurringTransfer) : Prop :=
  ∃ x t, Seen h x t ∧ t.idempotencyKey = occurrenceKey id r.nextRunAt ∧
    t.initiatedByUserId = r.userId

theorem Handled.mono {h h' : List World} {id : Uuid} {r : RecurringTransfer}
    (hh : Handled h id r) (hmem : ∀ w ∈ h, w ∈ h') : Handled h' id r := by
  obtain ⟨x, t, hseen, ht⟩ := hh
  exact ⟨x, t, hseen.mono hmem, ht⟩

/-- So many of the schedules `due` were handled. -/
def HandledSome (h : List World) (due : List (Uuid × RecurringTransfer)) (n : ℕ) : Prop :=
  ∃ rows : List (Uuid × RecurringTransfer), rows.Sublist due ∧ rows.length = n ∧
    ∀ e ∈ rows, Handled h e.1 e.2

theorem HandledSome.mono {h h' : List World} {due : List (Uuid × RecurringTransfer)} {n : ℕ}
    (hs : HandledSome h due n) (hmem : ∀ w ∈ h, w ∈ h') : HandledSome h' due n := by
  obtain ⟨rows, hsub, hlength, hrows⟩ := hs
  exact ⟨rows, hsub, hlength, fun e he => (hrows e he).mono hmem⟩

/-- What an action of a call can do, for a thread that began in `s₁`. -/
inductive RecurringChange (env : Env) (s₁ : Schedules) (h : List World) (s s' : Schedules) :
    RecurringCall → Prop
  | quiet {c : RecurringCall} (hdb : s'.world.db = s.world.db)
      (hrows : s'.recurring = s.recurring) : RecurringChange env s₁ h s s' c
  | banked {c : Call} (hchange : Change env h s.world.db s'.world.db c)
      (hrows : s'.recurring = s.recurring) : RecurringChange env s₁ h s s' (.bank c)
  | edited {c : RecurringCall} (hc : c.isOwners = true) (hworld : s'.world = s.world) :
      RecurringChange env s₁ h s s' c
  | fired {c : ScanCall} {id : Uuid} {r : RecurringTransfer} (hdue : (id, r) ∈ c.due s₁.recurring)
      (hchange : Change env h s.world.db s'.world.db (.initiate (c.transfer id r)))
      (hrows : s'.recurring = s.recurring) : RecurringChange env s₁ h s s' (.scan c)
  | rescheduled {c : ScanCall} {id : Uuid} {r : RecurringTransfer}
      (hdue : (id, r) ∈ c.due s₁.recurring) (hhandled : Handled h id r)
      (hworld : s'.world = s.world)
      (hrows : Table.Updated id (c.reschedule r) s.recurring s'.recurring) :
      RecurringChange env s₁ h s s' (.scan c)

/-- What thread `i` relies on: the past stays, and what it has locked is kept. -/
def recurringRely (i : ℕ) (h h' : List Schedules) : Prop :=
  (∀ s ∈ h, s ∈ h') ∧ rely i (worlds h) (worlds h')

/-- What an action of thread `i` guarantees, when it began in `s₁`. -/
def recurringGuar (env : Env) (i : ℕ) (c : RecurringCall) (s₁ : Schedules) (h : List Schedules)
    (s' : Schedules) : Prop :=
  ∀ s past, h = s :: past → RecurringChange env s₁ (worlds h) s s' c ∧
    ∀ j, j ≠ i → Keeps j s.world s'.world

/-- What a scan promises of the number it answers: so many of the schedules it read were handled. -/
def recurringPromise (c : RecurringCall) (h : List Schedules)
    (r : Except Error RecurringAnswer) : Prop :=
  ∀ sc n, c = .scan sc → r = .ok (.count n) →
    ∃ s ∈ h, HandledSome (worlds h) (sc.due s.recurring) n

theorem recurringRely_trans {i : ℕ} {h₁ h₂ h₃ : List Schedules} (h : recurringRely i h₁ h₂)
    (h' : recurringRely i h₂ h₃) : recurringRely i h₁ h₃ :=
  ⟨fun s hs => h'.1 s (h.1 s hs), rely_trans h.2 h'.2⟩

theorem recurringRely_refl (i : ℕ) (h : List Schedules) : recurringRely i h h :=
  ⟨fun _ hs => hs, rely_refl i _⟩

theorem recurringRely_own {i : ℕ} {s s' : Schedules} {past : List Schedules}
    (h : Keeps i s.world s'.world) : recurringRely i (s :: past) (s' :: s :: past) :=
  ⟨fun _ hx => List.mem_cons_of_mem _ hx, rely_own h⟩

/-- The discipline of the calls on schedules. -/
def recurrings (env : Env) : Discipline Schedules Error RecurringAnswer RecurringCall where
  rely := recurringRely
  guar i c h s' := ∃ s₁, recurringGuar env i c s₁ h s'
  post := recurringPromise
  rely_trans := recurringRely_trans
  rely_of_guar := by
    rintro i j c s past s' hij ⟨s₁, hg⟩
    exact recurringRely_own ((hg _ _ rfl).2 _ (Ne.symm hij))
  post_mono := by
    intro c h s r hp sc n hc hr
    obtain ⟨s₁, hs₁, hsome⟩ := hp sc n hc hr
    exact ⟨s₁, List.mem_cons_of_mem _ hs₁, hsome.mono fun _ hw => List.mem_cons_of_mem _ hw⟩

section Follows

variable {env : Env} {i : ℕ} {c : RecurringCall} {s₁ : Schedules} {h : List Schedules} {α : Type}

theorem recurringGuar_idle {s : Schedules} {past : List Schedules} :
    recurringGuar env i c s₁ (s :: past) s := by
  intro x px hx
  cases hx
  exact ⟨.quiet rfl rfl, fun _ _ => keeps_of_eq rfl rfl⟩

/-- A query leaves everything as it is. -/
theorem find_follows {f : Schedules → α} {Q : List Schedules → Except Error α → Prop}
    (hQ : ∀ s past, recurringRely i h (s :: past) → Q (s :: s :: past) (.ok (f s))) :
    (find f).Follows (recurringRely i) (recurringGuar env i c s₁) Q h :=
  Prog.follows_read fun s past hR => ⟨recurringGuar_idle, hQ s past hR⟩

/-- A query, then more. -/
theorem find_bind_follows {β : Type} {f : Schedules → α} {k : α → RecurringService β}
    {Q : List Schedules → Except Error β → Prop}
    (hk : ∀ s past, (k (f s)).Follows (recurringRely i) (recurringGuar env i c s₁) Q
      (s :: s :: past)) :
    (find f >>= k).Follows (recurringRely i) (recurringGuar env i c s₁) Q h :=
  Prog.follows_bind (find_follows fun s past _ => hk s past)

/-- A statement on the schedules, that a change allows. -/
theorem statement_follows {Q : List Schedules → Except Error α → Prop}
    {body : Table Uuid RecurringTransfer → Except Error (α × Table Uuid RecurringTransfer)}
    (hok : ∀ s past a T, recurringRely i h (s :: past) → body s.recurring = .ok (a, T) →
      RecurringChange env s₁ (worlds (s :: past)) s { s with recurring := T } c ∧
        Q ({ s with recurring := T } :: s :: past) (.ok a))
    (herr : ∀ e h', Q h' (.error e)) :
    (statement body).Follows (recurringRely i) (recurringGuar env i c s₁) Q h := by
  refine Prog.follows_attempt (fun s past a s' hR _ hb => ?_)
    fun s past e _ _ _ => ⟨recurringGuar_idle, herr e _⟩
  cases hbody : body s.recurring with
  | error e => simp [hbody, Except.map] at hb
  | ok r =>
    simp only [hbody, Except.map, Except.ok.injEq, Prod.mk.injEq] at hb
    obtain ⟨rfl, rfl⟩ := hb
    obtain ⟨hchange, hQ⟩ := hok s past r.1 r.2 hR hbody
    refine ⟨fun x px hx => ?_, hQ⟩
    cases hx
    exact ⟨hchange, fun _ _ => keeps_of_eq rfl rfl⟩

/-- A call of the bank changes no schedule. -/
theorem zoom_follows {p : Service α} {bc : Call} {Q : List World → Except Error α → Prop}
    (hp : p.Follows (rely i) (guar env i bc) Q (worlds h))
    (hchange : ∀ {h : List World} {s s' : Schedules},
      Change env h s.world.db s'.world.db bc → s'.recurring = s.recurring →
        RecurringChange env s₁ h s s' c) :
    (p.zoom worldPart).Follows (recurringRely i) (recurringGuar env i c s₁)
      (fun h r => Q (worlds h) r) h := by
  refine Prog.Follows.zoom hp (fun _ _ hR => hR.2) (fun s past w hguar x px hx => ?_)
    fun _ _ hQ => hQ
  cases hx
  obtain ⟨hbank, hkeeps⟩ := hguar s.world (past.map Schedules.world) rfl
  exact ⟨hchange hbank rfl, hkeeps⟩

/-- A call of an owner may do anything to the schedules. -/
theorem owners_follows {body : Table Uuid RecurringTransfer →
      Except Error (α × Table Uuid RecurringTransfer)} (hc : c.isOwners = true) :
    (statement body).Follows (recurringRely i) (recurringGuar env i c s₁) (fun _ _ => True) h :=
  statement_follows (fun _ _ _ _ _ _ => ⟨.edited hc rfl, trivial⟩) fun _ _ => trivial

theorem findOwn_follows (userId id : Uuid) : (findOwn userId id).Follows (recurringRely i)
    (recurringGuar env i c s₁) (fun _ _ => True) h := by
  refine find_bind_follows fun s past => ?_
  cases s.recurring.lookup id with
  | none => exact Prog.follows_throw trivial
  | some existing =>
    simp only
    split
    · exact Prog.follows_throw trivial
    · exact Prog.follows_pure trivial

theorem create_follows (cc : CreateCall) : (create cc).Follows (recurringRely i)
    (recurringGuar env i (.create cc) s₁) (fun _ _ => True) h := by
  refine find_bind_follows fun s past => find_bind_follows fun s' past' => ?_
  split
  · exact Prog.follows_throw trivial
  · split
    · exact Prog.follows_throw trivial
    · exact owners_follows rfl

theorem update_follows (uc : UpdateCall) : (update uc).Follows (recurringRely i)
    (recurringGuar env i (.update uc) s₁) (fun _ _ => True) h :=
  (findOwn_follows _ _).seq fun _ _ => owners_follows rfl

theorem cancel_follows (userId id : Uuid) : (cancel userId id).Follows (recurringRely i)
    (recurringGuar env i (.cancel userId id) s₁) (fun _ _ => True) h :=
  (findOwn_follows _ _).seq fun _ _ => owners_follows rfl

/-- The row of a schedule is moved on after there was a transfer for the occurrence. -/
theorem runRow_follows {sc : ScanCall} {id : Uuid} {r : RecurringTransfer}
    (hdue : (id, r) ∈ sc.due s₁.recurring) :
    (runRow env i sc id r).Follows (recurringRely i) (recurringGuar env i (.scan sc) s₁)
      (fun h' res => ∀ row, res = .ok row → Handled (worlds h') id r) h := by
  refine Prog.follows_bind (Prog.Follows.imp (zoom_follows (initiate_follows (worlds h))
    (.fired hdue)) fun h₁ res hres => ?_)
  cases res with
  | error e => exact fun row hrow => by cases hrow
  | ok res =>
    obtain ⟨t, hseen, hkey, huser⟩ := hres res rfl
    have hhandled : Handled (worlds h₁) id r := ⟨_, t, hseen, hkey, huser⟩
    refine statement_follows (fun s past a T hR hb => ?_) fun e h' row hrow => by cases hrow
    have hpast : Handled (worlds (s :: past)) id r := hhandled.mono hR.2.1
    unfold updateRow at hb
    split at hb
    · cases hb
    · rename_i row hrow
      cases hb
      exact ⟨.rescheduled hdue hpast rfl ⟨row, hrow, rfl⟩,
        fun _ _ => hpast.mono fun _ hw => List.mem_cons_of_mem _ hw⟩

/-- The loop over the schedules that were read. -/
theorem runRows_follows {sc : ScanCall} (due : List (Uuid × RecurringTransfer)) (count : ℕ)
    (hdue : ∀ e ∈ due, e ∈ sc.due s₁.recurring) (h : List Schedules) :
    (runRows env i sc due count).Follows (recurringRely i) (recurringGuar env i (.scan sc) s₁)
      (fun h' res => ∀ n, res = .ok n → ∃ m, HandledSome (worlds h') due m ∧ n = count + m) h := by
  induction due generalizing count h with
  | nil => exact Prog.follows_pure fun n hn => ⟨0, ⟨[], .slnil, rfl, by simp⟩, by cases hn; rfl⟩
  | cons e due ih =>
    obtain ⟨id, r⟩ := e
    have hrest : ∀ e ∈ due, e ∈ sc.due s₁.recurring := fun e he => hdue e (List.mem_cons_of_mem _ he)
    refine Prog.follows_bind (Prog.follows_tryCatch (Prog.follows_bind
      ((runRow_follows (hdue _ List.mem_cons_self)).imp fun h₁ res hres => ?_)))
    cases res with
    | error err =>
      refine Prog.follows_pure ((ih count hrest h₁).imp fun h₂ res hrows n hn => ?_)
      obtain ⟨m, ⟨rows, hsub, hlength, hhandled⟩, hm⟩ := hrows n hn
      exact ⟨m, ⟨rows, hsub.cons _, hlength, hhandled⟩, hm⟩
    | ok row =>
      obtain ⟨x, t, ⟨w, hw, ht⟩, hkey⟩ := hres row rfl
      obtain ⟨s, hs, rfl⟩ := List.mem_map.1 hw
      -- the transfer was seen, and stays seen while the loop goes on
      have hloop := (ih (count + 1) hrest h₁).remembers (fun _ _ hR => hR.1) hs
      refine Prog.follows_pure (hloop.imp fun h₂ res hrows n hn => ?_)
      obtain ⟨m, ⟨rows, hsub, hlength, hhandled⟩, hm⟩ := hrows.1 n hn
      have hseen : Seen (worlds h₂) x t := ⟨s.world, List.mem_map_of_mem hrows.2, ht⟩
      refine ⟨m + 1, ⟨(id, r) :: rows, hsub.cons_cons _, ?_, ?_⟩, by omega⟩
      · rw [List.length_cons, hlength]
      · exact List.forall_mem_cons.2 ⟨⟨x, t, hseen, hkey⟩, hhandled⟩

/-- **Every call keeps to its guarantee**, in whatever company: what a scan makes transfers for, and
moves on, are the schedules that it read when it began. -/
theorem recurring_begins (env : Env) (i : ℕ) (c : RecurringCall) (h : List Schedules) :
    (recurringProgram env i c).Begins (recurringRely i) (recurringGuar env i c)
      (recurringPromise c) h := by
  have hnone : ∀ {c h r}, (∀ sc, c ≠ .scan sc) → recurringPromise c h r :=
    fun hc sc n hsc => absurd hsc (hc sc)
  cases c with
  | create cc =>
    refine Prog.Follows.begins (fun s₁ => ?_) fun _ => hnone (by simp)
    exact ((create_follows cc).seq fun _ _ => Prog.follows_pure trivial).imp
      fun _ _ _ => hnone (by simp)
  | update uc =>
    refine Prog.Follows.begins (fun s₁ => ?_) fun _ => hnone (by simp)
    exact ((update_follows uc).seq fun _ _ => Prog.follows_pure trivial).imp
      fun _ _ _ => hnone (by simp)
  | cancel userId id =>
    refine Prog.Follows.begins (fun s₁ => ?_) fun _ => hnone (by simp)
    exact ((cancel_follows userId id).seq fun _ _ => Prog.follows_pure trivial).imp
      fun _ _ _ => hnone (by simp)
  | bank bc =>
    refine Prog.Follows.begins (fun s₁ => ?_) fun _ => hnone (by simp)
    have hbank : ((program env i bc).zoom worldPart).Follows (recurringRely i)
        (recurringGuar env i (.bank bc) s₁) (fun _ _ => True) h :=
      (zoom_follows (program_follows env i bc (worlds h)) .banked).imp fun _ _ _ => trivial
    exact (hbank.seq fun _ _ => Prog.follows_pure trivial).imp fun _ _ _ => hnone (by simp)
  | scan sc =>
    simp only [recurringProgram, runDueNow, bind_assoc]
    refine Prog.begins_read fun s past hR => ⟨recurringGuar_idle, Prog.follows_bind ?_⟩
    refine ((runRows_follows (sc.due s.recurring) 0 (fun _ he => he) (s :: s :: past)).remembers
      (fun _ _ hR => hR.1) List.mem_cons_self).imp fun h' res hres => ?_
    cases res with
    | error e =>
      intro _ _ _ hr
      cases hr
    | ok n =>
      refine Prog.follows_pure fun sc' n' hc hn => ?_
      cases hc
      cases hn
      obtain ⟨m, hsome, hm⟩ := hres.1 n rfl
      rw [Nat.zero_add] at hm
      subst hm
      exact ⟨s, hres.2, hsome⟩

end Follows

end BankDemo.Recurring
