import BankDemo.Foundations.Prog
import Mathlib.Data.List.Pairwise

/-!
# Interleavings

A pool of threads over one shared state: each thread is a call (what was asked for) and the rest
of its program. Calls may start at any time and in any number, and at any time any thread whose
next action is ready may take it. `Run` collects these runs, with the list of the steps taken,
the newest first; a thread that is never scheduled again is a crashed one.

* `Run.follows` is the rule for runs: when every program keeps to its guarantee whatever the
  others do within theirs (`Prog.Follows`), every step of every run keeps to the guarantee of the
  thread that took it, and every finished thread has an outcome its program promised.
* `Discipline.Steps.induct` and `Discipline.Steps.invariant` are induction over the steps of such
  a run, `Discipline.Steps.after` over those after a given step, and `Discipline.sum` puts two
  families of calls together.
* `Run.upholds` is the rule for runs whose programs rely on, and guarantee, relations between two
  states (`Prog.Upholds`).
* `Run.each`: what every action of every program does, every step does.
* `Run.invariant`: an invariant that every program keeps.
* `Run.failed_same`: a thread that failed has changed nothing, when its program's errors are clean.
* `Run.begins`: the rule for runs under guarantees that refer to the state a thread began in
  (`begun`).
* `Run.does`: the rule for runs under guarantees that refer to the steps a thread took itself
  (`own`), and `Run.induct` and `Run.induct_before`, induction over the steps of a run.
* `underWay` lists the threads that are in some phase of their call, by the steps they took.
* `Run.stable`: a value that appears at most once is related to what it is later.
* `Serial` is the sequences of calls, each as one step (`serially` runs a given one).
* `exec` runs a given schedule, so that a concrete interleaving can be evaluated (`exec_run`).
-/

namespace BankDemo

variable {σ ε α κ : Type}

/-- A call and the rest of its program. -/
structure Thread (σ ε α κ : Type) where
  call : κ
  rest : Prog σ ε α

/-- Threads over a shared state. -/
structure Pool (σ ε α κ : Type) where
  state : σ
  threads : List (Thread σ ε α κ)

/-- A step of a run: who took it, and the state before and after. -/
structure Step (σ κ : Type) where
  tid : ℕ
  call : κ
  pre : σ
  post : σ

/-- At most one step of a run has the property. -/
def AtMostOnce (p : Step σ κ → Prop) (tr : List (Step σ κ)) : Prop :=
  tr.Pairwise fun x y => p x → ¬ p y

theorem AtMostOnce.imp {p q : Step σ κ → Prop} {tr : List (Step σ κ)} (h : AtMostOnce p tr)
    (hqp : ∀ x ∈ tr, q x → p x) : AtMostOnce q tr :=
  List.Pairwise.imp_of_mem (fun hx hy hp hqx hqy => hp (hqp _ hx hqx) (hqp _ hy hqy)) h

theorem AtMostOnce.cons {p : Step σ κ → Prop} {x : Step σ κ} {tr : List (Step σ κ)}
    (h : AtMostOnce p tr) (hx : p x → ∀ y ∈ tr, ¬ p y) : AtMostOnce p (x :: tr) :=
  List.pairwise_cons.2 ⟨fun y hy hpx => hx hpx y hy, h⟩

theorem AtMostOnce.eq {p : Step σ κ → Prop} {tr : List (Step σ κ)} (h : AtMostOnce p tr)
    {x y : Step σ κ} (hx : x ∈ tr) (hy : y ∈ tr) (hpx : p x) (hpy : p y) : x = y := by
  by_contra hne
  have hsymm : Std.Symm fun x y : Step σ κ => p x → ¬ p y := ⟨fun _ _ h hy hx => h hx hy⟩
  exact List.Pairwise.forall h hx hy hne hpx hpy

/-- Elements that do not keep apart are at one place, where the elements of the list do. -/
theorem place_eq {τ : Type} {R : τ → τ → Prop} {l : List τ} (h : l.Pairwise R) {i j : ℕ} {a b : τ}
    (hi : l[i]? = some a) (hj : l[j]? = some b) (hab : ¬ R a b) (hba : ¬ R b a) : i = j := by
  obtain ⟨hilt, rfl⟩ := List.getElem?_eq_some_iff.1 hi
  obtain ⟨hjlt, rfl⟩ := List.getElem?_eq_some_iff.1 hj
  have hpairwise := List.pairwise_iff_getElem.1 h
  rcases Nat.lt_trichotomy i j with hlt | heq | hlt
  · exact absurd (hpairwise i j hilt hjlt hlt) hab
  · exact heq
  · exact absurd (hpairwise j i hjlt hilt hlt) hba

/-- The states of a run that started in `s₀`, the newest first. -/
def visited (s₀ : σ) (tr : List (Step σ κ)) : List σ := tr.map Step.post ++ [s₀]

namespace Pool

/-- A new thread. Its number is the number of threads before it. -/
def spawn (prog : ℕ → κ → Prog σ ε α) (P : Pool σ ε α κ) (c : κ) : Pool σ ε α κ :=
  { P with threads := P.threads ++ [⟨c, prog P.threads.length c⟩] }

/-- Thread `i` goes on as `p`, in the state `s`. -/
def advance (P : Pool σ ε α κ) (i : ℕ) (c : κ) (p : Prog σ ε α) (s : σ) : Pool σ ε α κ :=
  { state := s, threads := P.threads.set i ⟨c, p⟩ }

/-- Thread `i` is of the call and has returned. -/
def Returned (P : Pool σ ε α κ) (i : ℕ) (c : κ) (a : α) : Prop :=
  (P.threads[i]?.map fun t => (t.call, t.rest.result)) = some (c, some (.ok a))

instance [DecidableEq κ] [DecidableEq ε] [DecidableEq α] (P : Pool σ ε α κ) (i : ℕ) (c : κ)
    (a : α) : Decidable (P.Returned i c a) :=
  inferInstanceAs (Decidable (_ = _))

theorem Returned.thread {P : Pool σ ε α κ} {i : ℕ} {c : κ} {a : α} (h : P.Returned i c a) :
    P.threads[i]? = some ⟨c, .ret a⟩ := by
  obtain ⟨⟨c', p⟩, ht, heq⟩ := Option.map_eq_some_iff.1 h
  cases p with
  | ret a' =>
    simp only [Prog.result, Prod.mk.injEq, Option.some.injEq, Except.ok.injEq] at heq
    rw [ht, heq.1, heq.2]
  | fail e => simp [Prog.result] at heq
  | act ready eff next => simp [Prog.result] at heq

theorem returned_iff {P : Pool σ ε α κ} {i : ℕ} {c : κ} {a : α} : P.Returned i c a ↔
    (P.threads.map Thread.call)[i]? = some c ∧
      (P.threads.map fun t => t.rest.result)[i]? = some (some (.ok a)) := by
  simp only [Returned, List.getElem?_map]
  cases P.threads[i]? with
  | none => simp
  | some t => simp

end Pool

/-- The runs from `s₀` with calls satisfying `ok`: the steps, newest first, and the pool reached. -/
inductive Run (prog : ℕ → κ → Prog σ ε α) (ok : κ → Prop) (s₀ : σ) :
    List (Step σ κ) → Pool σ ε α κ → Prop
  | start : Run prog ok s₀ [] ⟨s₀, []⟩
  | spawn {tr : List (Step σ κ)} {P : Pool σ ε α κ} {c : κ} (run : Run prog ok s₀ tr P)
      (hc : ok c) : Run prog ok s₀ tr (P.spawn prog c)
  | act {tr : List (Step σ κ)} {P : Pool σ ε α κ} {i : ℕ} {c : κ} {ready : σ → Bool}
      {eff : σ → σ} {next : σ → Prog σ ε α} (run : Run prog ok s₀ tr P)
      (hi : P.threads[i]? = some ⟨c, .act ready eff next⟩) (hr : ready P.state = true) :
      Run prog ok s₀ (⟨i, c, P.state, eff P.state⟩ :: tr)
        (P.advance i c (next P.state) (eff P.state))

namespace Run

variable {prog : ℕ → κ → Prog σ ε α} {ok : κ → Prop} {s₀ : σ} {tr : List (Step σ κ)}
  {P : Pool σ ε α κ}

/-- The newest state visited is the pool's. -/
theorem visited_eq (hrun : Run prog ok s₀ tr P) : ∃ past, visited s₀ tr = P.state :: past := by
  induction hrun with
  | start => exact ⟨[], rfl⟩
  | spawn _ _ ih => exact ih
  | act _ _ _ ih => exact ⟨_, rfl⟩

/-- The thread at a place of a pool after a spawn: an old one, or the new one. -/
theorem thread_spawn {i : ℕ} {c : κ} {t : Thread σ ε α κ}
    (ht : (P.spawn prog c).threads[i]? = some t) :
    P.threads[i]? = some t ∨ (i = P.threads.length ∧ t = ⟨c, prog i c⟩) := by
  simp only [Pool.spawn, List.getElem?_append, List.getElem?_singleton] at ht
  split at ht
  · exact .inl ht
  · split at ht
    · have hi : i = P.threads.length := by omega
      subst hi
      exact .inr ⟨rfl, (Option.some.inj ht).symm⟩
    · cases ht

/-- The thread at a place of a pool after thread `j` went on. -/
theorem thread_advance {i j : ℕ} {c : κ} {p : Prog σ ε α} {s : σ} {t : Thread σ ε α κ}
    (ht : (P.advance j c p s).threads[i]? = some t) :
    (j = i ∧ t = ⟨c, p⟩) ∨ (j ≠ i ∧ P.threads[i]? = some t) := by
  simp only [Pool.advance, List.getElem?_set] at ht
  split at ht
  · rename_i hji
    split at ht
    · exact .inl ⟨hji, (Option.some.inj ht).symm⟩
    · cases ht
  · rename_i hji
    exact .inr ⟨hji, ht⟩

/-- The calls of a run are among those allowed. -/
theorem call_ok (hrun : Run prog ok s₀ tr P) {i : ℕ} {t : Thread σ ε α κ}
    (ht : P.threads[i]? = some t) : ok t.call := by
  induction hrun generalizing i t with
  | start => simp at ht
  | spawn _ hc ih =>
    rcases thread_spawn ht with ht | ⟨-, rfl⟩
    · exact ih ht
    · exact hc
  | act _ hj _ ih =>
    rcases thread_advance ht with ⟨-, rfl⟩ | ⟨-, ht⟩
    · have hc := ih hj
      exact hc
    · exact ih ht

/-- The thread of a step is still there, with its call. -/
theorem thread_of_step (hrun : Run prog ok s₀ tr P) {x : Step σ κ} (hx : x ∈ tr) :
    ∃ t, P.threads[x.tid]? = some t ∧ t.call = x.call := by
  have hset : ∀ {P : Pool σ ε α κ} {i j : ℕ} {c : κ} {p p' : Prog σ ε α} {s : σ}
      {t : Thread σ ε α κ}, P.threads[j]? = some ⟨c, p'⟩ → P.threads[i]? = some t →
      ∃ t', (P.advance j c p s).threads[i]? = some t' ∧ t'.call = t.call := by
    intro P i j c p p' s t hj hi
    simp only [Pool.advance, List.getElem?_set]
    by_cases hij : j = i
    · subst hij
      obtain rfl := Option.some.inj (hj.symm.trans hi)
      rw [if_pos rfl, if_pos (List.getElem?_eq_some_iff.1 hj).1]
      exact ⟨_, rfl, rfl⟩
    · rw [if_neg hij]
      exact ⟨t, hi, rfl⟩
  induction hrun with
  | start => simp at hx
  | spawn _ _ ih =>
    obtain ⟨t, ht, hc⟩ := ih hx
    refine ⟨t, ?_, hc⟩
    simp only [Pool.spawn]
    rw [List.getElem?_append_left (List.getElem?_eq_some_iff.1 ht).1]
    exact ht
  | act run hj _ ih =>
    rcases List.mem_cons.1 hx with rfl | hx
    · exact hset hj hj
    · obtain ⟨t, ht, hc⟩ := ih hx
      obtain ⟨t', ht', hc'⟩ := hset hj ht
      exact ⟨t', ht', hc'.trans hc⟩

/-- The steps of a thread are of one call. -/
theorem call_eq (hrun : Run prog ok s₀ tr P) {x y : Step σ κ} (hx : x ∈ tr) (hy : y ∈ tr)
    (htid : x.tid = y.tid) : x.call = y.call := by
  obtain ⟨t, ht, hc⟩ := hrun.thread_of_step hx
  obtain ⟨t', ht', hc'⟩ := hrun.thread_of_step hy
  rw [htid, ht'] at ht
  obtain rfl := Option.some.inj ht
  exact hc.symm.trans hc'

/-- The calls of the steps of a run are among those allowed. -/
theorem step_ok (hrun : Run prog ok s₀ tr P) {x : Step σ κ} (hx : x ∈ tr) : ok x.call := by
  induction hrun with
  | start => simp at hx
  | spawn _ _ ih => exact ih hx
  | act run hj _ ih =>
    rcases List.mem_cons.1 hx with rfl | hx
    · have hc := run.call_ok hj
      exact hc
    · exact ih hx

end Run

/-! ## The rule for runs -/

/-- A discipline for the threads of a pool: what thread `i` relies on between its actions, what
its actions guarantee to the others, and what it promises about its outcome. -/
structure Discipline (σ ε α κ : Type) where
  rely : ℕ → List σ → List σ → Prop
  guar : ℕ → κ → List σ → σ → Prop
  post : κ → List σ → Except ε α → Prop
  rely_trans : ∀ {i h₁ h₂ h₃}, rely i h₁ h₂ → rely i h₂ h₃ → rely i h₁ h₃
  /-- A thread's actions are within what the others rely on. -/
  rely_of_guar : ∀ {i j c s past s'}, i ≠ j → guar i c (s :: past) s' →
    rely j (s :: past) (s' :: s :: past)
  /-- Promises about outcomes are stable. -/
  post_mono : ∀ {c h s} {r : Except ε α}, post c h r → post c (s :: h) r

/-- The steps of a run, newest first, keep to the discipline. -/
inductive Discipline.Steps (D : Discipline σ ε α κ) (s₀ : σ) : List (Step σ κ) → Prop
  | nil : D.Steps s₀ []
  | cons {tr : List (Step σ κ)} {x : Step σ κ} {past : List σ} (steps : D.Steps s₀ tr)
      (hpre : visited s₀ tr = x.pre :: past) (hx : D.guar x.tid x.call (x.pre :: past) x.post) :
      D.Steps s₀ (x :: tr)

variable {prog : ℕ → κ → Prog σ ε α} {ok : κ → Prop} {s₀ : σ} {tr : List (Step σ κ)}
  {P : Pool σ ε α κ}

/-- **The rule for runs**: programs that follow the discipline in company make runs that keep to
it, with every thread still following it from where it is. -/
theorem Run.follows (D : Discipline σ ε α κ)
    (hprog : ∀ i c h, ok c → (prog i c).Follows (D.rely i) (D.guar i c) (D.post c) h)
    (hrefl : ∀ i h, D.rely i h h)
    (hrun : Run prog ok s₀ tr P) :
    D.Steps s₀ tr ∧ ∀ (i : ℕ) (t : Thread σ ε α κ), P.threads[i]? = some t →
      t.rest.Follows (D.rely i) (D.guar i t.call) (D.post t.call) (visited s₀ tr) := by
  induction hrun with
  | start => exact ⟨.nil, fun i t ht => by simp at ht⟩
  | @spawn tr P c run hc ih =>
    refine ⟨ih.1, fun i t ht => ?_⟩
    rcases thread_spawn ht with ht | ⟨-, rfl⟩
    · exact ih.2 i t ht
    · exact hprog _ _ _ hc
  | @act tr P j c ready eff next run hj hr ih =>
    obtain ⟨past, hpast⟩ := run.visited_eq
    have hthread := ih.2 j _ hj
    rw [hpast] at hthread
    obtain ⟨hguar, hnext⟩ := hthread P.state past (hrefl _ _) hr
    have hvis : visited s₀ (⟨j, c, P.state, eff P.state⟩ :: tr) =
        eff P.state :: P.state :: past := by
      rw [← hpast]; rfl
    refine ⟨.cons ih.1 hpast hguar, fun i t ht => ?_⟩
    rw [hvis]
    rcases thread_advance ht with ⟨rfl, rfl⟩ | ⟨hij, ht⟩
    · exact hnext
    · -- another thread: what `j` did is within what it relies on
      have hi := ih.2 i t ht
      rw [hpast] at hi
      have hrely := D.rely_of_guar hij hguar
      exact hi.rely (fun h₂ h => D.rely_trans hrely h) (fun r hQ => D.post_mono hQ)

/-- The outcome of a finished thread is as promised. -/
theorem Run.outcome (D : Discipline σ ε α κ)
    (hprog : ∀ i c h, ok c → (prog i c).Follows (D.rely i) (D.guar i c) (D.post c) h)
    (hrefl : ∀ i h, D.rely i h h) (hrun : Run prog ok s₀ tr P) {i : ℕ} {c : κ} {a : α}
    (ht : P.threads[i]? = some ⟨c, .ret a⟩) : D.post c (visited s₀ tr) (.ok a) :=
  (hrun.follows D hprog hrefl).2 i _ ht

/-! ## Reasoning about the steps of a run -/

theorem visited_append (later earlier : List (Step σ κ)) :
    visited s₀ (later ++ earlier) = later.map Step.post ++ visited s₀ earlier := by
  simp [visited]

/-- A step of a run keeps to the discipline after the steps before it. -/
theorem Discipline.Steps.split {D : Discipline σ ε α κ} {later earlier : List (Step σ κ)}
    {x : Step σ κ} (hsteps : D.Steps s₀ (later ++ x :: earlier)) :
    D.Steps s₀ earlier ∧ ∃ past, visited s₀ earlier = x.pre :: past ∧
      D.guar x.tid x.call (visited s₀ earlier) x.post := by
  induction later with
  | nil =>
    cases hsteps with
    | @cons _ _ past steps hpre hx =>
      rw [hpre]
      exact ⟨steps, past, rfl, hx⟩
  | cons y later ih =>
    cases hsteps with
    | cons steps _ _ => exact ih steps

/-- An invariant of the histories of a run. -/
theorem Discipline.Steps.invariant {D : Discipline σ ε α κ} {I : List σ → Prop}
    (hsteps : D.Steps s₀ tr) (hstart : I [s₀])
    (hstep : ∀ x ∈ tr, ∀ past, (∀ s ∈ x.pre :: past, s ∈ visited s₀ tr) → I (x.pre :: past) →
      D.guar x.tid x.call (x.pre :: past) x.post → I (x.post :: x.pre :: past)) :
    I (visited s₀ tr) := by
  induction hsteps with
  | nil => exact hstart
  | @cons tr x past steps hpre hx ih =>
    have hvisited : visited s₀ (x :: tr) = x.post :: visited s₀ tr := rfl
    have hI : I (x.pre :: past) := by
      rw [← hpre]
      refine ih fun y hy past' hpast => hstep y (List.mem_cons_of_mem _ hy) past' fun s hs => ?_
      rw [hvisited]
      exact List.mem_cons_of_mem _ (hpast s hs)
    rw [hvisited, hpre]
    refine hstep x List.mem_cons_self past (fun s hs => ?_) hI hx
    rw [hvisited, hpre]
    exact List.mem_cons_of_mem _ hs

/-- An invariant of the steps of a run and the state they lead to. -/
theorem Discipline.Steps.induct_split {D : Discipline σ ε α κ} {I : List (Step σ κ) → σ → Prop}
    (hsteps : D.Steps s₀ tr) (hstart : I [] s₀)
    (hstep : ∀ later x earlier past, tr = later ++ x :: earlier → D.Steps s₀ earlier →
      visited s₀ earlier = x.pre :: past → I earlier x.pre →
      D.guar x.tid x.call (visited s₀ earlier) x.post → I (x :: earlier) x.post) :
    ∀ s past, visited s₀ tr = s :: past → I tr s := by
  induction hsteps with
  | nil =>
    intro s past hs
    cases hs
    exact hstart
  | @cons earlier x past steps hpre hx ih =>
    intro s past' hs
    cases hs
    have hI := ih (fun later y before past' hsplit =>
      hstep (x :: later) y before past' (by rw [hsplit]; rfl)) x.pre past hpre
    rw [← hpre] at hx
    exact hstep [] x earlier past rfl steps hpre hI hx

theorem Discipline.Steps.induct {D : Discipline σ ε α κ} {I : List (Step σ κ) → σ → Prop}
    (hsteps : D.Steps s₀ tr) (hstart : I [] s₀)
    (hstep : ∀ earlier x past, x ∈ tr → D.Steps s₀ earlier →
      visited s₀ earlier = x.pre :: past → I earlier x.pre →
      D.guar x.tid x.call (visited s₀ earlier) x.post → I (x :: earlier) x.post) :
    ∀ s past, visited s₀ tr = s :: past → I tr s :=
  hsteps.induct_split hstart fun later x earlier past hsplit =>
    hstep earlier x past (by rw [hsplit]; simp)

/-- The states of a run from a step on, and those before it. -/
theorem visited_from (later : List (Step σ κ)) (x : Step σ κ) (earlier : List (Step σ κ)) :
    visited s₀ (later ++ x :: earlier) = visited x.post later ++ visited s₀ earlier := by
  simp [visited]

/-- An invariant of the states from a step on. -/
theorem Discipline.Steps.after {D : Discipline σ ε α κ} {I : σ → Prop} {x : Step σ κ}
    {earlier later : List (Step σ κ)} (hsteps : D.Steps s₀ (later ++ x :: earlier))
    (hx : I x.post)
    (hstep : ∀ y mid past, y ∈ later → D.Steps s₀ (mid ++ x :: earlier) →
      visited s₀ (mid ++ x :: earlier) = y.pre :: past →
      (∀ z ∈ mid ++ x :: earlier, z ∈ later ++ x :: earlier) →
      D.guar y.tid y.call (y.pre :: past) y.post → I y.pre → I y.post) :
    (∀ y ∈ later, I y.pre) ∧ ∀ s past, visited x.post later = s :: past → I s := by
  induction later with
  | nil =>
    refine ⟨by simp, fun s past hs => ?_⟩
    cases hs
    exact hx
  | cons y later ih =>
    rw [List.cons_append] at hsteps
    cases hsteps with
    | @cons _ _ past steps hpre hguar =>
      have hmem : ∀ z ∈ later ++ x :: earlier, z ∈ y :: later ++ x :: earlier :=
        fun z hz => List.mem_cons_of_mem _ hz
      obtain ⟨hpres, hlast⟩ := ih steps fun z mid past hz hmid hpast hz' =>
        hstep z mid past (List.mem_cons_of_mem _ hz) hmid hpast fun v hv => hmem v (hz' v hv)
      have hy : I y.pre := by
        -- the state before `y` is the newest of those before
        cases hvisited : visited x.post later with
        | nil => simp [visited] at hvisited
        | cons s past' =>
          have hs := hlast s past' hvisited
          have hpre' := hpre
          rw [visited_from, hvisited] at hpre'
          obtain ⟨rfl, -⟩ := List.cons.inj hpre'
          exact hs
      refine ⟨List.forall_mem_cons.2 ⟨hy, hpres⟩, fun s past' hs => ?_⟩
      cases hs
      exact hstep y later past List.mem_cons_self steps hpre hmem hguar hy

/-- Two families of calls under one rely, as one. -/
def Discipline.sum {κ' : Type} (D : Discipline σ ε α κ) (D' : Discipline σ ε α κ')
    (hrely : D'.rely = D.rely) : Discipline σ ε α (κ ⊕ κ') where
  rely := D.rely
  guar i := Sum.elim (D.guar i) (D'.guar i)
  post := Sum.elim D.post D'.post
  rely_trans := D.rely_trans
  rely_of_guar := by
    intro i j c s past s' hij hguar
    cases c with
    | inl c => exact D.rely_of_guar hij hguar
    | inr c =>
      rw [← hrely]
      exact D'.rely_of_guar hij hguar
  post_mono := by
    intro c h s r hpost
    cases c with
    | inl c => exact D.post_mono hpost
    | inr c => exact D'.post_mono hpost

/-- **The rule for runs** under relations between two states. What a program needs to begin with
must be there from the start and be kept by the other threads. -/
theorem Run.upholds {R : ℕ → σ → σ → Prop} {G : ℕ → κ → σ → σ → Prop}
    {Q : ℕ → κ → Except ε α → σ → Prop} {pre : ℕ → σ → Prop} (hrefl : ∀ i s, R i s s)
    (htrans : ∀ {i s₁ s₂ s₃}, R i s₁ s₂ → R i s₂ s₃ → R i s₁ s₃)
    (hguar : ∀ {i j c s s'}, i ≠ j → G i c s s' → R j s s')
    (hpost : ∀ {i c r s s'}, R i s s' → Q i c r s → Q i c r s') (hstart : ∀ i, pre i s₀)
    (hkeep : ∀ {i s s'}, R i s s' → pre i s → pre i s')
    (hprog : ∀ i c s, ok c → pre i s → (prog i c).Upholds (R i) (G i c) (Q i c) s)
    (hrun : Run prog ok s₀ tr P) : (∀ x ∈ tr, G x.tid x.call x.pre x.post) ∧
      (∀ (i : ℕ) (t : Thread σ ε α κ), P.threads[i]? = some t →
        t.rest.Upholds (R i) (G i t.call) (Q i t.call) P.state) ∧
      ∀ i, P.threads.length ≤ i → pre i P.state := by
  induction hrun with
  | start => exact ⟨by simp, fun i t ht => by simp at ht, fun i _ => hstart i⟩
  | @spawn tr P c run hc ih =>
    obtain ⟨hsteps, hthreads, hpre⟩ := ih
    refine ⟨hsteps, fun i t ht => ?_, fun i hi => hpre i ?_⟩
    · rcases thread_spawn ht with ht | ⟨rfl, rfl⟩
      · exact hthreads i t ht
      · exact hprog _ _ _ hc (hpre _ (Nat.le_refl _))
    · simp only [Pool.spawn, List.length_append, List.length_singleton] at hi
      omega
  | @act tr P j c ready eff next run hj hr ih =>
    obtain ⟨hsteps, hthreads, hpre⟩ := ih
    obtain ⟨hstep, hnext⟩ := hthreads j _ hj P.state (hrefl _ _) hr
    refine ⟨List.forall_mem_cons.2 ⟨hstep, hsteps⟩, fun i t ht => ?_, fun i hi => ?_⟩
    · rcases thread_advance ht with ⟨rfl, rfl⟩ | ⟨hji, ht⟩
      · exact hnext
      · -- another thread: what `j` did is within what it relies on
        exact (hthreads i t ht).rely htrans hpost (hguar hji hstep)
    · simp only [Pool.advance, List.length_set] at hi
      have hj' := (List.getElem?_eq_some_iff.1 hj).1
      exact hkeep (hguar (by omega) hstep) (hpre i hi)

/-- What every action of a program does, from whatever state, every step of its thread does. -/
theorem Run.each {Q : κ → σ → σ → Prop} (hprog : ∀ i c, ok c → (prog i c).Each (Q c))
    (hrun : Run prog ok s₀ tr P) : (∀ x ∈ tr, Q x.call x.pre x.post) ∧
      ∀ (i : ℕ) (t : Thread σ ε α κ), P.threads[i]? = some t → t.rest.Each (Q t.call) := by
  induction hrun with
  | start => exact ⟨by simp, fun i t ht => by simp at ht⟩
  | spawn _ hc ih =>
    refine ⟨ih.1, fun i t ht => ?_⟩
    rcases thread_spawn ht with ht | ⟨-, rfl⟩
    · exact ih.2 i t ht
    · exact hprog _ _ hc
  | @act tr P j c ready eff next run hj hr ih =>
    obtain ⟨hstep, hnext⟩ := ih.2 j _ hj P.state
    refine ⟨fun x hx => ?_, fun i t ht => ?_⟩
    · rcases List.mem_cons.1 hx with rfl | hx
      · exact hstep
      · exact ih.1 x hx
    · rcases thread_advance ht with ⟨-, rfl⟩ | ⟨-, ht⟩
      · exact hnext
      · exact ih.2 i t ht

/-- **The rule for invariants**: what holds at the start and what every program keeps, a run keeps. -/
theorem Run.invariant {I : σ → Prop} (hprog : ∀ i c, ok c → (prog i c).Keeps I fun _ => True)
    (hstart : I s₀) (hrun : Run prog ok s₀ tr P) : I P.state ∧
      ∀ (i : ℕ) (t : Thread σ ε α κ), P.threads[i]? = some t → t.rest.Keeps I fun _ => True := by
  induction hrun with
  | start => exact ⟨hstart, fun i t ht => by simp at ht⟩
  | spawn _ hc ih =>
    refine ⟨ih.1, fun i t ht => ?_⟩
    rcases thread_spawn ht with ht | ⟨-, rfl⟩
    · exact ih.2 i t ht
    · exact hprog _ _ hc
  | @act tr P j c ready eff next run hj hr ih =>
    obtain ⟨hstep, hnext⟩ := ih.2 j _ hj P.state ih.1 hr
    refine ⟨hstep, fun i t ht => ?_⟩
    rcases thread_advance ht with ⟨-, rfl⟩ | ⟨-, ht⟩
    · exact hnext
    · exact ih.2 i t ht

/-! ## Errors that leave nothing behind -/

theorem Run.tid_lt (hrun : Run prog ok s₀ tr P) {x : Step σ κ} (hx : x ∈ tr) :
    x.tid < P.threads.length := by
  induction hrun with
  | start => simp at hx
  | spawn _ _ ih =>
    simp only [Pool.spawn, List.length_append, List.length_singleton]
    have hlt := ih hx
    omega
  | act _ hi _ ih =>
    simp only [Pool.advance, List.length_set]
    rcases List.mem_cons.1 hx with rfl | hx
    · exact (List.getElem?_eq_some_iff.1 hi).1
    · exact ih hx

/-- The steps of a thread whose program fails clean all keep the state, or it cannot fail any
more. -/
theorem Run.failsClean {same : σ → σ → Prop} {good : κ → Prop}
    (hprog : ∀ i c, good c → (prog i c).FailsClean same) (hrun : Run prog ok s₀ tr P)
    {i : ℕ} {t : Thread σ ε α κ} (ht : P.threads[i]? = some t) (hgood : good t.call) :
    ((∀ x ∈ tr, x.tid = i → same x.pre x.post) ∧ t.rest.FailsClean same) ∨
      t.rest.NeverFails := by
  induction hrun generalizing i t with
  | start => simp at ht
  | spawn run _ ih =>
    rcases thread_spawn ht with ht | ⟨rfl, rfl⟩
    · exact ih ht hgood
    · refine .inl ⟨fun x hx htid => ?_, hprog _ _ hgood⟩
      have hlt := run.tid_lt hx
      omega
  | @act tr P j c ready eff next run hj hr ih =>
    rcases thread_advance ht with ⟨rfl, rfl⟩ | ⟨hne, ht⟩
    · rcases ih hj hgood with ⟨hold, hclean⟩ | hnever
      · rcases hclean P.state with ⟨hsame, hn⟩ | hn
        · refine .inl ⟨fun x hx htid => ?_, hn⟩
          rcases List.mem_cons.1 hx with rfl | hx
          · exact hsame
          · exact hold x hx htid
        · exact .inr hn
      · exact .inr (hnever P.state)
    · rcases ih ht hgood with ⟨hold, hclean⟩ | hnever
      · refine .inl ⟨fun x hx htid => ?_, hclean⟩
        rcases List.mem_cons.1 hx with rfl | hx
        · exact absurd htid hne
        · exact hold x hx htid
      · exact .inr hnever

/-- A thread that failed has changed nothing, if its program fails clean. -/
theorem Run.failed_same {same : σ → σ → Prop} {good : κ → Prop}
    (hprog : ∀ i c, good c → (prog i c).FailsClean same) (hrun : Run prog ok s₀ tr P)
    {i : ℕ} {c : κ} {e : ε} (ht : P.threads[i]? = some ⟨c, .fail e⟩) (hgood : good c) :
    ∀ x ∈ tr, x.tid = i → same x.pre x.post := by
  rcases hrun.failsClean hprog ht hgood with ⟨hold, -⟩ | hnever
  · exact hold
  · exact hnever.elim

/-! ## What threads found when they began -/

/-- The state that thread `i` found at its first step, the steps being given newest first. -/
def begun (i : ℕ) : List (Step σ κ) → Option σ
  | [] => none
  | x :: earlier => match begun i earlier with
    | some s => some s
    | none => if x.tid = i then some x.pre else none

theorem begun_eq_none {i : ℕ} {tr : List (Step σ κ)} (h : ∀ x ∈ tr, x.tid ≠ i) :
    begun i tr = none := by
  induction tr with
  | nil => rfl
  | cons x earlier ih =>
    have hrest := ih fun y hy => h y (List.mem_cons_of_mem _ hy)
    simp only [begun, hrest]
    exact if_neg (h x List.mem_cons_self)

theorem begun_cons_of_ne {i : ℕ} {x : Step σ κ} {tr : List (Step σ κ)} (h : x.tid ≠ i) :
    begun i (x :: tr) = begun i tr := by
  simp only [begun]
  cases begun i tr with
  | some s => rfl
  | none => exact if_neg h

theorem begun_cons_of_some {i : ℕ} {x : Step σ κ} {tr : List (Step σ κ)} {s : σ}
    (h : begun i tr = some s) : begun i (x :: tr) = some s := by
  simp only [begun, h]

/-- What thread `i` found does not change. -/
theorem begun_append {i : ℕ} {tr : List (Step σ κ)} {s : σ} (h : begun i tr = some s)
    (later : List (Step σ κ)) : begun i (later ++ tr) = some s := by
  induction later with
  | nil => exact h
  | cons x later ih => exact begun_cons_of_some ih

/-- A thread that takes a step has begun. -/
theorem begun_self (x : Step σ κ) (earlier : List (Step σ κ)) :
    ∃ s, begun x.tid (x :: earlier) = some s := by
  simp only [begun]
  cases begun x.tid earlier with
  | some s => exact ⟨s, rfl⟩
  | none => exact ⟨x.pre, by simp⟩

theorem begun_split {i : ℕ} {tr : List (Step σ κ)} {s : σ} (h : begun i tr = some s) :
    ∃ later y earlier, tr = later ++ y :: earlier ∧ y.tid = i ∧ y.pre = s := by
  induction tr with
  | nil => cases h
  | cons x tr ih =>
    simp only [begun] at h
    cases hrest : begun i tr with
    | some s' =>
      simp only [hrest] at h
      obtain ⟨later, y, earlier, rfl, hy⟩ := ih (hrest.trans h)
      exact ⟨x :: later, y, earlier, rfl, hy⟩
    | none =>
      simp only [hrest] at h
      split at h
      · rename_i htid
        exact ⟨[], x, tr, rfl, htid, Option.some.inj h⟩
      · cases h

/-- The steps since thread `i` began, its first one included. -/
def sinceBegun (i : ℕ) : List (Step σ κ) → List (Step σ κ)
  | [] => []
  | x :: earlier => if (begun i (x :: earlier)).isSome then x :: sinceBegun i earlier else []

theorem mem_of_sinceBegun {i : ℕ} {tr : List (Step σ κ)} {y : Step σ κ}
    (hy : y ∈ sinceBegun i tr) : y ∈ tr := by
  induction tr with
  | nil => cases hy
  | cons x earlier ih =>
    rw [sinceBegun] at hy
    split at hy
    · rcases List.mem_cons.1 hy with rfl | hy
      · exact List.mem_cons_self
      · exact List.mem_cons_of_mem _ (ih hy)
    · cases hy

theorem mem_sinceBegun {i : ℕ} {later earlier : List (Step σ κ)} {y : Step σ κ} (hy : y.tid = i) :
    ∀ z ∈ later ++ [y], z ∈ sinceBegun i (later ++ y :: earlier) := by
  have hsome : ∀ later : List (Step σ κ), (begun i (later ++ y :: earlier)).isSome = true := by
    intro later
    obtain ⟨s, hs⟩ := begun_self y earlier
    rw [hy] at hs
    rw [begun_append hs later]
    rfl
  induction later with
  | nil =>
    intro z hz
    obtain rfl := List.mem_singleton.1 hz
    rw [List.nil_append, sinceBegun, if_pos (show (begun i (z :: earlier)).isSome from hsome [])]
    exact List.mem_cons_self
  | cons x later ih =>
    intro z hz
    rw [List.cons_append, sinceBegun,
      if_pos (show (begun i (x :: (later ++ y :: earlier))).isSome from hsome (x :: later))]
    rcases List.mem_cons.1 hz with rfl | hz
    · exact List.mem_cons_self
    · exact List.mem_cons_of_mem _ (ih z hz)

/-- Every step, with those after it and those before it, has the property; `later` are the steps
after them all. -/
def EachStep (p : List (Step σ κ) → Step σ κ → List (Step σ κ) → Prop) :
    List (Step σ κ) → List (Step σ κ) → Prop
  | _, [] => True
  | later, x :: earlier => p later x earlier ∧ EachStep p (later ++ [x]) earlier

instance decidableEachStep {p : List (Step σ κ) → Step σ κ → List (Step σ κ) → Prop}
    [∀ later x earlier, Decidable (p later x earlier)] :
    (later tr : List (Step σ κ)) → Decidable (EachStep p later tr)
  | _, [] => .isTrue trivial
  | later, x :: earlier =>
    have := decidableEachStep (p := p) (later ++ [x]) earlier
    inferInstanceAs (Decidable (p later x earlier ∧ EachStep p (later ++ [x]) earlier))

theorem EachStep.split {p : List (Step σ κ) → Step σ κ → List (Step σ κ) → Prop}
    {before later earlier : List (Step σ κ)} {x : Step σ κ}
    (h : EachStep p before (later ++ x :: earlier)) : p (before ++ later) x earlier := by
  induction later generalizing before with
  | nil =>
    rw [List.append_nil]
    exact h.1
  | cons y later ih =>
    have hrest := ih h.2
    rw [List.append_assoc] at hrest
    exact hrest

/-- The rule for runs under guarantees that refer to what a thread found when it began. -/
theorem Run.begins (D : Discipline σ ε α κ) {G : ℕ → κ → σ → List σ → σ → Prop}
    (hG : ∀ {i c s₁ h s'}, G i c s₁ h s' → D.guar i c h s')
    (hprog : ∀ i c h, ok c → (prog i c).Begins (D.rely i) (G i c) (D.post c) h)
    (hrefl : ∀ i h, D.rely i h h) (hrun : Run prog ok s₀ tr P) :
    (∀ later x earlier, tr = later ++ x :: earlier → ∃ s₁, begun x.tid (x :: earlier) = some s₁ ∧
      G x.tid x.call s₁ (visited s₀ earlier) x.post) ∧
    ∀ (i : ℕ) (t : Thread σ ε α κ), P.threads[i]? = some t → match begun i tr with
      | none => t.rest.Begins (D.rely i) (G i t.call) (D.post t.call) (visited s₀ tr)
      | some s₁ => t.rest.Follows (D.rely i) (G i t.call s₁) (D.post t.call) (visited s₀ tr) := by
  induction hrun with
  | start => exact ⟨by simp, fun i t ht => by simp at ht⟩
  | @spawn tr P c run hc ih =>
    refine ⟨ih.1, fun i t ht => ?_⟩
    rcases thread_spawn ht with ht | ⟨rfl, rfl⟩
    · exact ih.2 i t ht
    · rw [begun_eq_none fun x hx => Nat.ne_of_lt (run.tid_lt hx)]
      exact hprog _ _ _ hc
  | @act tr P j c ready eff next run hj hr ih =>
    obtain ⟨past, hpast⟩ := run.visited_eq
    have hthread := ih.2 j _ hj
    rw [hpast] at hthread
    have hvis : visited s₀ (⟨j, c, P.state, eff P.state⟩ :: tr) =
        eff P.state :: P.state :: past := by
      rw [← hpast]; rfl
    -- what the thread found when it began, and what it does and goes on to do
    have hstep : ∃ s₁, begun j (⟨j, c, P.state, eff P.state⟩ :: tr) = some s₁ ∧
        G j c s₁ (P.state :: past) (eff P.state) ∧ (next P.state).Follows (D.rely j) (G j c s₁)
          (D.post c) (eff P.state :: P.state :: past) := by
      cases hbegun : begun j tr with
      | none =>
        rw [hbegun] at hthread
        refine ⟨P.state, ?_, hthread P.state past (hrefl _ _) hr⟩
        simp only [begun, hbegun, if_true]
      | some s₁ =>
        rw [hbegun] at hthread
        exact ⟨s₁, begun_cons_of_some hbegun, hthread P.state past (hrefl _ _) hr⟩
    obtain ⟨s₁, hs₁, hguar, hnext⟩ := hstep
    refine ⟨fun later x earlier hsplit => ?_, fun i t ht => ?_⟩
    · cases later with
      | nil =>
        obtain ⟨rfl, rfl⟩ := List.cons.inj hsplit
        rw [hpast]
        exact ⟨s₁, hs₁, hguar⟩
      | cons y later =>
        exact ih.1 later x earlier (List.cons.inj hsplit).2
    · rw [hvis]
      rcases thread_advance ht with ⟨rfl, rfl⟩ | ⟨hij, ht⟩
      · rw [hs₁]
        exact hnext
      · have hi := ih.2 i t ht
        rw [begun_cons_of_ne hij]
        rw [hpast] at hi
        have hrely := D.rely_of_guar hij (hG hguar)
        cases hbegun : begun i tr with
        | none =>
          rw [hbegun] at hi
          exact hi.rely (fun h₂ h => D.rely_trans hrely h) (fun r hQ => D.post_mono hQ)
        | some s =>
          rw [hbegun] at hi
          exact hi.rely (fun h₂ h => D.rely_trans hrely h) (fun r hQ => D.post_mono hQ)

/-! ## What threads did -/

/-- The steps that thread `i` took, the newest first: the states it found and left. -/
def own (i : ℕ) (tr : List (Step σ κ)) : List (σ × σ) :=
  (tr.filter fun x => x.tid = i).map fun x => (x.pre, x.post)

theorem own_cons_self (x : Step σ κ) (tr : List (Step σ κ)) :
    own x.tid (x :: tr) = (x.pre, x.post) :: own x.tid tr := by
  simp [own]

theorem own_cons_of_ne {i : ℕ} {x : Step σ κ} {tr : List (Step σ κ)} (h : x.tid ≠ i) :
    own i (x :: tr) = own i tr := by
  simp [own, h]

theorem own_eq_nil {i : ℕ} {tr : List (Step σ κ)} (h : ∀ x ∈ tr, x.tid ≠ i) :
    own i tr = [] := by
  simp only [own, List.map_eq_nil_iff, List.filter_eq_nil_iff, decide_eq_true_eq]
  exact h

theorem mem_own {i : ℕ} {tr : List (Step σ κ)} {s s' : σ} :
    (s, s') ∈ own i tr ↔ ∃ x ∈ tr, x.tid = i ∧ x.pre = s ∧ x.post = s' := by
  simp only [own, List.mem_map, List.mem_filter, decide_eq_true_eq, and_assoc, Prod.mk.injEq]

/-- What a thread found at first is what its first step found. -/
theorem begun_eq_own (i : ℕ) (tr : List (Step σ κ)) :
    begun i tr = (own i tr).getLast?.map Prod.fst := by
  induction tr with
  | nil => rfl
  | cons x earlier ih =>
    by_cases htid : x.tid = i
    · subst htid
      rw [own_cons_self, List.getLast?_cons, Option.map_some, begun, ih]
      cases own x.tid earlier with
      | nil => simp
      | cons y l => simp [List.getLast?_cons]
    · rw [begun_cons_of_ne htid, own_cons_of_ne htid, ih]

/-- Where a thread's step is among all steps. -/
theorem own_eq_append {i : ℕ} {tr : List (Step σ κ)} {after before : List (σ × σ)} {y : σ × σ}
    (h : own i tr = after ++ y :: before) : ∃ later x earlier, tr = later ++ x :: earlier ∧
      x.tid = i ∧ (x.pre, x.post) = y ∧ own i later = after ∧ own i earlier = before := by
  obtain ⟨l₁, l₂, hfilter, hafter, hrest⟩ := List.map_eq_append_iff.1 h
  obtain ⟨later, rest, rfl, hlater, hl₂⟩ := List.filter_eq_append_iff.1 hfilter
  obtain ⟨x, l₃, rfl, hy, hbefore⟩ := List.map_eq_cons_iff.1 hrest
  obtain ⟨skip, earlier, rfl, hskip, hx, hearlier⟩ := List.filter_eq_cons_iff.1 hl₂
  refine ⟨later ++ skip, x, earlier, by simp, by simpa using hx, hy, ?_, ?_⟩
  · have hnone : skip.filter (fun x => x.tid = i) = [] := List.filter_eq_nil_iff.2 hskip
    simp only [own, List.filter_append, hnone, List.append_nil]
    rw [hlater, hafter]
  · simp only [own]
    rw [hearlier, hbefore]

/-- Where the last of a thread's steps is. -/
theorem own_eq_cons {i : ℕ} {tr : List (Step σ κ)} {before : List (σ × σ)} {y : σ × σ}
    (h : own i tr = y :: before) : ∃ later x earlier, tr = later ++ x :: earlier ∧
      x.tid = i ∧ (x.pre, x.post) = y ∧ own i later = [] ∧ own i earlier = before :=
  own_eq_append (show own i tr = [] ++ y :: before from h)

/-- **The rule for runs** under guarantees and promises that refer to a thread's own steps. -/
theorem Run.does {G : ℕ → κ → List (σ × σ) → Prop}
    {Q : ℕ → κ → List (σ × σ) → Except ε α → Prop}
    (hprog : ∀ i c, ok c → (prog i c).Does (G i c) (Q i c) []) (hrun : Run prog ok s₀ tr P) :
    (∀ later x earlier, tr = later ++ x :: earlier →
      G x.tid x.call ((x.pre, x.post) :: own x.tid earlier)) ∧
    ∀ (i : ℕ) (t : Thread σ ε α κ), P.threads[i]? = some t →
      t.rest.Does (G i t.call) (Q i t.call) (own i tr) := by
  induction hrun with
  | start => exact ⟨by simp, fun i t ht => by simp at ht⟩
  | @spawn tr P c run hc ih =>
    refine ⟨ih.1, fun i t ht => ?_⟩
    rcases thread_spawn ht with ht | ⟨rfl, rfl⟩
    · exact ih.2 i t ht
    · rw [own_eq_nil fun x hx => Nat.ne_of_lt (run.tid_lt hx)]
      exact hprog _ _ hc
  | @act tr P j c ready eff next run hj hr ih =>
    obtain ⟨hG, hnext⟩ := ih.2 j _ hj P.state hr
    refine ⟨fun later x earlier hsplit => ?_, fun i t ht => ?_⟩
    · cases later with
      | nil =>
        obtain ⟨rfl, rfl⟩ := List.cons.inj hsplit
        exact hG
      | cons y later => exact ih.1 later x earlier (List.cons.inj hsplit).2
    · rcases thread_advance ht with ⟨rfl, rfl⟩ | ⟨hij, ht⟩
      · rw [own_cons_self (⟨j, c, P.state, eff P.state⟩ : Step σ κ) tr]
        exact hnext
      · rw [own_cons_of_ne (x := ⟨j, c, P.state, eff P.state⟩) hij]
        exact ih.2 i t ht

theorem own_append (i : ℕ) (later earlier : List (Step σ κ)) :
    own i (later ++ earlier) = own i later ++ own i earlier := by
  simp [own]

/-- A step among the steps of its thread. -/
theorem own_split {later earlier : List (Step σ κ)} {x : Step σ κ}
    (hsplit : tr = later ++ x :: earlier) :
    own x.tid tr = own x.tid later ++ (x.pre, x.post) :: own x.tid earlier := by
  rw [hsplit, own_append, own_cons_self]

/-- The threads that are in a phase of their call, after thread `i` went on to `phase`, or to none. -/
def moveOn {φ : Type} (i : ℕ) (phase : Option φ) (busy : List (ℕ × φ)) : List (ℕ × φ) :=
  let others := busy.filter fun e => e.1 ≠ i
  match phase with
  | some p => (i, p) :: others
  | none => others

theorem mem_moveOn {φ : Type} {i j : ℕ} {phase : Option φ} {busy : List (ℕ × φ)} {p : φ} :
    (j, p) ∈ moveOn i phase busy ↔ (j = i ∧ phase = some p) ∨ (j ≠ i ∧ (j, p) ∈ busy) := by
  have hothers : (j, p) ∈ busy.filter (fun e => e.1 ≠ i) ↔ j ≠ i ∧ (j, p) ∈ busy := by
    rw [List.mem_filter, decide_eq_true_eq, and_comm]
  unfold moveOn
  cases phase with
  | none =>
    rw [hothers]
    simp
  | some q =>
    dsimp only
    rw [List.mem_cons, hothers, Prod.mk.injEq, Option.some.injEq, eq_comm (a := p)]

/-- The threads that are in a phase of their call, by the steps that they took themselves. -/
def underWay {φ : Type} (phase : κ → List (σ × σ) → Option φ) : List (Step σ κ) → List (ℕ × φ)
  | [] => []
  | x :: earlier =>
    moveOn x.tid (phase x.call ((x.pre, x.post) :: own x.tid earlier)) (underWay phase earlier)

theorem mem_underWay {φ : Type} {phase : κ → List (σ × σ) → Option φ} (hnew : ∀ c, phase c [] = none)
    {i : ℕ} {c : κ} {tr : List (Step σ κ)} (hcalls : ∀ y ∈ tr, y.tid = i → y.call = c) (p : φ) :
    (i, p) ∈ underWay phase tr ↔ phase c (own i tr) = some p := by
  induction tr with
  | nil => simp [underWay, own, hnew]
  | cons x earlier ih =>
    have hearlier := ih fun y hy => hcalls y (List.mem_cons_of_mem _ hy)
    rw [underWay, mem_moveOn]
    by_cases hi : x.tid = i
    · subst hi
      rw [hcalls x List.mem_cons_self rfl, own_cons_self]
      simp
    · rw [own_cons_of_ne hi]
      simp [Ne.symm hi, hearlier]

/-- Induction over the steps of a run. -/
theorem Run.induct {I : List (Step σ κ) → σ → Prop} (hrun : Run prog ok s₀ tr P)
    (hstart : I [] s₀)
    (hstep : ∀ later x earlier, tr = later ++ x :: earlier → I earlier x.pre →
      I (x :: earlier) x.post) : I tr P.state := by
  induction hrun with
  | start => exact hstart
  | spawn _ _ ih => exact ih hstep
  | @act tr P j c ready eff next run hj hr ih =>
    refine hstep [] _ tr rfl (ih fun later x earlier hsplit => ?_)
    exact hstep (_ :: later) x earlier (by rw [hsplit]; rfl)

/-- Induction over the steps of a run, for what each step found. -/
theorem Run.induct_before {I : List (Step σ κ) → σ → Prop} (hrun : Run prog ok s₀ tr P)
    (hstart : I [] s₀)
    (hstep : ∀ later x earlier, tr = later ++ x :: earlier → I earlier x.pre →
      I (x :: earlier) x.post) {later earlier : List (Step σ κ)} {x : Step σ κ}
    (hsplit : tr = later ++ x :: earlier) : I earlier x.pre := by
  have hall := hrun.induct (I := fun tr' s => I tr' s ∧
    ∀ later x earlier, tr' = later ++ x :: earlier → I earlier x.pre) ⟨hstart, by simp⟩ ?_
  · exact hall.2 later x earlier hsplit
  · rintro later x earlier hsplit ⟨hI, hbefore⟩
    refine ⟨hstep later x earlier hsplit hI, fun late y rest hy => ?_⟩
    cases late with
    | nil =>
      obtain ⟨rfl, rfl⟩ := List.cons.inj hy
      exact hI
    | cons z late => exact hbefore late y rest (List.cons.inj hy).2

/-- The run up to a step, and the pool the step found. -/
theorem Run.before (hrun : Run prog ok s₀ tr P) {later earlier : List (Step σ κ)} {x : Step σ κ}
    (hsplit : tr = later ++ x :: earlier) :
    ∃ P', Run prog ok s₀ earlier P' ∧ P'.state = x.pre := by
  induction hrun generalizing later with
  | start => simp at hsplit
  | spawn _ _ ih => exact ih hsplit
  | @act tr P j c ready eff next run hj hr ih =>
    cases later with
    | nil =>
      obtain ⟨rfl, rfl⟩ := List.cons.inj hsplit
      exact ⟨P, run, rfl⟩
    | cons y later => exact ih (List.cons.inj hsplit).2

/-- The state that steps from `s₀`, newest first, lead to. -/
def reached (s₀ : σ) : List (Step σ κ) → σ
  | [] => s₀
  | x :: _ => x.post

theorem Run.state_eq (hrun : Run prog ok s₀ tr P) : P.state = reached s₀ tr := by
  induction hrun with
  | start => rfl
  | spawn _ _ ih => exact ih
  | act _ _ _ _ => rfl

theorem Run.pre_eq (hrun : Run prog ok s₀ tr P) {later earlier : List (Step σ κ)} {x : Step σ κ}
    (hsplit : tr = later ++ x :: earlier) : x.pre = reached s₀ earlier := by
  obtain ⟨P', hrun', hpre⟩ := hrun.before hsplit
  rw [← hpre, hrun'.state_eq]

/-- The run up to some of its steps. -/
theorem Run.upto (hrun : Run prog ok s₀ tr P) {later earlier : List (Step σ κ)}
    (hsplit : tr = later ++ earlier) :
    ∃ P', Run prog ok s₀ earlier P' ∧ P'.state = reached s₀ earlier := by
  rcases List.eq_nil_or_concat later with rfl | ⟨late, x, rfl⟩
  · rw [List.nil_append] at hsplit
    subst hsplit
    exact ⟨P, hrun, hrun.state_eq⟩
  · rw [List.concat_eq_append, List.append_assoc, List.singleton_append] at hsplit
    obtain ⟨P', hrun', -⟩ := hrun.before hsplit
    exact ⟨P', hrun', hrun'.state_eq⟩

/-- What every later step keeps, all later states have. -/
theorem Run.keeps {I : σ → Prop} (hrun : Run prog ok s₀ tr P) {later earlier : List (Step σ κ)}
    (hsplit : tr = later ++ earlier) (hI : I (reached s₀ earlier))
    (hstep : ∀ late x mid, later = late ++ x :: mid → I x.pre → I x.post) :
    (∀ x ∈ later, I x.pre ∧ I x.post) ∧ I (reached s₀ tr) := by
  subst hsplit
  suffices h : ∀ late mid, later = late ++ mid →
      (∀ x ∈ mid, I x.pre ∧ I x.post) ∧ I (reached s₀ (mid ++ earlier)) from h [] later rfl
  intro late mid hlater
  induction mid generalizing late with
  | nil => exact ⟨by simp, hI⟩
  | cons x mid ih =>
    obtain ⟨hmid, hreached⟩ := ih (late ++ [x]) (by simpa using hlater)
    have hsplit : later ++ earlier = late ++ x :: (mid ++ earlier) := by
      rw [hlater]
      simp
    have hpre := hrun.pre_eq hsplit
    rw [← hpre] at hreached
    have hpost := hstep late x mid hlater hreached
    exact ⟨List.forall_mem_cons.2 ⟨⟨hreached, hpost⟩, hmid⟩, hpost⟩

/-- What held when a thread took some step, and what every step since it began keeps, holds when it
takes a further step. -/
theorem Run.since {I : σ → Prop} (hrun : Run prog ok s₀ tr P) {later earlier : List (Step σ κ)}
    {x : Step σ κ} (hsplit : tr = later ++ x :: earlier)
    (hkeep : ∀ z ∈ sinceBegun x.tid earlier, I z.pre → I z.post) {mid rest : List (Step σ κ)}
    {y : Step σ κ} (hy : x :: earlier = mid ++ y :: rest) (htid : y.tid = x.tid) (hI : I y.pre) :
    I x.pre := by
  cases mid with
  | nil =>
    obtain ⟨rfl, -⟩ := List.cons.inj hy
    exact hI
  | cons x' mid =>
    obtain ⟨rfl, rfl⟩ := List.cons.inj hy
    obtain ⟨P', hrun', hpre⟩ := hrun.before hsplit
    rw [hrun'.pre_eq rfl] at hI
    have hkeeps := hrun'.keeps (I := I) (show mid ++ y :: rest = (mid ++ [y]) ++ rest by simp) hI
      fun late z mid' hz => hkeep z (mem_sinceBegun htid z (by rw [hz]; simp))
    rw [hrun.pre_eq hsplit]
    exact hkeeps.2

/-- What did not hold at the start and holds in the end was brought about by a step, and has held
since. -/
theorem Run.became {I : σ → Prop} (hrun : Run prog ok s₀ tr P) (hstart : ¬ I s₀)
    (hI : I P.state) : ∃ later x earlier, tr = later ++ x :: earlier ∧ ¬ I x.pre ∧ I x.post ∧
      ∀ z ∈ later, I z.pre ∧ I z.post := by
  refine hrun.induct (I := fun tr s => I s → ∃ later x earlier, tr = later ++ x :: earlier ∧
    ¬ I x.pre ∧ I x.post ∧ ∀ z ∈ later, I z.pre ∧ I z.post)
    (fun h => absurd h hstart) (fun _ x earlier _ ih hpost => ?_) hI
  by_cases hpre : I x.pre
  · obtain ⟨later, y, past, rfl, hy, hy', hlater⟩ := ih hpre
    exact ⟨x :: later, y, past, rfl, hy, hy', List.forall_mem_cons.2 ⟨⟨hpre, hpost⟩, hlater⟩⟩
  · exact ⟨[], x, earlier, rfl, hpre, hpost, by simp⟩

/-! ## Values that appear once -/

section Stable

variable {β : Type} {v : σ → Option β} {R : β → β → Prop}

/-- The step gives the value, which was not there. -/
def Appears (v : σ → Option β) (x : Step σ κ) : Prop := v x.pre = none ∧ (v x.post).isSome

/-- A value that is there was there from the start, or has appeared. -/
theorem Run.appeared (hrun : Run prog ok s₀ tr P) (hthere : (v P.state).isSome) :
    (v s₀).isSome ∨ ∃ x ∈ tr, Appears v x := by
  refine hrun.induct (I := fun tr s => (v s).isSome → (v s₀).isSome ∨ ∃ x ∈ tr, Appears v x)
    .inl (fun later x earlier _ ih hpost => ?_) hthere
  cases hpre : v x.pre with
  | none => exact .inr ⟨x, List.mem_cons_self, hpre, hpost⟩
  | some b =>
    rcases ih (by rw [hpre]; rfl) with hstart | ⟨y, hy, happears⟩
    · exact .inl hstart
    · exact .inr ⟨y, List.mem_cons_of_mem _ hy, happears⟩

/-- A value that stays when it is there appears at most once. -/
theorem Run.appears_once (hrun : Run prog ok s₀ tr P)
    (hkeep : ∀ x ∈ tr, (v x.pre).isSome → (v x.post).isSome) : AtMostOnce (Appears v) tr := by
  have hall := hrun.induct (I := fun tr' s => AtMostOnce (Appears v) tr' ∧
    ((∃ x ∈ tr', Appears v x) → (v s).isSome)) ⟨.nil, by simp⟩ ?_
  · exact hall.1
  · rintro later x earlier hsplit ⟨honce, hthere⟩
    have hx : x ∈ tr := by
      rw [hsplit]
      simp
    have hgone : Appears v x → ∀ y ∈ earlier, ¬ Appears v y := by
      rintro ⟨hnone, -⟩ y hy happears
      have hsome := hthere ⟨y, hy, happears⟩
      rw [hnone] at hsome
      cases hsome
    refine ⟨honce.cons hgone, ?_⟩
    rintro ⟨y, hy, happears⟩
    rcases List.mem_cons.1 hy with rfl | hy
    · exact happears.2
    · exact hkeep x hx (hthere ⟨y, hy, happears⟩)

/-- **A value that appears at most once** is related to what it is later, while it is there, by what
relates it over every step. -/
theorem Run.stable (hrun : Run prog ok s₀ tr P) (hrefl : ∀ b, R b b)
    (htrans : ∀ {b₁ b₂ b₃}, R b₁ b₂ → R b₂ b₃ → R b₁ b₃)
    (hstep : ∀ x ∈ tr, ∀ b b', v x.pre = some b → v x.post = some b' → R b b')
    (honce : AtMostOnce (Appears v) tr) (hfirst : (v s₀).isSome → ∀ x ∈ tr, ¬ Appears v x)
    {late mid earlier : List (Step σ κ)} (hsplit : tr = late ++ (mid ++ earlier)) {b b' : β}
    (hb : v (reached s₀ earlier) = some b) (hb' : v (reached s₀ (mid ++ earlier)) = some b') :
    R b b' := by
  induction mid generalizing late b' with
  | nil =>
    obtain rfl := Option.some.inj (hb.symm.trans hb')
    exact hrefl b
  | cons x mid ih =>
    have hx : tr = late ++ x :: (mid ++ earlier) := hsplit
    have hmem : x ∈ tr := by
      rw [hx]
      simp
    have hpre := hrun.pre_eq hx
    cases hvpre : v x.pre with
    | some b₁ =>
      rw [hpre] at hvpre
      have hR := ih (show tr = (late ++ [x]) ++ (mid ++ earlier) by simp [hx]) hvpre
      rw [← hpre] at hvpre
      exact htrans hR (hstep x hmem b₁ b' hvpre hb')
    | none =>
      -- the value appears a second time
      have happears : Appears v x := ⟨hvpre, by rw [show v x.post = some b' from hb']; rfl⟩
      obtain ⟨P', hrun', hstate⟩ := hrun.upto (show tr = (late ++ x :: mid) ++ earlier by
        rw [hx]
        simp)
      rcases hrun'.appeared (v := v) (by rw [hstate, hb]; rfl) with hstart | ⟨y, hy, hyappears⟩
      · exact absurd happears (hfirst hstart x hmem)
      · rw [hx] at honce
        have hpair := (List.pairwise_append.1 honce).2.1
        exact absurd hyappears
          ((List.pairwise_cons.1 hpair).1 y (List.mem_append_right _ hy) happears)

end Stable

/-! ## One call at a time -/

/-- The sequences of calls from `s₀`, each taken as one step: the steps, newest first, and the state
reached. -/
inductive Serial (prog : κ → Prog σ ε α) (s₀ : σ) : List (Step σ κ) → σ → Prop
  | start : Serial prog s₀ [] s₀
  | call {tr : List (Step σ κ)} {s : σ} (c : κ) (seq : Serial prog s₀ tr s) :
      Serial prog s₀ (⟨0, c, s, ((prog c).run s).2⟩ :: tr) ((prog c).run s).2

/-- Calls taken one after the other. -/
def serially (prog : κ → Prog σ ε α) (s₀ : σ) (cs : List κ) : List (Step σ κ) × σ :=
  cs.foldl (fun x c => (⟨0, c, x.2, ((prog c).run x.2).2⟩ :: x.1, ((prog c).run x.2).2)) ([], s₀)

theorem serially_serial (prog : κ → Prog σ ε α) (cs : List κ) :
    Serial prog s₀ (serially prog s₀ cs).1 (serially prog s₀ cs).2 := by
  unfold serially
  suffices h : ∀ x : List (Step σ κ) × σ, Serial prog s₀ x.1 x.2 →
      Serial prog s₀ (cs.foldl _ x).1 (cs.foldl _ x).2 from h _ .start
  induction cs with
  | nil => exact fun x hx => hx
  | cons c cs ih => exact fun x hx => ih _ (.call c hx)

/-! ## Schedules -/

/-- What a scheduler does next: start a call, or let a thread act. -/
inductive Choice (κ : Type) where
  | call (c : κ)
  | step (i : ℕ)

/-- One choice of the scheduler. A thread that is finished or not ready stays where it is. -/
def execChoice (prog : ℕ → κ → Prog σ ε α) (x : List (Step σ κ) × Pool σ ε α κ) :
    Choice κ → List (Step σ κ) × Pool σ ε α κ
  | .call c => (x.1, x.2.spawn prog c)
  | .step i =>
    match x.2.threads[i]? with
    | some ⟨c, .act ready eff next⟩ =>
      if ready x.2.state then
        (⟨i, c, x.2.state, eff x.2.state⟩ :: x.1,
          x.2.advance i c (next x.2.state) (eff x.2.state))
      else x
    | _ => x

/-- The run of a schedule. -/
def exec (prog : ℕ → κ → Prog σ ε α) (s₀ : σ) (sched : List (Choice κ)) :
    List (Step σ κ) × Pool σ ε α κ :=
  sched.foldl (execChoice prog) ([], ⟨s₀, []⟩)

theorem execChoice_run (x : List (Step σ κ) × Pool σ ε α κ) (ch : Choice κ)
    (hx : Run prog ok s₀ x.1 x.2) (hch : ∀ c, ch = .call c → ok c) :
    Run prog ok s₀ (execChoice prog x ch).1 (execChoice prog x ch).2 := by
  cases ch with
  | call c => exact .spawn hx (hch c rfl)
  | step i =>
    simp only [execChoice]
    split
    · rename_i c ready eff next hi
      split
      · rename_i hr
        exact .act hx hi hr
      · exact hx
    · exact hx

/-- The call that a choice starts. -/
def Choice.called : Choice κ → Option κ
  | .call c => some c
  | .step _ => none

/-- The threads of a schedule are of the calls it starts. -/
theorem calls_exec (prog : ℕ → κ → Prog σ ε α) (s₀ : σ) (sched : List (Choice κ)) :
    (exec prog s₀ sched).2.threads.map Thread.call = sched.filterMap Choice.called := by
  suffices h : ∀ x : List (Step σ κ) × Pool σ ε α κ,
      (sched.foldl (execChoice prog) x).2.threads.map Thread.call =
        x.2.threads.map Thread.call ++ sched.filterMap Choice.called from h _
  induction sched with
  | nil => simp
  | cons ch sched ih =>
    intro x
    rw [List.foldl_cons, ih]
    cases ch with
    | call c => simp [execChoice, Pool.spawn, Choice.called]
    | step i =>
      have hsame : (execChoice prog x (.step i)).2.threads.map Thread.call =
          x.2.threads.map Thread.call := by
        simp only [execChoice]
        split
        · rename_i c ready eff next hi
          split
          · apply List.ext_getElem?
            intro j
            simp only [Pool.advance, List.getElem?_map, List.getElem?_set]
            split
            · rename_i hij
              subst hij
              rw [if_pos (List.getElem?_eq_some_iff.1 hi).1, hi]
              rfl
            · rfl
          · rfl
        · rfl
      rw [hsame]
      rfl

/-- A list around the element at a place. -/
theorem eq_take_cons_drop {τ : Type} {l : List τ} {n : ℕ} {x : τ} (h : l[n]? = some x) :
    l = l.take n ++ x :: l.drop (n + 1) := by
  obtain ⟨hn, rfl⟩ := List.getElem?_eq_some_iff.1 h
  rw [← List.drop_eq_getElem_cons hn, List.take_append_drop]

/-- The run of a schedule is a run. -/
theorem exec_run (sched : List (Choice κ)) (hok : ∀ c, Choice.call c ∈ sched → ok c) :
    Run prog ok s₀ (exec prog s₀ sched).1 (exec prog s₀ sched).2 := by
  unfold exec
  suffices h : ∀ x : List (Step σ κ) × Pool σ ε α κ, Run prog ok s₀ x.1 x.2 →
      Run prog ok s₀ (sched.foldl (execChoice prog) x).1 (sched.foldl (execChoice prog) x).2 from
    h _ .start
  induction sched with
  | nil => exact fun x hx => hx
  | cons ch sched ih =>
    intro x hx
    refine ih (fun c hc => hok c (List.mem_cons_of_mem _ hc)) _ (execChoice_run x ch hx ?_)
    rintro c rfl
    exact hok c List.mem_cons_self

end BankDemo
