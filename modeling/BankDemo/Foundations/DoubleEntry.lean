import Mathlib.Algebra.BigOperators.Group.List.Basic
import Mathlib.Data.List.Dedup
import Mathlib.Tactic.Abel
import Mathlib.Tactic.Ring

/-!
# Double-entry books

Postings to ledger codes of any type: a direction and an amount. The quantities of a list of
postings are its debits and credits, in all or on one code, and the net credit of a code.

* `net_append` and its kin: the quantities add up over the entries of a journal.
* `sum_over_codes`: summed over a chart of distinct codes that covers the postings, the debits
  (credits) by code are the debits (credits) in all. This is why a trial balance by code reports
  on the whole book: `trial_balance` says that it is zero as soon as every entry balances.
-/

namespace BankDemo

/-- The side of a posting. -/
inductive Direction
  | debit
  | credit
  deriving DecidableEq, Repr

/-- A posting: an amount on one side of a ledger code. -/
structure Posting (κ : Type) where
  code : κ
  direction : Direction
  amountCents : ℤ
  deriving DecidableEq, Repr

namespace Posting

variable {κ : Type}

/-- The amount on side `d`, zero on the other. -/
def on (d : Direction) (p : Posting κ) : ℤ := if p.direction = d then p.amountCents else 0

/-- Credit counts positively, debit negatively. -/
def signed (p : Posting κ) : ℤ := on .credit p - on .debit p

end Posting

namespace DoubleEntry

variable {κ : Type}

/-- The sum of the postings on side `d`. -/
def sideSum (d : Direction) (ps : List (Posting κ)) : ℤ := (ps.map (Posting.on d)).sum

/-- The sum of the postings on side `d` of one code. -/
def codeSum [DecidableEq κ] (d : Direction) (ps : List (Posting κ)) (c : κ) : ℤ :=
  sideSum d (ps.filter fun p => p.code = c)

/-- Credits minus debits of one code. -/
def net [DecidableEq κ] (ps : List (Posting κ)) (c : κ) : ℤ :=
  codeSum .credit ps c - codeSum .debit ps c

/-- Debits equal credits. -/
def Balanced (ps : List (Posting κ)) : Prop := sideSum .debit ps = sideSum .credit ps

@[simp] theorem sideSum_nil (d : Direction) : sideSum d ([] : List (Posting κ)) = 0 := rfl

theorem sideSum_cons (d : Direction) (p : Posting κ) (ps : List (Posting κ)) :
    sideSum d (p :: ps) = p.on d + sideSum d ps := by
  simp [sideSum]

theorem sideSum_append (d : Direction) (ps qs : List (Posting κ)) :
    sideSum d (ps ++ qs) = sideSum d ps + sideSum d qs := by
  simp [sideSum]

theorem Balanced.append {ps qs : List (Posting κ)} (hp : Balanced ps) (hq : Balanced qs) :
    Balanced (ps ++ qs) := by
  unfold Balanced at *
  rw [sideSum_append, sideSum_append, hp, hq]

/-- A journal of balanced entries is balanced. -/
theorem balanced_flatten {es : List (List (Posting κ))} (h : ∀ e ∈ es, Balanced e) :
    Balanced es.flatten := by
  induction es with
  | nil => rfl
  | cons e es ih =>
    rw [List.flatten_cons]
    exact (h e List.mem_cons_self).append (ih fun e' he => h e' (List.mem_cons_of_mem _ he))

variable [DecidableEq κ]

@[simp] theorem net_nil (c : κ) : net ([] : List (Posting κ)) c = 0 := rfl

theorem net_append (ps qs : List (Posting κ)) (c : κ) :
    net (ps ++ qs) c = net ps c + net qs c := by
  simp only [net, codeSum, List.filter_append, sideSum_append]
  ring

theorem net_cons (p : Posting κ) (ps : List (Posting κ)) (c : κ) :
    net (p :: ps) c = (if p.code = c then p.signed else 0) + net ps c := by
  by_cases h : p.code = c
  · simp only [net, codeSum, List.filter_cons, h, decide_true, if_true, sideSum_cons,
      Posting.signed]
    ring
  · simp [net, codeSum, h]

theorem codeSum_cons (d : Direction) (p : Posting κ) (ps : List (Posting κ)) (c : κ) :
    codeSum d (p :: ps) c = (if p.code = c then p.on d else 0) + codeSum d ps c := by
  by_cases h : p.code = c <;> simp [codeSum, h, sideSum_cons]

/-- One code of a chart without repetitions picks out its own weight. -/
theorem sum_ite_eq_of_mem {c : κ} {x : ℤ} {cs : List κ} (hcs : cs.Nodup) (hc : c ∈ cs) :
    (cs.map fun c' => if c = c' then x else 0).sum = x := by
  induction cs with
  | nil => simp at hc
  | cons c' cs ih =>
    obtain ⟨hn, hcs⟩ := List.nodup_cons.1 hcs
    rw [List.map_cons, List.sum_cons]
    rcases List.mem_cons.1 hc with rfl | hmem
    · have hz : (cs.map fun c' => if c = c' then x else 0).sum = 0 :=
        List.sum_eq_zero fun y hy => by
          obtain ⟨c', hc', rfl⟩ := List.mem_map.1 hy
          rw [if_neg]
          rintro rfl
          exact hn hc'
      rw [if_pos rfl, hz, add_zero]
    · have hne : c ≠ c' := by
        rintro rfl
        exact hn hmem
      rw [if_neg hne, ih hcs hmem, zero_add]

/-- Over a chart of distinct codes that covers the postings, the sums by code add up to the sum
in all. -/
theorem sum_over_codes (d : Direction) {cs : List κ} (hcs : cs.Nodup) :
    ∀ ps : List (Posting κ), (∀ p ∈ ps, p.code ∈ cs) → (cs.map (codeSum d ps)).sum = sideSum d ps
  | [], _ => List.sum_eq_zero fun x hx => by
      obtain ⟨c, -, rfl⟩ := List.mem_map.1 hx
      rfl
  | p :: ps, h => by
    have ih := sum_over_codes d hcs ps fun q hq => h q (List.mem_cons_of_mem _ hq)
    have hp := sum_ite_eq_of_mem (x := p.on d) hcs (h p List.mem_cons_self)
    rw [sideSum_cons, ← ih, ← hp, ← List.sum_map_add]
    exact congrArg List.sum (List.map_congr_left fun c _ => codeSum_cons d p ps c)

/-- **The trial balance is zero** when every entry balances and the chart covers the book. -/
theorem trial_balance {cs : List κ} (hcs : cs.Nodup) {es : List (List (Posting κ))}
    (hcover : ∀ e ∈ es, ∀ p ∈ e, p.code ∈ cs) (hbal : ∀ e ∈ es, Balanced e) :
    (cs.map (codeSum .debit es.flatten)).sum - (cs.map (codeSum .credit es.flatten)).sum = 0 := by
  have hc : ∀ p ∈ es.flatten, p.code ∈ cs := fun p hp => by
    obtain ⟨e, he, hpe⟩ := List.mem_flatten.1 hp
    exact hcover e he p hpe
  rw [sum_over_codes _ hcs _ hc, sum_over_codes _ hcs _ hc, balanced_flatten hbal]
  abel

end DoubleEntry

end BankDemo
