import Mathlib.Tactic

/-!
# Two runs of a machine

A machine takes steps and answers them. Some operations are a party's own, and the rest may be missing
from one of two runs (`Thinned`). An `Unwinding` is a relation between states that no operation of others
breaks and that makes own operations answer the same; then the party cannot tell the two runs apart
(`Unwinding.answers_eq`).

A relation is one from some time on, because what two states do alike may depend on the clock. The steps
may be asked to meet a condition, which is then a condition on both runs (`Machine.All`).
-/

namespace Lib

variable {S O A : Type}

structure Machine (S O A : Type) where
  step : S → O → A × S

namespace Machine

def run (M : Machine S O A) (s : S) (ops : List O) : S := ops.foldl (fun s o => (M.step s o).2) s

/-- The answers to the own operations of a run. -/
def answers (M : Machine S O A) (own : O → Bool) : S → List O → List A
  | _, [] => []
  | s, o :: ops =>
    if own o then (M.step s o).1 :: M.answers own (M.step s o).2 ops
    else M.answers own (M.step s o).2 ops

/-- Every step of a run meets a condition. -/
def All (M : Machine S O A) (c : S → O → Prop) : S → List O → Prop
  | _, [] => True
  | s, o :: ops => c s o ∧ M.All c (M.step s o).2 ops

variable {M : Machine S O A} {c c' : S → O → Prop} {s : S} {ops : List O}

/-- An invariant that the steps keep holds at every step. -/
lemma All.of_invariant {I : Nat → S → Prop} {n : Nat} (hstep : ∀ n s o, I n s → I (n + 1) (M.step s o).2)
    (hc : ∀ m s o, I m s → m < n + ops.length → c s o) (h : I n s) : M.All c s ops := by
  induction ops generalizing n s with
  | nil => exact trivial
  | cons o ops ih =>
    rw [List.length_cons] at hc
    refine ⟨hc n s o h (by omega), ih (fun m s o hI hm => hc m s o hI (by omega)) (hstep n s o h)⟩

lemma All.imp (h : M.All c s ops) (himp : ∀ s, ∀ o ∈ ops, c s o → c' s o) : M.All c' s ops := by
  induction ops generalizing s with
  | nil => exact trivial
  | cons o ops ih =>
    exact ⟨himp s o (.head _) h.1, ih h.2 fun s o' ho' => himp s o' (.tail _ ho')⟩

lemma All.and (h : M.All c s ops) (h' : M.All c' s ops) :
    M.All (fun s o => c s o ∧ c' s o) s ops := by
  induction ops generalizing s with
  | nil => exact trivial
  | cons o ops ih => exact ⟨⟨h.1, h'.1⟩, ih h.2 h'.2⟩

end Machine

/-- The second run is the first without some operations of others. -/
inductive Thinned (own : O → Bool) : List O → List O → Prop
  | nil : Thinned own [] []
  | keep {o ops ops'} (h : Thinned own ops ops') : Thinned own (o :: ops) (o :: ops')
  | drop {o ops ops'} (ho : own o = false) (h : Thinned own ops ops') : Thinned own (o :: ops) ops'

variable {own : O → Bool} {ops ops' : List O}

/-- Without any of them. -/
lemma Thinned.filter : Thinned own ops (ops.filter own) := by
  induction ops with
  | nil => exact .nil
  | cons o ops ih =>
    cases ho : own o with
    | true =>
      rw [List.filter_cons_of_pos ho]
      exact .keep ih
    | false =>
      rw [List.filter_cons_of_neg (by rw [ho]; nofun)]
      exact .drop ho ih

/-- What is left is a part of the run, in its order. -/
lemma Thinned.sublist (h : Thinned own ops ops') : ops'.Sublist ops := by
  induction h with
  | nil => exact .slnil
  | keep h ih => exact ih.cons_cons _
  | drop ho h ih => exact ih.cons _

/-- A relation between the states of two runs that the operations of others do not break. -/
structure Unwinding (M : Machine S O A) (own : O → Bool) (time : O → Nat) (c : S → O → Prop)
    (R : S → S → Nat → Prop) : Prop where
  symm {s s' t} : R s s' t → R s' s t
  trans {s s' s'' t} : R s s' t → R s' s'' t → R s s'' t
  mono {s s' t u} : R s s' t → t ≤ u → R s s' u
  other {s o} : own o = false → c s o → R (M.step s o).2 s (time o)
  same {s s' o} : own o = true → c s o → c s' o → R s s' (time o) →
    (M.step s o).1 = (M.step s' o).1 ∧ R (M.step s o).2 (M.step s' o).2 (time o)

variable {M : Machine S O A} {time : O → Nat} {c : S → O → Prop} {R : S → S → Nat → Prop} {s s' : S}
  {t : Nat}

/-- Two runs of which one is thinned answer the own operations alike. -/
theorem Unwinding.answers_eq (U : Unwinding M own time c R) (thin : Thinned own ops ops')
    (hclock : (t :: ops.map time).Pairwise (· ≤ ·)) (hall : M.All c s ops) (hall' : M.All c s' ops')
    (h : R s s' t) : M.answers own s ops = M.answers own s' ops' := by
  induction thin generalizing s s' t with
  | nil => rfl
  | @keep o ops ops' thin ih =>
    obtain ⟨hle, hrest⟩ := List.pairwise_cons.mp hclock
    have hnow := U.mono h (hle (time o) (.head _))
    rw [Machine.answers, Machine.answers]
    cases ho : own o with
    | true =>
      obtain ⟨hanswer, hnext⟩ := U.same ho hall.1 hall'.1 hnow
      rw [if_pos rfl, if_pos rfl, hanswer, ih hrest hall.2 hall'.2 hnext]
    | false =>
      have hnext := U.trans (U.other ho hall.1) (U.trans hnow (U.symm (U.other ho hall'.1)))
      rw [if_neg Bool.false_ne_true, if_neg Bool.false_ne_true]
      exact ih hrest hall.2 hall'.2 hnext
  | @drop o ops ops' ho thin ih =>
    obtain ⟨hle, hrest⟩ := List.pairwise_cons.mp hclock
    rw [Machine.answers, ho, if_neg Bool.false_ne_true]
    exact ih hrest hall.2 hall' (U.trans (U.other ho hall.1) (U.mono h (hle (time o) (.head _))))

end Lib
