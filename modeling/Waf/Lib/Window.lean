import Mathlib.Tactic

/-!
# Windows of time buckets

Time is cut into buckets of `w` seconds. `recent w n hits now` counts the hits in the bucket of `now`
and the `n - 1` buckets before it, which is what a sliding counter reports; `inWindow w n b` are the
times in the `n` buckets from bucket `b` on, which is where an admission bound counts.

The two meet in `countP_inWindow_le_recent`. With `countP_le_of_last`, which reduces a bound on all
the marked elements of a log to a bound at the moment of each marked element, they turn a check of
the sliding count at each admission into a bound on the admissions of every window.
-/

namespace Lib

variable {α : Type} {w n : Nat}

/-- The number of hits in the bucket of `now` and the `n - 1` buckets before it. -/
def recent (w n : Nat) (hits : List Nat) (now : Nat) : Nat :=
  hits.countP fun u => now / w - u / w < n

/-- Is `t` in one of the `n` buckets from bucket `b` on? -/
def inWindow (w n b t : Nat) : Bool := b ≤ t / w ∧ t / w < b + n

/-- The hits of a window are all recent at a time of that window. -/
lemma countP_inWindow_le_recent {b hits now} (h : inWindow w n b now = true) :
    hits.countP (inWindow w n b) ≤ recent w n hits now := by
  refine List.countP_mono_left fun u _ hu => ?_
  simp only [inWindow, decide_eq_true_eq] at h hu ⊢
  omega

/-- Hits that are `n` bucket widths old are not recent. -/
lemma recent_append_old {old hits now} (hw : 0 < w) (h : ∀ u ∈ old, u + w * n ≤ now) :
    recent w n (old ++ hits) now = recent w n hits now := by
  have hz : old.countP (fun u => decide (now / w - u / w < n)) = 0 := by
    refine List.countP_eq_zero.mpr fun u hu => ?_
    have hd : u / w + n ≤ now / w := by
      rw [← Nat.add_mul_div_left u n hw]
      exact Nat.div_le_div_right (h u hu)
    simp only [decide_eq_true_eq]
    omega
  rw [recent, recent, List.countP_append, hz, Nat.zero_add]

/-- To bound the number of marked elements of a log, bound it whenever one is appended. -/
lemma countP_le_of_last {p : α → Bool} {limit : Nat} {log : List α}
    (h : ∀ pre x, pre ++ [x] <+: log → p x = true → (pre ++ [x]).countP p ≤ limit) :
    log.countP p ≤ limit := by
  induction log using List.reverseRecOn with
  | nil => exact Nat.zero_le limit
  | append_singleton log x ih =>
    cases hx : p x with
    | true => exact h log x (List.prefix_refl _) hx
    | false =>
      have hlog := ih fun pre y hp hy => h pre y (hp.trans (List.prefix_append _ _)) hy
      rwa [List.countP_append, List.countP_singleton, hx, if_neg (by decide), Nat.add_zero]

end Lib
