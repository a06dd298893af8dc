import Mathlib.Tactic
import Mathlib.Data.List.Sort

/-!
# The first items by a key

`Newest` says which lists are the `n` items with the greatest keys among those that meet a condition,
greatest first, items with one key in any order. A list that was taken without regard to the condition
is one of them iff it meets the condition, is in order, and nothing was passed over (`newest_take_iff`).
-/

namespace Lib

variable {α β : Type} [LinearOrder β] {key : α → β} {p : α → Bool} {n : Nat} {xs ys out : List α}

/-- The keys do not increase. -/
def Descending (key : α → β) (xs : List α) : Prop := xs.Pairwise fun a b => key b ≤ key a

/-- The `n` items with the greatest keys that meet the condition. -/
def Newest (key : α → β) (p : α → Bool) (n : Nat) (xs out : List α) : Prop :=
  ∃ sorted : List α, sorted.Perm (xs.filter p) ∧ Descending key sorted ∧ out = sorted.take n

/-- Every list can be sorted downwards by a key. -/
lemma exists_descending (key : α → β) (xs : List α) :
    ∃ sorted : List α, sorted.Perm xs ∧ Descending key sorted := by
  refine ⟨xs.mergeSort fun a b => decide (key b ≤ key a), List.mergeSort_perm _ _, ?_⟩
  refine (List.pairwise_mergeSort ?_ ?_ xs).imp of_decide_eq_true
  · intro a b c hab hbc
    exact decide_eq_true ((of_decide_eq_true hbc).trans (of_decide_eq_true hab))
  · intro a b
    rw [Bool.or_eq_true, decide_eq_true_iff, decide_eq_true_iff]
    exact le_total _ _

/-- There is always an answer. -/
lemma exists_newest : ∃ out, Newest key p n xs out := by
  obtain ⟨sorted, hperm, hdesc⟩ := exists_descending key (xs.filter p)
  exact ⟨_, sorted, hperm, hdesc, rfl⟩

lemma newest_nil_of_none (h : ∀ a ∈ xs, p a = false) : Newest key p n xs out ↔ out = [] := by
  have hfilter : xs.filter p = [] :=
    List.filter_eq_nil_iff.mpr fun a ha hp => Bool.false_ne_true ((h a ha).symm.trans hp)
  rw [Newest, hfilter]
  constructor
  · rintro ⟨sorted, hperm, -, rfl⟩
    rw [hperm.eq_nil, List.take_nil]
  · rintro rfl
    exact ⟨[], .refl _, .nil, List.take_nil.symm⟩

lemma newest_zero : Newest key p 0 xs out ↔ out = [] := by
  constructor
  · rintro ⟨sorted, -, -, rfl⟩
    exact List.take_zero
  · rintro rfl
    obtain ⟨sorted, hperm, hdesc⟩ := exists_descending key (xs.filter p)
    exact ⟨sorted, hperm, hdesc, List.take_zero.symm⟩

/-- The empty list is an answer only if nothing is asked for or nothing meets the condition. -/
lemma newest_nil : Newest key p n xs [] ↔ n = 0 ∨ ∀ a ∈ xs, p a = false := by
  constructor
  · rintro ⟨sorted, hperm, -, hnil⟩
    rcases List.take_eq_nil_iff.mp hnil.symm with hzero | hempty
    · exact .inl hzero
    · refine .inr fun a ha => Bool.eq_false_iff.mpr fun hp => ?_
      rw [hempty] at hperm
      have hmem := hperm.symm.subset (List.mem_filter.mpr ⟨ha, hp⟩)
      cases hmem
  · rintro (rfl | hnone)
    · exact newest_zero.mpr rfl
    · exact (newest_nil_of_none hnone).mpr rfl

/-- Conditions that agree, and keys that are in the same order where these hold. -/
lemma newest_congr {γ : Type} [LinearOrder γ] {key' : α → γ} {p' : α → Bool}
    (hp : ∀ a ∈ xs, p a = p' a)
    (hkey : ∀ a ∈ xs, p a = true → ∀ b ∈ xs, p b = true → (key a ≤ key b ↔ key' a ≤ key' b)) :
    Newest key p n xs out ↔ Newest key' p' n xs out := by
  rw [Newest, Newest, List.filter_congr hp]
  refine exists_congr fun sorted => and_congr_right fun hperm => and_congr_left fun _ => ?_
  refine List.Pairwise.iff_of_mem fun {a b} ha hb => ?_
  obtain ⟨hax, hap⟩ := List.mem_filter.mp (hperm.subset ha)
  obtain ⟨hbx, hbp⟩ := List.mem_filter.mp (hperm.subset hb)
  exact hkey b hbx ((hp b hbx).trans hbp) a hax ((hp a hax).trans hap)

/-- When what is taken passes the filter, the rest of what passes comes after it. -/
lemma filter_take_drop (hall : ∀ a ∈ ys.take n, p a = true) :
    ys.filter p = ys.take n ++ (ys.drop n).filter p := by
  conv_lhs => rw [← List.take_append_drop n ys]
  rw [List.filter_append, List.filter_eq_self.mpr hall]

/-- The first items of a list are the newest that meet the condition iff they all do, are in order, and
none that does and was passed over is newer than one of them. -/
lemma newest_take_iff (hys : ys.Perm xs) : Newest key p n xs (ys.take n)
    ↔ (∀ a ∈ ys.take n, p a = true) ∧ Descending key (ys.take n)
      ∧ ∀ a ∈ ys.drop n, p a = true → ∀ b ∈ ys.take n, key a ≤ key b := by
  constructor
  · rintro ⟨sorted, hperm, hdesc, htake⟩
    have hall : ∀ a ∈ ys.take n, p a = true := by
      intro a ha
      rw [htake] at ha
      exact (List.mem_filter.mp (hperm.subset (List.mem_of_mem_take ha))).2
    have hrest : (sorted.drop n).Perm ((ys.drop n).filter p) := by
      have hsplit : (ys.take n ++ sorted.drop n).Perm (ys.take n ++ (ys.drop n).filter p) := by
        rw [htake, List.take_append_drop, ← htake]
        exact hperm.trans ((hys.filter p).symm.trans (List.Perm.of_eq (filter_take_drop hall)))
      exact (List.perm_append_left_iff _).mp hsplit
    rw [← List.take_append_drop n sorted, ← htake] at hdesc
    obtain ⟨hfirst, -, hcross⟩ := List.pairwise_append.mp hdesc
    refine ⟨hall, hfirst, fun a ha hp b hb => ?_⟩
    exact hcross b hb a (hrest.symm.subset (List.mem_filter.mpr ⟨ha, hp⟩))
  · rintro ⟨hall, hfirst, hpassed⟩
    obtain ⟨rest, hrest, hdesc⟩ := exists_descending key ((ys.drop n).filter p)
    refine ⟨ys.take n ++ rest, ?_, ?_, ?_⟩
    · refine List.Perm.trans ?_ (hys.filter p)
      rw [filter_take_drop hall]
      exact hrest.append_left _
    · refine List.pairwise_append.mpr ⟨hfirst, hdesc, fun b hb a ha => ?_⟩
      obtain ⟨ha', hp⟩ := List.mem_filter.mp (hrest.subset ha)
      exact hpassed a ha' hp b hb
    · by_cases hlong : n ≤ ys.length
      case pos => rw [List.take_left' (List.length_take_of_le hlong)]
      case neg =>
        have hdrop : ys.drop n = [] := List.drop_eq_nil_of_le (by omega)
        rw [hdrop, List.filter_nil] at hrest
        rw [hrest.eq_nil, List.append_nil, List.take_take, Nat.min_self]

end Lib
