import Mathlib.Data.List.DropRight
import Mathlib.Data.List.Dedup
import Mathlib.Data.Finset.Dedup
import Waf.Lib.Ring

/-!
# Bounded collections

A bounded queue holds the last items that were pushed (`pushCapped_rtake`). A bounded set, which drops
its oldest member for a new one, has as many members as there were distinct items, up to its bound
(`Capped`). `pairs` are the neighbours in a list.
-/

namespace Lib

variable {α β : Type} {xs ys : List α} {x y : α} {n cap : Nat}

/-! ## The last items -/

lemma rtake_of_length_le (h : xs.length ≤ n) : xs.rtake n = xs := by
  rw [List.rtake, Nat.sub_eq_zero_of_le h, List.drop_zero]

lemma length_rtake : (xs.rtake n).length = min n xs.length := by
  rw [List.rtake, List.length_drop]
  omega

lemma mem_of_mem_rtake (h : x ∈ xs.rtake n) : x ∈ xs := List.mem_of_mem_drop h

/-- Keeping the last commutes with a map. -/
lemma map_rtake (f : α → β) : (xs.rtake n).map f = (xs.map f).rtake n := by
  rw [List.rtake, List.rtake, List.map_drop, List.length_map]

/-- The last items of a list are those of its second part, if that is long enough. -/
lemma rtake_append (h : n ≤ ys.length) : (xs ++ ys).rtake n = ys.rtake n := by
  rw [List.rtake, List.rtake, List.length_append, Nat.add_sub_assoc h, List.drop_length_add_append]

/-- Pushing to a bounded queue keeps the last items. -/
lemma pushCapped_rtake (hcap : 0 < cap) :
    pushCapped cap (xs.rtake cap) x = (xs ++ [x]).rtake cap := by
  obtain ⟨cap, rfl⟩ := Nat.exists_eq_succ_of_ne_zero hcap.ne'
  rw [List.rtake_concat_succ, pushCapped, length_rtake]
  congr 1
  split
  case isTrue h =>
    rw [List.rtake, List.rtake, List.drop_drop]
    congr 1
    omega
  case isFalse h =>
    rw [rtake_of_length_le (by omega), rtake_of_length_le (by omega)]

/-! ## Neighbours -/

/-- The neighbours in a list. -/
def pairs (xs : List α) : List (α × α) := xs.zip xs.tail

lemma pairs_concat : pairs (xs ++ [x] ++ [y]) = pairs (xs ++ [x]) ++ [(x, y)] := by
  induction xs with
  | nil => rfl
  | cons z xs ih =>
    cases xs with
    | nil => rfl
    | cons z' xs => exact congrArg ((z, z') :: ·) ih

/-- Every element but the last begins a pair. -/
lemma map_fst_pairs : (pairs xs).map Prod.fst = xs.dropLast := by
  induction xs with
  | nil => rfl
  | cons z xs ih =>
    cases xs with
    | nil => rfl
    | cons z' xs => exact congrArg (z :: ·) ih

/-- Neighbours stay neighbours under a map. -/
lemma pairs_map (f : α → β) : pairs (xs.map f) = (pairs xs).map (Prod.map f f) := by
  rw [pairs, pairs, ← List.map_tail, List.zip_map]

/-- What holds of neighbours is a chain condition. -/
lemma forall_pairs {R : α → α → Prop} : (∀ p ∈ pairs xs, R p.1 p.2) ↔ xs.IsChain R := by
  induction xs with
  | nil => exact iff_of_true (fun p hp => by cases hp) .nil
  | cons z xs ih =>
    cases xs with
    | nil => exact iff_of_true (fun p hp => by cases hp) (.singleton z)
    | cons z' xs =>
      rw [List.isChain_cons_cons, ← ih]
      exact List.forall_mem_cons

/-! ## Bounded sets -/

section Sets
variable [DecidableEq α]

/-- A list of distinct items out of `xs`, of as many as there are up to `cap`. -/
structure Capped (cap : Nat) (set xs : List α) : Prop where
  nodup : set.Nodup
  sub : set.toFinset ⊆ xs.toFinset
  length : set.length = min cap xs.toFinset.card
  full : xs.toFinset.card ≤ cap → set.toFinset = xs.toFinset

lemma Capped.nil : Capped cap ([] : List α) [] :=
  ⟨.nil, Finset.Subset.refl _, (Nat.min_zero cap).symm, fun _ => rfl⟩

lemma toFinset_concat : (xs ++ [x]).toFinset = insert x xs.toFinset := by
  ext y
  simp only [List.mem_toFinset, List.mem_append, List.mem_singleton, Finset.mem_insert, or_comm]

omit [DecidableEq α] in
lemma nodup_concat {set : List α} (hset : set.Nodup) (hx : x ∉ set) : (set ++ [x]).Nodup := by
  refine List.nodup_append.mpr ⟨hset, List.nodup_singleton x, fun a ha b hb hab => ?_⟩
  exact hx (List.mem_singleton.mp hb ▸ hab ▸ ha)

/-- While everything fits, what is not in the set is new. -/
lemma Capped.not_mem {set : List α} (h : Capped cap set xs) (hfit : xs.toFinset.card ≤ cap)
    (hx : x ∉ set) : x ∉ xs.toFinset := by
  rw [← h.full hfit]
  exact fun hmem => hx (List.mem_toFinset.mp hmem)

/-- Adding an item drops the oldest one when the set is full. -/
lemma Capped.insert {set : List α} (hcap : 0 < cap) (h : Capped cap set xs) (x : α) :
    Capped cap (if x ∈ set then set else pushCapped cap set x) (xs ++ [x]) := by
  have hcard : set.toFinset.card = set.length := List.toFinset_card_of_nodup h.nodup
  by_cases hmem : x ∈ set
  case pos =>
    have hsame : (xs ++ [x]).toFinset = xs.toFinset := by
      rw [toFinset_concat]
      exact Finset.insert_eq_self.mpr (h.sub (List.mem_toFinset.mpr hmem))
    rw [if_pos hmem]
    exact ⟨h.nodup, hsame ▸ h.sub, hsame ▸ h.length, hsame ▸ h.full⟩
  case neg =>
    rw [if_neg hmem, pushCapped]
    have hle := Finset.card_insert_le x xs.toFinset
    have hmono := Finset.card_le_card (Finset.subset_insert x xs.toFinset)
    have hlength := h.length
    by_cases hfull : set.length = cap
    case pos =>
      rw [if_pos hfull]
      have hdrop : set.drop 1 ⊆ set := List.drop_subset 1 set
      refine ⟨?_, ?_, ?_, fun hfit => ?_⟩
      · exact nodup_concat (h.nodup.sublist (List.drop_sublist 1 set)) fun hx => hmem (hdrop hx)
      · intro y hy
        rw [toFinset_concat] at hy ⊢
        refine Finset.insert_subset_insert x ?_ hy
        exact fun z hz => h.sub (List.mem_toFinset.mpr (hdrop (List.mem_toFinset.mp hz)))
      · rw [List.length_append, List.length_drop, List.length_singleton, toFinset_concat]
        omega
      · -- a full set and a new item are too many
        rw [toFinset_concat] at hfit
        rw [Finset.card_insert_of_notMem (h.not_mem (by omega) hmem)] at hfit
        omega
    case neg =>
      rw [if_neg hfull]
      have hset := h.full (by omega)
      have hnew := h.not_mem (by omega) hmem
      refine ⟨nodup_concat h.nodup hmem, ?_, ?_, fun _ => ?_⟩
      · rw [toFinset_concat, toFinset_concat, hset]
      · rw [List.length_append, List.length_singleton, toFinset_concat,
          Finset.card_insert_of_notMem hnew]
        omega
      · rw [toFinset_concat, toFinset_concat, hset]

end Sets

/-! ## Lists in order -/

/-- A filter that only the second part of a list passes. -/
lemma filter_cut {p : α → Bool} {xs ys : List α} (hxs : ∀ x ∈ xs, ¬ p x = true)
    (hys : ∀ y ∈ ys, p y = true) : (xs ++ ys).filter p = ys := by
  rw [List.filter_append, List.filter_eq_nil_iff.mpr hxs, List.filter_eq_self.mpr hys,
    List.nil_append]

/-- A property that the later items inherit holds of a final part of the list. -/
lemma exists_split {p : α → Prop} [DecidablePred p] (h : xs.Pairwise fun a b => p a → p b) :
    ∃ before after, xs = before ++ after ∧ (∀ a ∈ before, ¬ p a) ∧ ∀ b ∈ after, p b := by
  induction xs with
  | nil => exact ⟨[], [], rfl, by simp, by simp⟩
  | cons a xs ih =>
    obtain ⟨hhead, htail⟩ := List.pairwise_cons.mp h
    by_cases ha : p a
    case pos =>
      refine ⟨[], a :: xs, rfl, by simp, ?_⟩
      exact List.forall_mem_cons.mpr ⟨ha, fun b hb => hhead b hb ha⟩
    case neg =>
      obtain ⟨before, after, hxs, hbefore, hafter⟩ := ih htail
      exact ⟨a :: before, after, congrArg (a :: ·) hxs,
        List.forall_mem_cons.mpr ⟨ha, hbefore⟩, hafter⟩

end Lib
