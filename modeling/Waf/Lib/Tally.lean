import Waf.Lib.HashMap

/-!
# Counting in a table

A table that counts how many things have each key: one more is written with `upsert`, one less with a
clamp at zero, and a sweep may drop entries that are not positive. An absent entry stands for zero.
`Tally` says that the table is right, whatever entries are there. The clamp is then never taken for a
key that is counted (`Tally.pos`), and the values add up to the number of all things
(`Tally.sum_values`).
-/

namespace Lib

variable {K : Type} [DecidableEq K] {m : HashMap K Int} {n n' : K → Nat} {k : K}

/-- The table counts `n k` things with key `k`. -/
def Tally (m : HashMap K Int) (n : K → Nat) : Prop := ∀ k, (m.lookup k).getD 0 = n k

/-- One thing less, with a clamp at zero. -/
def clampedPred (v : Int) : Int := if v ≤ 0 then 0 else v - 1

namespace Tally

lemma empty : Tally (∅ : HashMap K Int) fun _ => 0 := fun _ => rfl

lemma congr (h : Tally m n) (hn : ∀ j, n' j = n j) : Tally m n' := fun j =>
  (h j).trans (by rw [hn])

/-- The entry of a key that is counted is there and positive. -/
lemma pos (h : Tally m n) (hk : 0 < n k) : ∃ v, m.lookup k = some v ∧ 0 < v := by
  have hv := h k
  cases hl : m.lookup k with
  | none =>
    rw [hl, Option.getD_none] at hv
    omega
  | some v =>
    rw [hl, Option.getD_some] at hv
    exact ⟨v, rfl, by omega⟩

/-- One more. -/
lemma succ (h : Tally m n) (hn : ∀ j, n' j = n j + if j = k then 1 else 0) :
    Tally (m.upsert k 0 (· + 1)) n' := by
  intro j
  rw [hn, HashMap.upsert, HashMap.lookup_insert]
  split
  case isTrue hj =>
    subst hj
    rw [Option.getD_some, h j]
    rfl
  case isFalse => exact h j

/-- One less of a key that is counted. -/
lemma pred (h : Tally m n) (hn : ∀ j, n j = n' j + if j = k then 1 else 0) :
    Tally (m.modify k clampedPred) n' := by
  intro j
  by_cases hj : j = k
  case pos =>
    subst hj
    have hj := hn j
    rw [if_pos rfl] at hj
    obtain ⟨v, hv, hpos⟩ := h.pos (by omega : 0 < n j)
    have hcount := h j
    rw [hv, Option.getD_some] at hcount
    rw [HashMap.lookup_modify, hv, Option.map_some, Option.getD_some, clampedPred,
      if_neg (by omega)]
    omega
  case neg =>
    have hj' := hn j
    rw [if_neg hj] at hj'
    rw [HashMap.lookup_modify_ne hj, h j, hj']
    rfl

/-- A sweep that drops no positive entry does not change the count. -/
lemma retain {p : K → Int → Bool} (h : Tally m n) (hp : ∀ k v, 0 < v → p k v = true) :
    Tally (m.retain p) n := by
  intro k
  rw [HashMap.lookup_retain]
  have hk := h k
  cases hl : m.lookup k with
  | none =>
    rw [hl] at hk
    exact hk
  | some v =>
    rw [hl, Option.getD_some] at hk
    cases hv : p k v with
    | true =>
      rw [Option.filter_some, if_pos hv]
      exact hk
    | false =>
      have hzero : ¬ 0 < v := fun hpos => by
        rw [hp k v hpos] at hv
        cases hv
      rw [Option.filter_some, if_neg (by rw [hv]; exact Bool.false_ne_true), Option.getD_none]
      omega

/-- A key occurs once in a list of keys. -/
lemma sum_indicator {keys : List K} (nd : keys.Nodup) (hk : k ∈ keys) :
    (keys.map fun j => if k = j then 1 else 0).sum = 1 := by
  induction keys with
  | nil => cases hk
  | cons j keys ih =>
    obtain ⟨hj, nd⟩ := List.nodup_cons.mp nd
    rw [List.map_cons, List.sum_cons]
    by_cases e : k = j
    case pos =>
      subst e
      have hrest : keys.map (fun j => if k = j then 1 else 0) = keys.map fun _ => 0 :=
        List.map_congr_left fun j' hj' => if_neg fun e => hj (by rw [e]; exact hj')
      rw [if_pos rfl, hrest, List.map_const', List.sum_replicate]
      rfl
    case neg =>
      rw [if_neg e, Nat.zero_add]
      exact ih nd ((List.mem_cons.mp hk).resolve_left e)

/-- Counting key by key adds up to counting, if no key is missing. -/
lemma sum_countP {R : Type} {keys : List K} (nd : keys.Nodup) {rs : List R} {q : R → Bool}
    {key : R → K} (hkeys : ∀ r ∈ rs, q r = true → key r ∈ keys) :
    (keys.map fun k => rs.countP fun r => q r && decide (key r = k)).sum = rs.countP q := by
  induction rs with
  | nil =>
    simp only [List.countP_nil, List.map_const', List.sum_replicate, smul_zero]
  | cons r rs ih =>
    have ih := ih fun r' hr' => hkeys r' (.tail _ hr')
    simp only [List.countP_cons, List.sum_map_add, ih]
    congr 1
    cases hq : q r with
    | true =>
      simp only [Bool.true_and, decide_eq_true_eq]
      exact sum_indicator nd (hkeys r (.head _) hq)
    | false =>
      simp only [Bool.false_and, Bool.false_eq_true, if_false, List.map_const', List.sum_replicate,
        smul_zero]

/-- The values of a table, key by key. -/
lemma values_eq_map :
    m.values = m.keys.map fun k => (m.lookup k).getD 0 := by
  rw [HashMap.values, AList.keys, List.keys, List.map_map]
  refine List.map_congr_left fun e he => ?_
  have hlookup : m.lookup e.1 = some e.2 := List.mem_dlookup m.nodupKeys he
  rw [Function.comp_apply, hlookup, Option.getD_some]

/-- The values of the table add up to the number of things. -/
lemma sum_values {R : Type} {rs : List R} {q : R → Bool} {key : R → K}
    (h : Tally m fun k => rs.countP fun r => q r && decide (key r = k)) :
    m.values.sum = rs.countP q := by
  have hkeys : ∀ r ∈ rs, q r = true → key r ∈ m.keys := by
    intro r hr hq
    have hcount : 0 < rs.countP fun r' => q r' && decide (key r' = key r) :=
      List.countP_pos_iff.mpr ⟨r, hr, by rw [hq, decide_eq_true rfl]; rfl⟩
    obtain ⟨v, hv, -⟩ := h.pos hcount
    exact AList.mem_keys.mp (AList.lookup_isSome.mp (by rw [hv]; rfl))
  rw [values_eq_map, ← sum_countP m.keys_nodup hkeys, Nat.cast_list_sum, List.map_map]
  congr 1
  exact List.map_congr_left fun k _ => h k

end Tally

end Lib
