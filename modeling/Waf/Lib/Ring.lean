import Waf.Lib.Ledger

/-!
# Rings of buckets

A ring of `n` counters indexed by absolute bucket number modulo `n`, of which a hit clears those
between the bucket it last saw and its own. `hit` is parametric in the width `w` of a bucket in
seconds; its counters saturate and its sum wraps as 32-bit integers do.

`Refines` relates a ring to the ledger of its hits: each slot holds the number of remembered hits of
the one bucket of the last `n` that maps to it. `hit_refines` is the step lemma, for a hit at most
one bucket behind the largest one; `after_refines` lifts it to a sequence of hits and `hit_after`
reads the returned sum off the ledger.

For hits that come in any order, `Holds` relates a ring to its `Slots`: the hits whose slots no step
has cleared. Here a slot may hold hits of several buckets, and the returned sum is their total.
-/

namespace Lib

/-- The largest 32-bit unsigned integer. -/
def u32Max : Nat := 2 ^ 32 - 1

/-- `u32::saturating_add`. -/
def satAdd32 (a b : Nat) : Nat := min (a + b) u32Max

/-- Append to a queue of at most `cap` items, dropping the oldest. -/
def pushCapped {α : Type} (cap : Nat) (xs : List α) (x : α) : List α :=
  (if xs.length = cap then xs.drop 1 else xs) ++ [x]

/-- The counters and the time of the last hit. -/
structure Ring (n : Nat) where
  buckets : Vector Nat n
  headSecs : Nat
  deriving DecidableEq

namespace Ring
variable {n : Nat}

/-- No hits yet, at time zero. -/
def empty (n : Nat) : Ring n := ⟨Vector.replicate n 0, 0⟩

variable [NeZero n]

/-- Clear the `drift` slots after the one of bucket `head`. -/
def clear (v : Vector Nat n) (head drift : Nat) : Vector Nat n :=
  (List.range drift).foldl (fun v i => v.set (Fin.ofNat n (head + i + 1)) 0) v

/-- Record a hit at time `now`; returns the sum over the window and the new ring. -/
def hit (w : Nat) (c : Ring n) (now : Nat) : Nat × Ring n :=
  let head := c.headSecs / w
  let bucket := now / w
  let drift := bucket - head
  let cleared := if drift ≥ n then Vector.replicate n 0 else clear c.buckets head drift
  let idx := Fin.ofNat n bucket
  let buckets := cleared.set idx (satAdd32 cleared[idx] 1)
  (buckets.toList.sum % 2 ^ 32, ⟨buckets, now⟩)

/-- A hit that passes over all slots does not depend on what they hold. -/
lemma hit_eq_of_passed {w now : Nat} {c c' : Ring n} (h : n ≤ now / w - c.headSecs / w)
    (h' : n ≤ now / w - c'.headSecs / w) : hit w c now = hit w c' now := by
  simp only [hit, ge_iff_le, if_pos h, if_pos h']

/-- The hits that a ring holds. -/
def held (c : Ring n) : Nat := c.buckets.toList.sum

omit [NeZero n] in
/-- Slots that grow by one in one place add up to at most one more. -/
lemma sum_le_succ {v v' : Vector Nat n} {i : Nat}
    (h : ∀ j (hj : j < n), v'[j] ≤ v[j] + if j = i then 1 else 0) :
    v'.toList.sum ≤ v.toList.sum + 1 := by
  have hsum : ∀ u : Vector Nat n, u.toList.sum = ∑ j : Fin n, u[j] := by
    intro u
    rw [← List.sum_ofFn]
    congr 1
    refine List.ext_getElem (by simp) fun j h1 h2 => ?_
    simp
  have hone : (∑ j : Fin n, if (j : Nat) = i then 1 else 0) ≤ 1 := by
    rw [← Finset.card_filter]
    refine Finset.card_le_one.mpr fun a ha b hb => ?_
    rw [Finset.mem_filter] at ha hb
    exact Fin.ext (ha.2.trans hb.2.symm)
  rw [hsum, hsum]
  calc ∑ j : Fin n, v'[j] ≤ ∑ j : Fin n, (v[j] + if (j : Nat) = i then 1 else 0) :=
        Finset.sum_le_sum fun j _ => h j j.isLt
    _ = (∑ j : Fin n, v[j]) + ∑ j : Fin n, if (j : Nat) = i then 1 else 0 := Finset.sum_add_distrib
    _ ≤ (∑ j : Fin n, v[j]) + 1 := Nat.add_le_add_left hone _

/-- A slot is zero after clearing iff the drift goes over it, or it was. -/
lemma getElem_clear {v : Vector Nat n} {head drift j : Nat} (hj : j < n) :
    (clear v head drift)[j] = if ∃ i < drift, (head + i + 1) % n = j then 0 else v[j] := by
  induction drift with
  | zero => simp [clear]
  | succ d ih =>
    have e : clear v head (d + 1)
        = (clear v head d).set (Fin.ofNat n (head + d + 1)) 0 := by
      simp [clear, List.range_succ]
    rw [e, Vector.getElem_set, ih]
    simp only [Fin.val_ofNat]
    by_cases h : (head + d + 1) % n = j
    · have : ∃ i < d + 1, (head + i + 1) % n = j := ⟨d, by omega, h⟩
      rw [if_pos h, if_pos this]
    · have : (∃ i < d + 1, (head + i + 1) % n = j) ↔ ∃ i < d, (head + i + 1) % n = j := by
        constructor
        · rintro ⟨i, hi, hm⟩
          have : i ≠ d := fun e => h (e ▸ hm)
          exact ⟨i, by omega, hm⟩
        · rintro ⟨i, hi, hm⟩
          exact ⟨i, by omega, hm⟩
      rw [if_neg h]
      simp only [this]

/-- A hit adds at most one. -/
lemma held_hit_le {w now : Nat} {c : Ring n} : (hit w c now).2.held ≤ c.held + 1 := by
  have hcleared : ∀ j (hj : j < n), (if now / w - c.headSecs / w ≥ n then Vector.replicate n 0
      else clear c.buckets (c.headSecs / w) (now / w - c.headSecs / w))[j] ≤ c.buckets[j] := by
    intro j hj
    split
    case isTrue =>
      rw [Vector.getElem_replicate]
      exact Nat.zero_le _
    case isFalse =>
      rw [getElem_clear hj]
      split_ifs
      · exact Nat.zero_le _
      · exact le_rfl
  refine sum_le_succ (i := now / w % n) fun j hj => ?_
  simp only [hit, Vector.getElem_set, Fin.val_ofNat, Fin.getElem_fin]
  by_cases hi : now / w % n = j
  case pos =>
    subst hi
    rw [if_pos rfl, if_pos rfl]
    exact (Nat.min_le_left _ _).trans (Nat.add_le_add_right (hcleared _ hj) 1)
  case neg =>
    rw [if_neg hi, if_neg (Ne.symm hi)]
    exact hcleared j hj

/-- A ring holds, slot by slot, the remembered hits of a ledger. -/
structure Refines (w : Nat) (c : Ring n) (l : Ledger) : Prop where
  head : c.headSecs / w = l.head
  head_le : l.head ≤ l.top
  top_le : l.top ≤ l.head + 1
  live_le : ∀ x ∈ l.live, x ≤ l.top
  slot : ∀ j (h : j < n), c.buckets[j] = l.live.countP fun x => x % n = j ∧ l.top < x + n

variable {w : Nat} {c : Ring n} {l : Ledger}

omit [NeZero n] in
lemma empty_refines : Refines w (empty n) Ledger.empty where
  head := Nat.zero_div w
  head_le := Nat.le_refl 0
  top_le := Nat.zero_le 1
  live_le := nofun
  slot j h := by simp [empty, Ledger.empty]

omit [NeZero n] in
/-- Two hits of one slot in one window are in the same bucket. -/
lemma eq_of_mod_eq {x y m : Nat} (hmod : x % n = y % n) (hxy : x ≤ y) (hy : y ≤ m)
    (hx : m < x + n) : x = y := by
  have h := Nat.sub_mod_eq_zero_of_mod_eq hmod.symm
  have hd : y - x = 0 := Nat.eq_zero_of_dvd_of_lt (Nat.dvd_of_mod_eq_zero h) (by omega)
  omega

/-- The slots left over by the clearing step hold the hits that are not passed over. -/
lemma cleared_slot (hn : 2 ≤ n) (r : Refines w c l) {b j : Nat} (hb : l.top ≤ b + 1)
    (hj : j < n) :
    (if b - l.head ≥ n then Vector.replicate n 0 else clear c.buckets l.head (b - l.head))[j]
      = (l.live.filter fun x => !decide (l.head < x ∧ x ≤ b)).countP
          fun x => x % n = j ∧ max l.top b < x + n := by
  have hle := r.head_le
  have htop := r.top_le
  rw [List.countP_filter]
  by_cases hd : b - l.head ≥ n
  · -- every slot is reset, and nothing at or below the old head is still in the window
    simp only [if_pos hd, Vector.getElem_replicate]
    refine (List.countP_eq_zero.mpr fun x hx => ?_).symm
    have := r.live_le x hx
    simp only [Bool.and_eq_true, decide_eq_true_eq, Bool.not_eq_true', decide_eq_false_iff_not]
    omega
  · rw [if_neg hd, getElem_clear hj]
    split
    case isTrue h =>
      -- slot `j` belongs to a bucket `l.head + i + 1` that the step passes over
      obtain ⟨i, hi, hmod⟩ := h
      refine (List.countP_eq_zero.mpr fun x hx => ?_).symm
      have hx' := r.live_le x hx
      simp only [Bool.and_eq_true, decide_eq_true_eq, Bool.not_eq_true', decide_eq_false_iff_not]
      rintro ⟨⟨hxj, hxw⟩, hpass⟩
      have := eq_of_mod_eq (m := max l.top b) (hxj.trans hmod.symm) (by omega) (by omega) hxw
      omega
    case isFalse h =>
      rw [r.slot j hj]
      refine List.countP_congr fun x hx => ?_
      have hx' := r.live_le x hx
      simp only [Bool.and_eq_true, decide_eq_true_eq, Bool.not_eq_true', decide_eq_false_iff_not]
      constructor
      · rintro ⟨hxj, hxw⟩
        have hpass : ¬ (l.head < x ∧ x ≤ b) := fun hp =>
          h ⟨x - l.head - 1, by omega, by rw [← hxj]; congr 1; omega⟩
        refine ⟨⟨hxj, ?_⟩, hpass⟩
        by_contra hc
        -- otherwise the step passes over bucket `x + n`, which shares the slot of `x`
        exact h ⟨x + n - l.head - 1, by omega, by
          rw [← hxj, show l.head + (x + n - l.head - 1) + 1 = x + n by omega,
            Nat.add_mod_right]⟩
      · rintro ⟨⟨hxj, hxw⟩, _⟩
        exact ⟨hxj, by omega⟩

omit [NeZero n] in
lemma countP_lt_succ {p : Nat → Bool} {xs : List Nat} {k : Nat} :
    xs.countP (fun x => x % n < k + 1 ∧ p x)
      = xs.countP (fun x => x % n < k ∧ p x) + xs.countP fun x => x % n = k ∧ p x := by
  induction xs with
  | nil => rfl
  | cons x xs ih =>
    simp only [List.countP_cons, ih]
    cases p x with
    | false => simp
    | true =>
      simp only [and_true, decide_eq_true_eq]
      split_ifs <;> omega

/-- Every item is in one of the slots. -/
lemma sum_countP_mod (p : Nat → Bool) (xs : List Nat) :
    ((List.range n).map fun j => xs.countP fun x => x % n = j ∧ p x).sum = xs.countP p := by
  have hk : ∀ k, ((List.range k).map fun j => xs.countP fun x => x % n = j ∧ p x).sum
      = xs.countP fun x => x % n < k ∧ p x := by
    intro k
    induction k with
    | zero => simp
    | succ k ih =>
      rw [List.range_succ, List.map_append, List.sum_append, ih, countP_lt_succ]
      simp
  rw [hk]
  refine List.countP_congr fun x _ => ?_
  have hx : x % n < n := Nat.mod_lt _ (Nat.pos_of_neZero n)
  simp [hx]

omit [NeZero n] in
/-- A vector is the list of its slots. -/
lemma toList_eq_map {v : Vector Nat n} {f : Nat → Nat} (h : ∀ j (hj : j < n), v[j] = f j) :
    v.toList = (List.range n).map f := by
  apply List.ext_getElem
  · simp
  · intro j h1 h2
    simp only [Vector.getElem_toList, List.getElem_map, List.getElem_range]
    exact h j (by simpa using h1)

/-- The counters of a ring add up to the remembered hits of the window. -/
lemma sum_slots {v : Vector Nat n} {p : Nat → Bool} {xs : List Nat}
    (h : ∀ j (hj : j < n), v[j] = xs.countP fun x => x % n = j ∧ p x) :
    v.toList.sum = xs.countP p := by
  rw [toList_eq_map h, sum_countP_mod]

/-- One hit, at most one bucket behind the largest so far: the ring follows the ledger, and the
returned sum is the ledger's count. -/
lemma hit_refines (hn : 2 ≤ n) (r : Refines w c l) {now : Nat} (hlag : l.top ≤ now / w + 1)
    (hlen : l.live.length < u32Max) :
    (hit w c now).1 = (l.hit (now / w)).count n ∧ Refines w (hit w c now).2 (l.hit (now / w)) := by
  have hslot : ∀ j (hj : j < n), (hit w c now).2.buckets[j]
      = (l.hit (now / w)).live.countP
          fun x => x % n = j ∧ (l.hit (now / w)).top < x + n := by
    intro j hj
    have hcl := cleared_slot hn r hlag hj
    have hidx := cleared_slot hn r hlag (Nat.mod_lt (now / w) (Nat.pos_of_neZero n))
    simp only [hit, Ledger.hit, r.head, Vector.getElem_set, Fin.val_ofNat, List.countP_append,
      List.countP_singleton, Fin.getElem_fin, hidx, hcl]
    split
    case isTrue h =>
      subst h
      have hw : max l.top (now / w) < now / w + n := by omega
      simp only [hw, and_self, decide_true, ↓reduceIte, satAdd32]
      refine Nat.min_eq_left (lt_of_le_of_lt ?_ hlen)
      exact le_trans List.countP_le_length (List.length_filter_le _ _)
    case isFalse h =>
      simp [h]
  refine ⟨?_, rfl, le_max_right _ _, by simp only [Ledger.hit]; omega, ?_, hslot⟩
  · have hsum := sum_slots (p := fun x => (l.hit (now / w)).top < x + n) (by simpa using hslot)
    have hle : (l.hit (now / w)).live.countP (fun x => (l.hit (now / w)).top < x + n)
        ≤ l.live.length + 1 := by
      refine le_trans List.countP_le_length ?_
      simp only [Ledger.hit, List.length_append, List.length_singleton]
      exact Nat.succ_le_succ (List.length_filter_le _ _)
    have e : (hit w c now).1 = (hit w c now).2.buckets.toList.sum % 2 ^ 32 := rfl
    rw [e, hsum, Ledger.count, Nat.mod_eq_of_lt]
    exact lt_of_le_of_lt hle (by simp only [u32Max] at hlen; omega)
  · intro x hx
    simp only [Ledger.hit, List.mem_append, List.mem_filter, List.mem_singleton] at hx ⊢
    rcases hx with ⟨hx, _⟩ | rfl
    · exact le_trans (r.live_le x hx) (le_max_left _ _)
    · exact le_max_right _ _

/-- The ring after a sequence of hits. -/
def after (n : Nat) [NeZero n] (w : Nat) (ts : List Nat) : Ring n :=
  ts.foldl (fun c t => (hit w c t).2) (empty n)

/-- Each hit is at most one bucket behind the largest bucket before it. -/
def Lagged (w : Nat) (ts : List Nat) : Prop :=
  ∀ pre t, pre ++ [t] <+: ts → ∀ u ∈ pre, u / w ≤ t / w + 1

lemma Lagged.of_append {w ts t} (h : Lagged w (ts ++ [t])) : Lagged w ts :=
  fun pre u hp => h pre u (hp.trans (List.prefix_append _ _))

lemma top_after_le_succ {ts t} (h : Lagged w (ts ++ [t])) :
    (Ledger.after (ts.map (· / w))).top ≤ t / w + 1 := by
  refine Ledger.top_after_le fun b hb => ?_
  obtain ⟨u, hu, rfl⟩ := List.mem_map.mp hb
  exact h ts t (List.prefix_refl _) u hu

/-- The ring after a sequence of hits holds the ledger of their buckets. -/
lemma after_refines (hn : 2 ≤ n) {ts : List Nat} (hl : Lagged w ts) (hlen : ts.length ≤ u32Max) :
    Refines w (after n w ts) (Ledger.after (ts.map (· / w))) := by
  induction ts using List.reverseRecOn with
  | nil => exact empty_refines
  | append_singleton ts t ih =>
    rw [List.length_append, List.length_singleton] at hlen
    have r := ih hl.of_append (by omega)
    rw [List.map_append, List.map_singleton, Ledger.after_append]
    have e : after n w (ts ++ [t]) = (hit w (after n w ts) t).2 := by simp [after]
    rw [e]
    refine (hit_refines hn r (top_after_le_succ hl) ?_).2
    rw [Ledger.live_after]
    have := length_survivors_le (ts.map (· / w))
    rw [List.length_map] at this
    omega

/-- The sum returned by the last of a sequence of hits counts the survivors in its window. -/
lemma hit_after (hn : 2 ≤ n) {ts : List Nat} {t : Nat} (hl : Lagged w (ts ++ [t]))
    (hlen : ts.length < u32Max) :
    (hit w (after n w ts) t).1 = (Ledger.after ((ts ++ [t]).map (· / w))).count n := by
  have r := after_refines hn hl.of_append (Nat.le_of_lt hlen)
  rw [List.map_append, List.map_singleton, Ledger.after_append]
  refine (hit_refines hn r (top_after_le_succ hl) ?_).1
  rw [Ledger.live_after]
  have := length_survivors_le (ts.map (· / w))
  rw [List.length_map] at this
  omega

/-! ## Hits in any order -/

/-- Does the step from bucket `head` to bucket `b` clear the slot of bucket `x`? -/
def Passes (n head b x : Nat) : Prop := ∃ i < b - head, (head + i + 1) % n = x % n

instance {head b x : Nat} : Decidable (Passes n head b x) :=
  inferInstanceAs (Decidable (∃ i < b - head, _))

/-- The bucket of the last hit, and the buckets of the hits whose slots have not been cleared. -/
structure Slots (n : Nat) where
  head : Nat
  live : List Nat

/-- A ring holds, slot by slot, the hits that have not been cleared. -/
structure Holds (w : Nat) (c : Ring n) (s : Slots n) : Prop where
  head : c.headSecs / w = s.head
  slot : ∀ j (h : j < n), c.buckets[j] = min (s.live.countP fun x => x % n = j) u32Max

namespace Slots
omit [NeZero n]

/-- Record a hit in bucket `b`. -/
def hit (s : Slots n) (b : Nat) : Slots n where
  head := b
  live := s.live.filter (fun x => !decide (Passes n s.head b x)) ++ [b]

/-- The slots after a sequence of hits. -/
def after (n : Nat) (bs : List Nat) : Slots n := bs.foldl hit ⟨0, []⟩

/-- The sum of the counters, each of which saturates. -/
def total (s : Slots n) : Nat :=
  ((List.range n).map fun j => min (s.live.countP fun x => x % n = j) u32Max).sum % 2 ^ 32

/-- The hits that do not fit: those beyond the largest value of a counter, and what the sum drops. -/
def overflow (s : Slots n) : Nat :=
  ((List.range n).map fun j => (s.live.countP fun x => x % n = j) - u32Max).sum
    + 2 ^ 32
      * (((List.range n).map fun j => min (s.live.countP fun x => x % n = j) u32Max).sum / 2 ^ 32)

variable {s : Slots n} {b : Nat} {bs : List Nat}

@[simp] lemma after_append : after n (bs ++ [b]) = (after n bs).hit b := List.foldl_concat ..

lemma countP_live_le {p : Nat → Bool} : (after n bs).live.countP p ≤ bs.countP p := by
  induction bs using List.reverseRecOn with
  | nil => exact Nat.le_refl 0
  | append_singleton bs b ih =>
    rw [after_append, hit, List.countP_append, List.countP_append]
    exact Nat.add_le_add_right (List.filter_sublist.countP_le.trans ih) _

/-- On a nondecreasing sequence no hit of the last bucket is cleared. -/
lemma count_live_of_sorted (h : (bs ++ [b]).Pairwise (· ≤ ·)) :
    (after n (bs ++ [b])).live.count b = (bs ++ [b]).count b := by
  induction bs using List.reverseRecOn generalizing b with
  | nil => rfl
  | append_singleton bs a ih =>
    obtain ⟨hbs, -, hle⟩ := List.pairwise_append.mp h
    have hab : a ≤ b := hle a (by simp) b (by simp)
    rw [after_append, hit, List.count_append, List.count_append]
    congr 1
    rcases Nat.eq_or_lt_of_le hab with rfl | hlt
    · -- the step stays in its bucket and clears nothing
      have hnone : ∀ x, ¬ Passes n (after n (bs ++ [a])).head a x := by
        rintro x ⟨i, hi, -⟩
        rw [after_append, hit] at hi
        exact absurd hi (by simp)
      rw [List.filter_eq_self.mpr fun x _ => by simpa using hnone x]
      exact ih hbs
    · -- the bucket is new
      have hnew : (bs ++ [a]).count b = 0 := by
        refine List.count_eq_zero.mpr fun hb => ?_
        rcases List.mem_append.mp hb with hb | hb
        · have := (List.pairwise_append.mp hbs).2.2 b hb a (by simp)
          omega
        · have := List.mem_singleton.mp hb
          omega
      have hlive : (after n (bs ++ [a])).live.count b ≤ (bs ++ [a]).count b := countP_live_le
      have hcleared := (List.filter_sublist (l := (after n (bs ++ [a])).live)
        (p := fun x => !decide (Passes n (after n (bs ++ [a])).head b x))).count_le b
      omega

/-- The sum and the hits that do not fit are those that have not been cleared. -/
lemma total_add_overflow [NeZero n] : s.total + s.overflow = s.live.length := by
  have hsum := sum_countP_mod (n := n) (fun _ => true) s.live
  simp only [and_true, List.countP_true] at hsum
  have hsplit : (((List.range n).map fun j => min (s.live.countP fun x => x % n = j) u32Max).sum)
      + ((List.range n).map fun j => (s.live.countP fun x => x % n = j) - u32Max).sum
        = s.live.length := by
    rw [← List.sum_map_add, ← hsum]
    refine congrArg List.sum (List.map_congr_left fun j _ => ?_)
    rw [← tsub_min]
    exact Nat.add_sub_cancel' (Nat.min_le_left _ _)
  have hwrap := Nat.mod_add_div
    ((List.range n).map fun j => min (s.live.countP fun x => x % n = j) u32Max).sum (2 ^ 32)
  rw [total, overflow]
  omega

/-- Fewer than `2 ^ 32` hits all fit. -/
lemma overflow_eq_zero [NeZero n] (h : s.live.length < 2 ^ 32) : s.overflow = 0 := by
  have hcount : ∀ j, (s.live.countP fun x => x % n = j) ≤ u32Max := fun j =>
    List.countP_le_length.trans (Nat.le_pred_of_lt h)
  have hsum := sum_countP_mod (n := n) (fun _ => true) s.live
  simp only [and_true, List.countP_true] at hsum
  have hmin : ∀ j, min (s.live.countP fun x => x % n = j) u32Max = s.live.countP fun x => x % n = j :=
    fun j => Nat.min_eq_left (hcount j)
  have hrest : ∀ j, (s.live.countP fun x => x % n = j) - u32Max = 0 :=
    fun j => Nat.sub_eq_zero_of_le (hcount j)
  rw [overflow, funext hmin, hsum, Nat.div_eq_of_lt h, funext hrest, List.map_const', List.sum_replicate,
    smul_zero, Nat.mul_zero]

end Slots

/-- Every slot is among those of `n` consecutive buckets. -/
lemma exists_mod_eq {a d j : Nat} (hj : j < n) (hd : n ≤ d) : ∃ i < d, (a + i + 1) % n = j := by
  refine ⟨(j + (n - (a + 1) % n)) % n, (Nat.mod_lt _ (Nat.pos_of_neZero n)).trans_le hd, ?_⟩
  have hlt : (a + 1) % n < n := Nat.mod_lt _ (Nat.pos_of_neZero n)
  calc (a + (j + (n - (a + 1) % n)) % n + 1) % n
      = ((a + 1) + (j + (n - (a + 1) % n))) % n := by
        rw [Nat.add_right_comm, Nat.add_mod, Nat.mod_mod, ← Nat.add_mod]
    _ = ((a + 1) % n + (j + (n - (a + 1) % n))) % n := by
        rw [Nat.mod_add_mod]
    _ = (j + n) % n := by congr 1; omega
    _ = j := by rw [Nat.add_mod_right, Nat.mod_eq_of_lt hj]

variable {s : Slots n}

omit [NeZero n] in
lemma empty_holds : Holds w (empty n) (Slots.after n []) where
  head := Nat.zero_div w
  slot j h := by simp [empty, Slots.after]

/-- The clearing step empties the slots of the buckets that it passes and leaves the others. -/
lemma cleared_holds (r : Holds w c s) {b j : Nat} (hj : j < n) :
    (if b - s.head ≥ n then Vector.replicate n 0 else clear c.buckets s.head (b - s.head))[j]
      = min ((s.live.filter fun x => !decide (Passes n s.head b x)).countP fun x => x % n = j)
          u32Max := by
  rw [List.countP_filter]
  by_cases hpass : ∃ i < b - s.head, (s.head + i + 1) % n = j
  case pos =>
    have hnone : (s.live.countP fun x => decide (x % n = j) && !decide (Passes n s.head b x)) = 0 := by
      refine List.countP_eq_zero.mpr fun x _ => ?_
      simp only [Bool.and_eq_true, decide_eq_true_eq, Bool.not_eq_true', decide_eq_false_iff_not]
      rintro ⟨rfl, hkept⟩
      exact hkept hpass
    rw [hnone, Nat.zero_min]
    split
    case isTrue => exact Vector.getElem_replicate ..
    case isFalse => rw [getElem_clear hj, if_pos hpass]
  case neg =>
    have hd : ¬ b - s.head ≥ n := fun hd => hpass (exists_mod_eq hj hd)
    rw [if_neg hd, getElem_clear hj, if_neg hpass, r.slot j hj]
    congr 1
    refine List.countP_congr fun x _ => ?_
    simp only [Bool.and_eq_true, decide_eq_true_eq, Bool.not_eq_true', decide_eq_false_iff_not]
    constructor
    · rintro rfl
      exact ⟨rfl, hpass⟩
    · exact And.left

/-- One hit, whenever it comes: the ring holds what the slots hold, and the returned sum is their
total. -/
lemma hit_holds (r : Holds w c s) (now : Nat) :
    (hit w c now).1 = (s.hit (now / w)).total ∧ Holds w (hit w c now).2 (s.hit (now / w)) := by
  have hslot : ∀ j (hj : j < n), (hit w c now).2.buckets[j]
      = min ((s.hit (now / w)).live.countP fun x => x % n = j) u32Max := by
    intro j hj
    have hcl := cleared_holds r (b := now / w) hj
    have hidx := cleared_holds r (b := now / w) (Nat.mod_lt (now / w) (Nat.pos_of_neZero n))
    simp only [hit, Slots.hit, r.head, Vector.getElem_set, Fin.val_ofNat, List.countP_append,
      List.countP_singleton, Fin.getElem_fin, hidx, hcl]
    split
    case isTrue h =>
      subst h
      simp only [decide_true, ↓reduceIte, satAdd32]
      omega
    case isFalse h => simp [h]
  refine ⟨?_, rfl, hslot⟩
  show (hit w c now).2.buckets.toList.sum % 2 ^ 32 = _
  rw [toList_eq_map hslot]
  rfl

/-- The ring after any sequence of hits holds the slots of their buckets. -/
lemma after_holds (ts : List Nat) : Holds w (after n w ts) (Slots.after n (ts.map (· / w))) := by
  induction ts using List.reverseRecOn with
  | nil => exact empty_holds
  | append_singleton ts t ih =>
    have e : after n w (ts ++ [t]) = (hit w (after n w ts) t).2 := List.foldl_concat ..
    rw [e, List.map_append, List.map_singleton, Slots.after_append]
    exact (hit_holds ih t).2

/-- The sum returned by the last of any sequence of hits is the total of the slots. -/
lemma hit_after_total {ts : List Nat} {t : Nat} :
    (hit w (after n w ts) t).1 = (Slots.after n ((ts ++ [t]).map (· / w))).total := by
  rw [List.map_append, List.map_singleton, Slots.after_append]
  exact (hit_holds (after_holds ts) t).1

end Ring

end Lib
