import Mathlib.Tactic

/-!
# Ledgers of numbered hits

What a bucketed counter is for: a ledger remembers hits by the number of their bucket and answers
how many of them lie in the last `n` buckets. A ledger whose `head` can move back forgets hits: a
step from head `h` to bucket `b` drops every remembered hit with a number in `(h, b]`.

On the input sequence this reads as follows. A hit in bucket `b` is `forgotten` by the hits after it
when one of them falls below `b` and a still later one does not. `survivors` and `lost` split a
sequence accordingly, and `Ledger.live_after` shows that the ledger holds exactly the survivors. A
nondecreasing sequence loses nothing (`survivors_of_sorted`).
-/

namespace Lib

/-- Is a hit in bucket `b` forgotten by the hits that follow it? -/
def forgotten (b : Nat) (later : List Nat) : Bool :=
  (later.dropWhile fun y => b ≤ y).any fun z => b ≤ z

/-- The hits of a sequence that no later hits make the ledger forget. -/
def survivors : List Nat → List Nat
  | [] => []
  | b :: bs => if forgotten b bs then survivors bs else b :: survivors bs

/-- The hits of a sequence that later hits make the ledger forget. -/
def lost : List Nat → List Nat
  | [] => []
  | b :: bs => if forgotten b bs then b :: lost bs else lost bs

/-- Every hit survives or is lost. -/
lemma countP_survivors_add_lost (p : Nat → Bool) (bs : List Nat) :
    (survivors bs).countP p + (lost bs).countP p = bs.countP p := by
  induction bs with
  | nil => rfl
  | cons b bs ih =>
    rw [List.countP_cons]
    unfold survivors lost
    split
    · rw [List.countP_cons]; omega
    · rw [List.countP_cons]; omega

lemma mem_of_mem_survivors {x : Nat} {bs : List Nat} (h : x ∈ survivors bs) : x ∈ bs := by
  induction bs with
  | nil => cases h
  | cons b bs ih =>
    unfold survivors at h
    split at h
    · exact List.mem_cons_of_mem _ (ih h)
    · rcases List.mem_cons.mp h with rfl | h
      · exact List.mem_cons_self
      · exact List.mem_cons_of_mem _ (ih h)

lemma length_survivors_le (bs : List Nat) : (survivors bs).length ≤ bs.length := by
  have h := countP_survivors_add_lost (fun _ => true) bs
  simp only [List.countP_true] at h
  omega

/-- The last element of `d :: bs`. -/
def lastOf : Nat → List Nat → Nat
  | d, [] => d
  | _, b :: bs => lastOf b bs

@[simp] lemma lastOf_append {d c : Nat} {bs : List Nat} : lastOf d (bs ++ [c]) = c := by
  induction bs generalizing d with
  | nil => rfl
  | cons b bs ih => exact ih

lemma lastOf_lt {b d : Nat} {bs : List Nat} (hd : d < b) (h : ∀ y ∈ bs, y < b) :
    lastOf d bs < b := by
  induction bs generalizing d with
  | nil => exact hd
  | cons y bs ih => exact ih (h y (by simp)) fun z hz => h z (by simp [hz])

lemma survivors_cons {b : Nat} {bs : List Nat} :
    survivors (b :: bs) = if forgotten b bs then survivors bs else b :: survivors bs := rfl

lemma forgotten_cons_of_le {b y : Nat} {later : List Nat} (h : b ≤ y) :
    forgotten b (y :: later) = forgotten b later := by
  simp [forgotten, h]

lemma forgotten_cons_of_lt {b y : Nat} {later : List Nat} (h : y < b) :
    forgotten b (y :: later) = later.any fun z => b ≤ z := by
  have hy : ¬ b ≤ y := by omega
  simp [forgotten, hy]

/-- A hit that stays at or below everything after it is remembered. -/
lemma forgotten_eq_false {b : Nat} {later : List Nat} (h : ∀ y ∈ later, b ≤ y) :
    forgotten b later = false := by
  induction later with
  | nil => rfl
  | cons y later ih =>
    rw [forgotten_cons_of_le (h y (by simp))]
    exact ih fun z hz => h z (by simp [hz])

/-- A nondecreasing sequence loses nothing. -/
lemma survivors_of_sorted {bs : List Nat} (h : bs.Pairwise (· ≤ ·)) : survivors bs = bs := by
  induction bs with
  | nil => rfl
  | cons b bs ih =>
    obtain ⟨hb, hbs⟩ := List.pairwise_cons.mp h
    rw [survivors_cons, forgotten_eq_false hb, ih hbs]
    rfl

/-- One more hit `c` forgets a hit in bucket `b` when the hit before `c` lies below `b` and `c`
does not. -/
lemma forgotten_append {b c : Nat} {later : List Nat} :
    forgotten b (later ++ [c])
      = (forgotten b later || decide (lastOf b later < b ∧ b ≤ c)) := by
  -- on which side of `b` the tail has been so far decides the last element
  have key : ∀ d, b ≤ d → forgotten b (later ++ [c])
      = (forgotten b later || decide (lastOf d later < b ∧ b ≤ c)) := by
    induction later with
    | nil =>
      intro d hd
      have hd' : ¬ d < b := by omega
      by_cases h : b ≤ c <;> simp [forgotten, lastOf, h, hd']
    | cons y later ih =>
      intro d hd
      rcases Nat.lt_or_ge y b with h | h
      · rw [List.cons_append, forgotten_cons_of_lt h, forgotten_cons_of_lt h, List.any_append]
        cases hany : later.any fun z => decide (b ≤ z) with
        | true => simp
        | false =>
          have hlt : lastOf y later < b :=
            lastOf_lt h fun z hz => by simpa using List.any_eq_false.mp hany z hz
          have hlast : lastOf d (y :: later) = lastOf y later := rfl
          rw [hlast]
          simp [hlt]
      · rw [List.cons_append, forgotten_cons_of_le h, forgotten_cons_of_le h]
        exact ih y h
  exact key b le_rfl

/-- The survivors after one more hit: those the step from the last bucket does not pass over, and
the hit itself. -/
lemma survivors_append {c d : Nat} {bs : List Nat} :
    survivors (bs ++ [c])
      = (survivors bs).filter (fun x => !decide (lastOf d bs < x ∧ x ≤ c)) ++ [c] := by
  induction bs generalizing d with
  | nil => rfl
  | cons b bs ih =>
    rw [List.cons_append, survivors_cons, forgotten_append, ih (d := b), survivors_cons]
    have hlast : lastOf d (b :: bs) = lastOf b bs := rfl
    rw [hlast]
    cases hf : forgotten b bs with
    | true => rfl
    | false =>
      by_cases hd : lastOf b bs < b ∧ b ≤ c
      · simp [hd]
      · simp only [hd, decide_false, Bool.or_false, Bool.false_eq_true, ↓reduceIte,
          List.filter_cons, Bool.not_false, List.cons_append]

/-! ## The ledger -/

/-- The remembered hits by bucket number, the bucket of the last hit, and the largest bucket. -/
structure Ledger where
  live : List Nat
  head : Nat
  top : Nat

namespace Ledger

/-- The ledger before any hit. -/
def empty : Ledger := ⟨[], 0, 0⟩

/-- Record a hit in bucket `b`. -/
def hit (l : Ledger) (b : Nat) : Ledger where
  live := l.live.filter (fun x => !decide (l.head < x ∧ x ≤ b)) ++ [b]
  head := b
  top := max l.top b

/-- The number of remembered hits in the last `n` buckets. -/
def count (n : Nat) (l : Ledger) : Nat := l.live.countP fun x => l.top < x + n

/-- The ledger after a sequence of hits. -/
def after (bs : List Nat) : Ledger := bs.foldl hit empty

@[simp] lemma after_append {bs c} : after (bs ++ [c]) = (after bs).hit c := by
  simp [after]

/-- The head is at the bucket that was hit last. -/
lemma head_after {bs} : (after bs).head = lastOf 0 bs := by
  induction bs using List.reverseRecOn with
  | nil => rfl
  | append_singleton bs c _ => rw [after_append, lastOf_append]; rfl

/-- The ledger holds exactly the survivors. -/
lemma live_after {bs} : (after bs).live = survivors bs := by
  induction bs using List.reverseRecOn with
  | nil => rfl
  | append_singleton bs c ih =>
    rw [after_append, survivors_append (d := 0)]
    simp only [hit, ih, head_after]

lemma top_after_le {bs m} (h : ∀ b ∈ bs, b ≤ m) : (after bs).top ≤ m := by
  induction bs using List.reverseRecOn with
  | nil => exact Nat.zero_le _
  | append_singleton bs c ih =>
    rw [after_append]
    exact max_le (ih fun b hb => h b (by simp [hb])) (h c (by simp))

/-- No hit is beyond the top. -/
lemma le_top_after {bs b} (h : b ∈ bs) : b ≤ (after bs).top := by
  induction bs using List.reverseRecOn with
  | nil => cases h
  | append_singleton bs c ih =>
    rw [after_append]
    rcases List.mem_append.mp h with h | h
    · exact le_trans (ih h) (le_max_left _ _)
    · rw [List.mem_singleton.mp h]
      exact le_max_right _ _

/-- The largest bucket of a sequence that ends in it. -/
lemma top_after_eq {bs m} (h : ∀ b ∈ bs, b ≤ m) : (after (bs ++ [m])).top = m := by
  apply le_antisymm
  · apply top_after_le
    intro b hb
    rcases List.mem_append.mp hb with hb | hb
    · exact h b hb
    · exact Nat.le_of_eq (List.mem_singleton.mp hb)
  · exact le_top_after (by simp)

end Ledger

end Lib
