import Waf.Lib.Ring
import Waf.Lib.Window

/-!
# Sliding-window counters

Model of the two `Counter` types, in `ratelimit.rs` and in `subnet.rs`: six buckets of ten seconds,
the same `hit` in both. A call of `hit` at time `now` returns the sum over the window and leaves the
new counter.

For hits in any order of arrival, `hit_value` says what the sum is: the hits of the last six buckets
that no late hit made the counter forget. On a nondecreasing clock nothing is forgotten and the
window is exact (`hit_exact`). When a hit of an earlier bucket arrives late, the next hit of the
current bucket clears that bucket again; `hit_keeps_bucket_iff` says exactly when the sum still
covers every hit of its own bucket.
-/

namespace Waf
open Lib

namespace Ratelimit

def BUCKETS : Nat := 6
def BUCKET_SECS : Nat := 10

instance : NeZero BUCKETS := ⟨by decide⟩

abbrev Counter := Ring BUCKETS

namespace Counter

def default : Counter := Ring.empty BUCKETS

def hit (c : Counter) (now : Nat) : Nat × Counter := Ring.hit BUCKET_SECS c now

/-- The counter after a sequence of hits on a fresh one. -/
def after (ts : List Nat) : Counter := ts.foldl (fun c t => (c.hit t).2) default

end Counter

end Ratelimit

namespace Subnet

def BUCKETS : Nat := 6
def BUCKET_SECS : Nat := 10

instance : NeZero BUCKETS := ⟨by decide⟩

abbrev Counter := Ring BUCKETS

namespace Counter

def default : Counter := Ring.empty BUCKETS

def hit (c : Counter) (now : Nat) : Nat × Counter := Ring.hit BUCKET_SECS c now

def current (c : Counter) : Nat := c.buckets.toList.sum % 2 ^ 32

/-- The counter after a sequence of hits on a fresh one. -/
def after (ts : List Nat) : Counter := ts.foldl (fun c t => (c.hit t).2) default

end Counter

end Subnet

/-- Every timestamp lags the largest one so far, `m` at the start, by less than `d`. -/
def Lags (d : Nat) : Nat → List Nat → Prop
  | _, [] => True
  | m, t :: ts => m < t + d ∧ Lags d (max m t) ts

instance {d : Nat} : ∀ {m : Nat} {ts : List Nat}, Decidable (Lags d m ts)
  | _, [] => .isTrue trivial
  | m, t :: ts =>
    have : Decidable (Lags d (max m t) ts) := instDecidableLags
    inferInstanceAs (Decidable (_ ∧ _))

/-- Every hit of a prefix is less than the lag behind. -/
lemma Lags.lt {d m ts pre t} (h : Lags d m ts) (hp : pre ++ [t] <+: ts) :
    m < t + d ∧ ∀ u ∈ pre, u < t + d := by
  induction ts generalizing m pre with
  | nil => exact absurd (List.prefix_nil.mp hp) (by simp)
  | cons x ts ih =>
    obtain ⟨hx, hts⟩ := h
    cases pre with
    | nil =>
      obtain ⟨rfl, _⟩ := List.cons_prefix_cons.mp hp
      exact ⟨hx, nofun⟩
    | cons y pre =>
      obtain ⟨rfl, hp'⟩ := List.cons_prefix_cons.mp hp
      obtain ⟨hm, hu⟩ := ih hts hp'
      refine ⟨lt_of_le_of_lt (le_max_left _ _) hm, ?_⟩
      intro u hmem
      rcases List.mem_cons.mp hmem with rfl | hmem
      · exact lt_of_le_of_lt (le_max_right _ _) hm
      · exact hu u hmem

/-- A lag below one bucket width is a lag of at most one bucket. -/
lemma Lags.lagged {w m ts} (hw : 0 < w) (h : Lags w m ts) : Ring.Lagged w ts := by
  intro pre t hp u hu
  have hlt := (h.lt hp).2 u hu
  calc u / w ≤ (t + w) / w := Nat.div_le_div_right (Nat.le_of_lt hlt)
    _ = t / w + 1 := Nat.add_div_right t hw

/-- A nondecreasing clock never lags. -/
lemma lagged_of_sorted {w ts} (h : ts.Pairwise (· ≤ ·)) : Ring.Lagged w ts := by
  intro pre t hp u hu
  have hpt := h.sublist hp.sublist
  have hut := (List.pairwise_append.mp hpt).2.2 u hu t (by simp)
  exact Nat.le_succ_of_le (Nat.div_le_div_right hut)

/-- The bucket numbers of a sequence of timestamps. -/
def bucketsOf (ts : List Nat) : List Nat := ts.map (· / 10)

/-- The number of hits of the window of the last hit that the counter remembers. -/
def remembered (ts : List Nat) (t : Nat) : Nat :=
  (Ledger.after (bucketsOf (ts ++ [t]))).count 6

/-- The hits in the bucket of the last hit, itself included. -/
def sameBucket (ts : List Nat) (t : Nat) : Nat := (ts ++ [t]).countP fun u => u / 10 = t / 10

/-- The hits in the bucket of the last hit that a late hit made the counter forget. -/
def forgottenHits (ts : List Nat) (t : Nat) : Nat := (lost (bucketsOf (ts ++ [t]))).count (t / 10)

/-- The hits of the five buckets before that of the last hit that the counter still remembers. -/
def carriedHits (ts : List Nat) (t : Nat) : Nat :=
  (survivors (bucketsOf (ts ++ [t]))).countP fun b => b < t / 10 ∧ t / 10 < b + 6

/-- What `hit` returns, in both copies. -/
lemma hit_value {ts t} (hl : Ring.Lagged 10 (ts ++ [t])) (hn : (ts ++ [t]).length < 2 ^ 32) :
    ((Ratelimit.Counter.after ts).hit t).1 = remembered ts t
      ∧ ((Subnet.Counter.after ts).hit t).1 = remembered ts t := by
  rw [List.length_append, List.length_singleton] at hn
  have h := Ring.hit_after (n := 6) (w := 10) (by decide) hl (by simp only [u32Max]; omega)
  exact ⟨h, h⟩

/-- A hit in the largest bucket so far returns the hits of its own bucket, less the forgotten ones,
and those it carries over. -/
lemma remembered_add_forgotten {ts t} (hmax : ∀ u ∈ ts, u / 10 ≤ t / 10) :
    remembered ts t + forgottenHits ts t = sameBucket ts t + carriedHits ts t := by
  have hb : ∀ b ∈ bucketsOf ts, b ≤ t / 10 := by
    intro b hb
    obtain ⟨u, hu, rfl⟩ := List.mem_map.mp hb
    exact hmax u hu
  have htop : (Ledger.after (bucketsOf (ts ++ [t]))).top = t / 10 := by
    rw [bucketsOf, List.map_append, List.map_singleton]
    exact Ledger.top_after_eq hb
  have hle : ∀ b ∈ survivors (bucketsOf (ts ++ [t])), b ≤ t / 10 := by
    intro b hb'
    have hm := mem_of_mem_survivors hb'
    rw [bucketsOf, List.map_append, List.mem_append, List.map_singleton, List.mem_singleton] at hm
    rcases hm with hm | rfl
    · exact hb b hm
    · exact le_rfl
  have hsame : sameBucket ts t = (bucketsOf (ts ++ [t])).countP (· == t / 10) := by
    rw [bucketsOf, List.countP_map]
    exact List.countP_congr fun u _ => by simp
  have hsplit : ∀ xs : List Nat, (∀ b ∈ xs, b ≤ t / 10) →
      xs.countP (fun b => t / 10 < b + 6)
        = xs.countP (· == t / 10) + xs.countP fun b => b < t / 10 ∧ t / 10 < b + 6 := by
    intro xs hxs
    induction xs with
    | nil => rfl
    | cons b xs ih =>
      have hbt := hxs b (by simp)
      simp only [List.countP_cons, ih fun c hc => hxs c (by simp [hc]), beq_iff_eq,
        decide_eq_true_eq]
      split_ifs <;> omega
  have hpart := countP_survivors_add_lost (· == t / 10) (bucketsOf (ts ++ [t]))
  have hcount : remembered ts t
      = (survivors (bucketsOf (ts ++ [t]))).countP fun b => t / 10 < b + 6 := by
    rw [remembered, Ledger.count, Ledger.live_after, htop]
  rw [hcount, hsplit _ hle, hsame, ← hpart, forgottenHits, carriedHits, List.count]
  omega

/-- Which hits a late hit costs: in every run whose timestamps lag by less than one bucket, a hit in
the largest bucket so far returns at least the hits of its own bucket exactly when the forgotten
ones among them are no more than the hits carried over from the five buckets before. -/
theorem hit_keeps_bucket_iff {run : List Nat} (lag : Lags 10 0 run) (len : run.length < 2 ^ 32)
    {ts : List Nat} {t : Nat} (call : ts ++ [t] <+: run) (hmax : ∀ u ∈ ts, u / 10 ≤ t / 10) :
    (sameBucket ts t ≤ ((Ratelimit.Counter.after ts).hit t).1
        ↔ forgottenHits ts t ≤ carriedHits ts t)
      ∧ (sameBucket ts t ≤ ((Subnet.Counter.after ts).hit t).1
        ↔ forgottenHits ts t ≤ carriedHits ts t) := by
  have hl : Ring.Lagged 10 (ts ++ [t]) :=
    fun pre u hp => lag.lagged (by decide) pre u (hp.trans call)
  have hlen := lt_of_le_of_lt call.length_le len
  have hsum := remembered_add_forgotten hmax
  obtain ⟨h1, h2⟩ := hit_value hl hlen
  rw [h1, h2]
  constructor <;> constructor <;> intro h <;> omega

/-- Two hits at 20 s, a late one at 11 s and one more at 29 s: two are forgotten and one is carried. -/
theorem hit_keeps_bucket_iff_witness :
    ((sameBucket [20, 20, 11] 29 ≤ ((Ratelimit.Counter.after [20, 20, 11]).hit 29).1
        ↔ forgottenHits [20, 20, 11] 29 ≤ carriedHits [20, 20, 11] 29)
      ∧ (sameBucket [20, 20, 11] 29 ≤ ((Subnet.Counter.after [20, 20, 11]).hit 29).1
        ↔ forgottenHits [20, 20, 11] 29 ≤ carriedHits [20, 20, 11] 29))
      ∧ forgottenHits [20, 20, 11] 29 = 2 ∧ carriedHits [20, 20, 11] 29 = 1 :=
  ⟨@hit_keeps_bucket_iff [20, 20, 11, 29] (by decide) (by decide) _ _ (List.prefix_refl _) (by decide),
    by decide⟩

/-- Two hits at 20 s, a late one at 11 s and one at 21 s: the last call returns 2, with three hits
in its bucket. -/
theorem hit_forgets_bucket :
    Lags 10 0 [20, 20, 11, 21] ∧ (∀ u ∈ [20, 20, 11], u / 10 ≤ 21 / 10)
      ∧ sameBucket [20, 20, 11] 21 = 3
      ∧ ((Ratelimit.Counter.after [20, 20, 11]).hit 21).1 = 2
      ∧ ((Subnet.Counter.after [20, 20, 11]).hit 21).1 = 2 := by
  decide

/-- On a nondecreasing clock the counter remembers every hit of the window. -/
lemma remembered_of_sorted {ts t} (hs : (ts ++ [t]).Pairwise (· ≤ ·)) :
    remembered ts t = recent 10 6 (ts ++ [t]) t := by
  have hbs : (bucketsOf (ts ++ [t])).Pairwise (· ≤ ·) :=
    hs.map (· / 10) fun _ _ h => Nat.div_le_div_right h
  have hle : ∀ b ∈ bucketsOf ts, b ≤ t / 10 := by
    rw [bucketsOf, List.map_append] at hbs
    exact fun b hb => (List.pairwise_append.mp hbs).2.2 b hb _ (by simp)
  have htop : (Ledger.after (bucketsOf (ts ++ [t]))).top = t / 10 := by
    rw [bucketsOf, List.map_append, List.map_singleton]
    exact Ledger.top_after_eq hle
  rw [remembered, Ledger.count, Ledger.live_after, survivors_of_sorted hbs, htop, bucketsOf,
    List.countP_map]
  refine List.countP_congr fun u _ => ?_
  simp only [Function.comp_apply, decide_eq_true_eq]
  omega

/-- On a nondecreasing clock, `hit` returns the number of hits in its bucket and the five before. -/
theorem hit_exact {ts : List Nat} {t : Nat} (hs : (ts ++ [t]).Pairwise (· ≤ ·))
    (hn : (ts ++ [t]).length < 2 ^ 32) :
    ((Ratelimit.Counter.after ts).hit t).1
        = (ts ++ [t]).countP (fun u => decide (t / 10 - u / 10 < 6))
      ∧ ((Subnet.Counter.after ts).hit t).1
        = (ts ++ [t]).countP fun u => decide (t / 10 - u / 10 < 6) := by
  have hval := remembered_of_sorted hs
  obtain ⟨h1, h2⟩ := hit_value (lagged_of_sorted hs) hn
  exact ⟨h1.trans hval, h2.trans hval⟩

/-- Four hits, the first of them beyond the window of the last. -/
theorem hit_exact_witness :
    ((Ratelimit.Counter.after [3, 14, 60]).hit 65).1
        = [3, 14, 60, 65].countP (fun u => decide (65 / 10 - u / 10 < 6))
      ∧ ((Subnet.Counter.after [3, 14, 60]).hit 65).1
        = [3, 14, 60, 65].countP fun u => decide (65 / 10 - u / 10 < 6) :=
  hit_exact (by decide) (by decide)

end Waf
