import Waf.Limiter.Admission

/-!
# Sweeps of the rate limiter

`RateLimiter::bump` takes two steps: it gets the counter of its key, inserting a new one first when
there is none, and releases the table; then it locks the counter and hits it. The table and the bumps
that are under way share the counters, so that a sweep may drop a counter that a bump is about to hit.
`Shared` is the state of such runs: the table gives the number of a counter in a heap.

A bump returns the hits that its counter holds. It misses the bumps of its key that hit another
counter, and those that a late hit has cleared; it may carry hits of other buckets. When no sweep drops
a counter that a bump is about to hit and the hits of a counter come in order, nothing is missed
(`counted_of_gentle`). `counted_iff` says when the hits that a bump carries make up for those it misses,
and that they need not in such runs.
-/

namespace Waf
open Lib
open Ratelimit (Counter)

namespace RateLimiter

/-- A bump that has got its counter. -/
structure Bump where
  key : Str
  now : Nat
  cell : Nat
  deriving DecidableEq

/-- The table, the counters it gives out, the bumps that wait for the lock of theirs, and those that
have returned. -/
structure Shared where
  counters : HashMap Str Nat := ∅
  heap : List Counter := []
  waiting : List Bump := []
  done : List Bump := []

inductive Op where
  | get (key : Str) (now : Nat)
  | hit (i : Nat)
  | gc (now : Nat)

/-- The time that a step reads. A hit comes with the one of its bump. -/
def Op.time : Op → Option Nat
  | get _ now => some now
  | hit _ => none
  | gc now => some now

namespace Shared

/-- The counter with a number. -/
def counter (s : Shared) (cell : Nat) : Counter := s.heap.getD cell Counter.default

/-- `bump` up to the lock of the counter. A bump that the full table turns away returns at once. -/
def get (s : Shared) (key : Str) (now : Nat) : Shared :=
  if !s.counters.containsKey key && maxKeys < s.counters.size then s
  else
    match s.counters.lookup key with
    | some cell => { s with waiting := s.waiting ++ [⟨key, now, cell⟩] }
    | none =>
      { s with
        counters := s.counters.insert key s.heap.length
        heap := s.heap ++ [Counter.default]
        waiting := s.waiting ++ [⟨key, now, s.heap.length⟩] }

/-- The rest of a bump, the one with number `i` of those that wait. -/
def hit (s : Shared) (i : Nat) (b : Bump) : Nat × Shared :=
  let (count, c) := (s.counter b.cell).hit b.now
  (count, { s with
    heap := s.heap.set b.cell c
    waiting := s.waiting.eraseIdx i
    done := s.done ++ [b] })

/-- `gc(120)`. -/
def gc (s : Shared) (now : Nat) : Shared :=
  { s with counters := s.counters.retain fun _ cell => now - (s.counter cell).headSecs < coldSecs }

def step (s : Shared) : Op → Shared
  | .get key now => s.get key now
  | .hit i =>
    match s.waiting[i]? with
    | some b => (s.hit i b).2
    | none => s
  | .gc now => s.gc now

def run (ops : List Op) : Shared := ops.foldl step {}

variable {s : Shared} {op : Op} {ops : List Op} {key : Str} {now cell i : Nat} {b d : Bump}

@[simp] lemma run_append : run (ops ++ [op]) = (run ops).step op := List.foldl_concat ..

/-- The first step of a bump: it is turned away, takes the counter of the table, or a new one. -/
lemma get_cases (s : Shared) (key : Str) (now : Nat) :
    (s.get key now = s ∧ s.counters.lookup key = none ∧ maxKeys < s.counters.size)
      ∨ (∃ cell, s.counters.lookup key = some cell
        ∧ s.get key now = { s with waiting := s.waiting ++ [⟨key, now, cell⟩] })
      ∨ (s.counters.lookup key = none ∧ s.counters.size ≤ maxKeys
        ∧ s.get key now = { s with
            counters := s.counters.insert key s.heap.length
            heap := s.heap ++ [Counter.default]
            waiting := s.waiting ++ [⟨key, now, s.heap.length⟩] }) := by
  rw [get, HashMap.containsKey]
  cases hlookup : s.counters.lookup key with
  | some cell => exact .inr (.inl ⟨cell, rfl, rfl⟩)
  | none =>
    rcases Nat.lt_or_ge maxKeys s.counters.size with hfull | hroom
    · rw [if_pos (by simpa using hfull)]
      exact .inl ⟨rfl, rfl, hfull⟩
    · rw [if_neg (by simpa using hroom)]
      exact .inr (.inr ⟨rfl, hroom, rfl⟩)

/-! ## The counters hold the hits -/

/-- The hits of a counter in a log. -/
def timesOn (cell : Nat) (log : List Bump) : List Nat :=
  (log.filter fun d => d.cell = cell).map Bump.now

/-- A number that has been given out, to a key. -/
def Given (s : Shared) (owner : Nat → Str) (key : Str) (cell : Nat) : Prop :=
  cell < s.heap.length ∧ owner cell = key

/-- Every counter is that of its hits, and is given out to one key only. -/
structure Owned (s : Shared) (owner : Nat → Str) : Prop where
  counter : ∀ cell, s.counter cell = Counter.after (timesOn cell s.done)
  table : ∀ key cell, s.counters.lookup key = some cell → s.Given owner key cell
  waiting : ∀ b ∈ s.waiting, s.Given owner b.key b.cell
  done : ∀ d ∈ s.done, s.Given owner d.key d.cell

lemma timesOn_append {log : List Bump} :
    timesOn cell (log ++ [b])
      = if b.cell = cell then timesOn cell log ++ [b.now] else timesOn cell log := by
  rw [timesOn, List.filter_append, List.map_append]
  by_cases h : b.cell = cell
  case pos => simp [h, timesOn]
  case neg => simp [h, timesOn]

/-- A new counter is empty, as one without a number is. -/
lemma getD_push {cs : List Counter} :
    (cs ++ [Counter.default]).getD cell Counter.default = cs.getD cell Counter.default := by
  rw [List.getD_eq_getElem?_getD, List.getD_eq_getElem?_getD, List.getElem?_append]
  by_cases h : cell < cs.length
  case pos => rw [if_pos h]
  case neg =>
    rw [if_neg h, List.getElem?_eq_none (Nat.le_of_not_lt h)]
    cases cell - cs.length <;> rfl

/-- A cell that has just been made is a default counter. -/
lemma getD_fresh {cs : List Counter} :
    (cs ++ [Counter.default]).getD cs.length Counter.default = Counter.default := by
  rw [List.getD_eq_getElem?_getD, List.getElem?_concat_length]
  rfl

lemma owned_empty : Owned {} fun _ => [] where
  counter _ := rfl
  table key cell h := by cases h
  waiting _ h := by cases h
  done _ h := by cases h

/-- A new number is given out to the key that asks for it. -/
lemma Owned.push {owner : Nat → Str} (h : Owned s owner) (key : Str) (now : Nat) :
    Owned { s with
      counters := s.counters.insert key s.heap.length
      heap := s.heap ++ [Counter.default]
      waiting := s.waiting ++ [⟨key, now, s.heap.length⟩] }
      (Function.update owner s.heap.length key) := by
  have old : ∀ {k cell}, s.Given owner k cell → cell < (s.heap ++ [Counter.default]).length
      ∧ Function.update owner s.heap.length key cell = k := by
    rintro k cell ⟨hlt, hown⟩
    rw [List.length_append, Function.update_of_ne (Nat.ne_of_lt hlt)]
    exact ⟨Nat.lt_add_right _ hlt, hown⟩
  have new : s.heap.length < (s.heap ++ [Counter.default]).length
      ∧ Function.update owner s.heap.length key s.heap.length = key := by
    rw [List.length_append, Function.update_self]
    exact ⟨Nat.lt_add_one _, rfl⟩
  refine ⟨fun cell => getD_push.trans (h.counter cell), ?_, ?_, fun d hd => old (h.done d hd)⟩
  · intro k cell hk
    by_cases hkey : k = key
    case pos =>
      subst hkey
      obtain rfl := Option.some.inj ((AList.lookup_insert _).symm.trans hk)
      exact new
    case neg => exact old (h.table k cell ((AList.lookup_insert_ne hkey).symm.trans hk))
  · intro b hb
    rcases List.mem_append.mp hb with hb | hb
    · exact old (h.waiting b hb)
    · rw [List.mem_singleton.mp hb]
      exact new

/-- Getting a counter gives a new cell to its key, if it makes one. -/
lemma Owned.get {owner : Nat → Str} (h : Owned s owner) (key : Str) (now : Nat) :
    ∃ owner', Owned (s.get key now) owner' := by
  obtain ⟨heq, -⟩ | ⟨cell, hlookup, heq⟩ | ⟨-, -, heq⟩ := get_cases s key now
  · rw [heq]
    exact ⟨owner, h⟩
  · rw [heq]
    refine ⟨owner, h.counter, h.table, ?_, h.done⟩
    intro b hb
    rcases List.mem_append.mp hb with hb | hb
    · exact h.waiting b hb
    · rw [List.mem_singleton.mp hb]
      exact h.table key cell hlookup
  · rw [heq]
    exact ⟨_, h.push key now⟩

/-- A hit keeps the owners of all cells. -/
lemma Owned.hit {owner : Nat → Str} (h : Owned s owner) (hb : s.waiting[i]? = some b) :
    Owned (s.hit i b).2 owner := by
  have hmem : b ∈ s.waiting := List.mem_of_getElem? hb
  obtain ⟨hlt, hown⟩ := h.waiting b hmem
  have keep : ∀ {k cell}, s.Given owner k cell → (s.hit i b).2.Given owner k cell :=
    fun hg => ⟨hg.1.trans_eq (List.length_set ..).symm, hg.2⟩
  refine ⟨?_, fun k cell hk => keep (h.table k cell hk),
    fun d hd => keep (h.waiting d (List.mem_of_mem_eraseIdx hd)), ?_⟩
  · intro cell
    show (s.heap.set b.cell ((s.counter b.cell).hit b.now).2).getD cell Counter.default
      = Counter.after (timesOn cell (s.done ++ [b]))
    rw [timesOn_append, List.getD_eq_getElem?_getD]
    by_cases hcell : b.cell = cell
    case pos =>
      subst hcell
      rw [if_pos rfl, List.getElem?_set_self hlt, h.counter]
      exact (List.foldl_concat (fun c t => (Counter.hit c t).2) ..).symm
    case neg =>
      rw [if_neg hcell, List.getElem?_set_ne hcell]
      exact h.counter cell
  · intro d hd
    rcases List.mem_append.mp hd with hd | hd
    · exact keep (h.done d hd)
    · rw [List.mem_singleton.mp hd]
      exact keep ⟨hlt, hown⟩

/-- So does a sweep. -/
lemma Owned.gc {owner : Nat → Str} (h : Owned s owner) (now : Nat) : Owned (s.gc now) owner where
  counter := h.counter
  table key cell hk := by
    have hk' : (s.counters.lookup key).filter _ = some cell := HashMap.lookup_retain.symm.trans hk
    exact h.table key cell (Option.filter_eq_some_iff.mp hk').1
  waiting := h.waiting
  done := h.done

/-- What one step keeps. -/
lemma Owned.step {owner : Nat → Str} (h : Owned s owner) (op : Op) :
    ∃ owner', Owned (s.step op) owner' := by
  cases op with
  | get key now => exact h.get key now
  | gc now => exact ⟨owner, h.gc now⟩
  | hit i =>
    rw [Shared.step]
    cases hb : s.waiting[i]? with
    | some b => exact ⟨owner, h.hit hb⟩
    | none => exact ⟨owner, h⟩

lemma run_owned (ops : List Op) : ∃ owner, Owned (run ops) owner := by
  induction ops using List.reverseRecOn with
  | nil => exact ⟨_, owned_empty⟩
  | append_singleton ops op ih =>
    obtain ⟨owner, h⟩ := ih
    rw [run_append]
    exact h.step op

/-! ## Bumps with nothing in between -/

/-- Both steps of a bump. -/
def bump (s : Shared) (key : Str) (now : Nat) : Nat × Shared :=
  let s' := s.get key now
  match s'.waiting[s.waiting.length]? with
  | some b => s'.hit s.waiting.length b
  | none => (999999, s')

/-- The table and the counters that it gives out are those of a limiter. -/
def Shows (s : Shared) (rl : RateLimiter) : Prop :=
  ∀ k, rl.counters.lookup k = (s.counters.lookup k).map s.counter

variable {rl : RateLimiter}

/-- What a hit of the counter of a key shows. -/
lemma hit_shows {owner : Nat → Str} (h : Owned s owner) (hs : s.Shows rl)
    (hcell : s.counters.lookup b.key = some b.cell) :
    (s.hit i b).2.Shows
      { rl with counters := rl.counters.insert b.key ((s.counter b.cell).hit b.now).2 } := by
  obtain ⟨hlt, hown⟩ := h.table b.key b.cell hcell
  intro k
  show (AList.insert b.key _ rl.counters).lookup k = (s.counters.lookup k).map fun cell =>
    (s.heap.set b.cell ((s.counter b.cell).hit b.now).2).getD cell Counter.default
  by_cases hk : k = b.key
  case pos =>
    subst hk
    rw [AList.lookup_insert, hcell, Option.map_some, List.getD_eq_getElem?_getD,
      List.getElem?_set_self hlt]
    rfl
  case neg =>
    rw [AList.lookup_insert_ne hk, hs k]
    cases hlookup : s.counters.lookup k with
    | none => rfl
    | some cell =>
      have hne : b.cell ≠ cell := by
        rintro rfl
        exact hk ((h.table k b.cell hlookup).2.symm.trans hown)
      rw [Option.map_some, Option.map_some, List.getD_eq_getElem?_getD, List.getElem?_set_ne hne]
      rfl

/-- A new counter shows an entry without hits. -/
lemma push_shows (hs : s.Shows rl) (key : Str) (now : Nat) :
    Shows { s with
      counters := s.counters.insert key s.heap.length
      heap := s.heap ++ [Counter.default]
      waiting := s.waiting ++ [⟨key, now, s.heap.length⟩] }
      { rl with counters := rl.counters.insert key Counter.default } := by
  intro k
  show (AList.insert key _ rl.counters).lookup k = ((AList.insert key _ s.counters).lookup k).map
    fun cell => (s.heap ++ [Counter.default]).getD cell Counter.default
  by_cases hk : k = key
  case pos =>
    subst hk
    rw [AList.lookup_insert, AList.lookup_insert, Option.map_some, getD_fresh]
  case neg =>
    rw [AList.lookup_insert_ne hk, AList.lookup_insert_ne hk, hs k]
    exact Option.map_congr fun cell _ => getD_push.symm

/-- A bump is its two halves in a row. -/
lemma bump_of_get (hget : (s.get key now).waiting = s.waiting ++ [b]) :
    s.bump key now = (s.get key now).hit s.waiting.length b := by
  have hb : (s.get key now).waiting[s.waiting.length]? = some b := by
    rw [hget]
    exact List.getElem?_concat_length
  rw [bump, hb]

/-- A bump with nothing between its steps is that of the limiter. -/
theorem bump_shows {owner : Nat → Str} (h : Owned s owner) (hs : s.Shows rl) (key : Str)
    (now : Nat) :
    (s.bump key now).1 = (rl.bump key now).1 ∧ (s.bump key now).2.Shows (rl.bump key now).2 := by
  have hsome : ∀ k, (rl.counters.lookup k).isSome = (s.counters.lookup k).isSome := by
    intro k
    rw [hs k, Option.isSome_map]
  obtain ⟨owner', howned⟩ := h.get key now
  obtain ⟨heq, hnone, hsize⟩ | ⟨cell, hlookup, heq⟩ | ⟨hlookup, hroom, heq⟩ := get_cases s key now
  · -- both tables are full
    have hfull : (!rl.counters.containsKey key && decide (maxKeys < rl.counters.size)) = true := by
      rw [HashMap.containsKey, hsome, hnone, HashMap.size_eq_of_isSome hsome]
      exact decide_eq_true hsize
    have hwaiting : s.waiting[s.waiting.length]? = none := List.getElem?_eq_none (Nat.le_refl _)
    rw [bump, heq, hwaiting, RateLimiter.bump, if_pos hfull]
    exact ⟨rfl, hs⟩
  · have hopen : ¬ (!rl.counters.containsKey key && decide (maxKeys < rl.counters.size)) = true := by
      rw [HashMap.containsKey, hsome, hlookup]
      exact Bool.false_ne_true
    have hentry : (rl.counters.lookup key).getD Counter.default = s.counter cell := by
      rw [hs key, hlookup]
      rfl
    rw [RateLimiter.bump, if_neg hopen, hentry, bump_of_get (congrArg waiting heq)]
    rw [heq] at howned ⊢
    exact ⟨rfl, hit_shows (b := ⟨key, now, cell⟩) howned hs hlookup⟩
  · have hopen : ¬ (!rl.counters.containsKey key && decide (maxKeys < rl.counters.size)) = true := by
      rw [HashMap.size_eq_of_isSome hsome, decide_eq_false (Nat.not_lt.mpr hroom), Bool.and_false]
      exact Bool.false_ne_true
    have hentry : (rl.counters.lookup key).getD Counter.default = Counter.default := by
      rw [hs key, hlookup]
      rfl
    have hnew : (s.get key now).counter s.heap.length = Counter.default := by
      rw [heq]
      exact getD_fresh
    have hshows := hit_shows (i := s.waiting.length) (b := ⟨key, now, s.heap.length⟩) howned
      (by rw [heq]; exact push_shows hs key now) (by rw [heq]; exact AList.lookup_insert _)
    rw [RateLimiter.bump, if_neg hopen, hentry, bump_of_get (congrArg waiting heq)]
    rw [hnew] at hshows
    refine ⟨?_, ?_⟩
    · show ((s.get key now).counter s.heap.length |>.hit now).1 = _
      rw [hnew]
    · simpa only [AList.insert_insert] using hshows

/-- A sweep of the shared table is that of the limiter. -/
theorem gc_shows (hs : s.Shows rl) (now : Nat) : (s.gc now).Shows (rl.gc coldSecs now) := by
  intro k
  show (rl.counters.retain _).lookup k = ((s.counters.retain _).lookup k).map s.counter
  rw [HashMap.lookup_retain, HashMap.lookup_retain, hs k]
  cases s.counters.lookup k with
  | none => rfl
  | some cell =>
    rw [Option.map_some, Option.filter_some, Option.filter_some]
    split
    case isTrue => rfl
    case isFalse => rfl

/-! ## What a bump returns -/

/-- The hits of the counter of a bump, its own included, that no step has cleared. -/
def held (log : List Bump) (b : Bump) : Ring.Slots 6 :=
  Ring.Slots.after 6 (bucketsOf (timesOn b.cell (log ++ [b])))

/-- The bumps of the key in the bucket of a bump. -/
def completed (log : List Bump) (b : Bump) : Nat :=
  log.countP fun d => d.key = b.key ∧ d.now / 10 = b.now / 10

/-- Those of them that hit another counter. -/
def missed (log : List Bump) (b : Bump) : Nat :=
  log.countP fun d => (d.key = b.key ∧ d.now / 10 = b.now / 10) ∧ d.cell ≠ b.cell

/-- Those of them that hit the counter of the bump, but were cleared by late hits. -/
def cleared (log : List Bump) (b : Bump) : Nat :=
  (bucketsOf (timesOn b.cell (log ++ [b]))).count (b.now / 10) - (held log b).live.count (b.now / 10)

/-- The hits of other buckets that the counter of the bump holds. -/
def carried (log : List Bump) (b : Bump) : Nat := (held log b).live.countP fun x => x ≠ b.now / 10

/-- The hits that do not fit into 32 bits, those of one slot or those of all. -/
def spilled (log : List Bump) (b : Bump) : Nat := (held log b).overflow

/-- The bump that hits next counts those of its key that have returned and were in its bucket. -/
def Counts (s : Shared) (i : Nat) (b : Bump) : Prop := completed s.done b + 1 ≤ (s.hit i b).1

instance {s : Shared} {i : Nat} {b : Bump} : Decidable (s.Counts i b) :=
  inferInstanceAs (Decidable (_ ≤ _))

/-- A bump returns the total of the hits that its counter holds. -/
lemma hit_value {owner : Nat → Str} (h : Owned s owner) : (s.hit i b).1 = (held s.done b).total := by
  have hcounter : (s.hit i b).1 = ((s.counter b.cell).hit b.now).1 := rfl
  rw [hcounter, h.counter, held, timesOn_append, if_pos rfl]
  exact Ring.hit_after_total (n := 6) (w := 10)

/-- The hits of a key in a bucket are those of one counter and those of the others. -/
lemma completed_add_one {owner : Nat → Str} (h : Owned s owner) (hb : b ∈ s.waiting) :
    completed s.done b + 1
      = (bucketsOf (timesOn b.cell (s.done ++ [b]))).count (b.now / 10) + missed s.done b := by
  have hsame : (bucketsOf (timesOn b.cell s.done)).count (b.now / 10)
      = s.done.countP fun d => (d.key = b.key ∧ d.now / 10 = b.now / 10) ∧ d.cell = b.cell := by
    rw [bucketsOf, timesOn, List.count, List.countP_map, List.countP_map, List.countP_filter]
    refine List.countP_congr fun d hd => ?_
    simp only [Function.comp_apply, Bool.and_eq_true, beq_iff_eq, decide_eq_true_eq]
    constructor
    · rintro ⟨hbucket, hcell⟩
      refine ⟨⟨?_, hbucket⟩, hcell⟩
      rw [← (h.done d hd).2, hcell, (h.waiting b hb).2]
    · rintro ⟨⟨-, hbucket⟩, hcell⟩
      exact ⟨hbucket, hcell⟩
  have hsplit : completed s.done b
      = (s.done.countP fun d => (d.key = b.key ∧ d.now / 10 = b.now / 10) ∧ d.cell = b.cell)
        + missed s.done b := by
    rw [completed, List.countP_eq_countP_filter_add _ _ fun d => decide (d.cell = b.cell),
      List.countP_filter, List.countP_filter, missed]
    congr 1
    · exact List.countP_congr fun d _ => by simp
    · exact List.countP_congr fun d _ => by simp
  have hself : (bucketsOf (timesOn b.cell (s.done ++ [b]))).count (b.now / 10)
      = (bucketsOf (timesOn b.cell s.done)).count (b.now / 10) + 1 := by
    rw [timesOn_append, if_pos rfl, bucketsOf, List.map_append, List.count_append]
    simp [bucketsOf]
  rw [hsplit, hself, hsame]
  omega

/-- What the bumps that have returned and the value of the next one have in common. -/
lemma completed_balance {owner : Nat → Str} (h : Owned s owner) (hb : b ∈ s.waiting) :
    completed s.done b + 1 + carried s.done b
      = (s.hit i b).1 + (missed s.done b + cleared s.done b + spilled s.done b) := by
  have hown := completed_add_one h hb
  have htotal : (held s.done b).total + (held s.done b).overflow = (held s.done b).live.length :=
    Ring.Slots.total_add_overflow
  have hlive : (held s.done b).live.count (b.now / 10)
      ≤ (bucketsOf (timesOn b.cell (s.done ++ [b]))).count (b.now / 10) := Ring.Slots.countP_live_le
  have hlen := List.length_eq_countP_add_countP (fun x => x == b.now / 10) (l := (held s.done b).live)
  have hcarried : carried s.done b
      = (held s.done b).live.countP fun x => decide ¬ (x == b.now / 10) = true :=
    List.countP_congr fun x _ => by simp
  rw [hit_value h, cleared, spilled]
  rw [List.count] at hlive hown ⊢
  omega

/-! ## Gentle runs -/

/-- The clock does not run back, a hit comes no earlier than those of its counter before it, and a
sweep drops no counter that a bump waits for. -/
def Gentle (s : Shared) (clock : Nat) : Op → Prop
  | .get _ now => clock ≤ now
  | .hit i => ∀ b, s.waiting[i]? = some b → ∀ d ∈ s.done, d.cell = b.cell → d.now ≤ b.now
  | .gc now => clock ≤ now ∧ ∀ b ∈ s.waiting, now < (s.counter b.cell).headSecs + coldSecs

instance {s : Shared} {clock : Nat} : ∀ {op : Op}, Decidable (Gentle s clock op)
  | .get _ now => inferInstanceAs (Decidable (clock ≤ now))
  | .hit i => inferInstanceAs (Decidable
      (∀ b ∈ s.waiting[i]?, ∀ d ∈ s.done, d.cell = b.cell → d.now ≤ b.now))
  | .gc now => inferInstanceAs (Decidable
      (clock ≤ now ∧ ∀ b ∈ s.waiting, now < (s.counter b.cell).headSecs + coldSecs))

/-- A run of gentle steps, and the clock after it. -/
inductive GentleRun : List Op → Nat → Prop
  | nil : GentleRun [] 0
  | snoc {ops clock op} : GentleRun ops clock → Gentle (run ops) clock op →
      GentleRun (ops ++ [op]) (op.time.getD clock)

/-- The counters of the waiting bumps are in the table, and the hits of other counters are old. -/
structure Steady (s : Shared) (clock : Nat) : Prop where
  attached : ∀ b ∈ s.waiting, s.counters.lookup b.key = some b.cell
  old : ∀ d ∈ s.done, s.counters.lookup d.key = some d.cell ∨ d.now + coldSecs ≤ clock
  apart : ∀ b ∈ s.waiting, ∀ d ∈ s.done, d.key = b.key →
    d.cell = b.cell ∨ d.now + coldSecs ≤ b.now
  head : ∀ d ∈ s.done, d.now ≤ (s.counter d.cell).headSecs
  sorted : ∀ cell, (timesOn cell s.done).Pairwise (· ≤ ·)

variable {clock : Nat}

lemma steady_empty : Steady {} 0 where
  attached _ h := by cases h
  old _ h := by cases h
  apart _ h := by cases h
  head _ h := by cases h
  sorted _ := List.Pairwise.nil

/-- A bump that takes the counter of the table, where what has returned has hit it or is old. -/
lemma Steady.enter (h : Steady s clock) (hnow : clock ≤ now)
    (hcell : ∀ d ∈ s.done, d.key = key → s.counters.lookup d.key = some d.cell → d.cell = cell) :
    ∀ d ∈ s.done, d.key = key → d.cell = cell ∨ d.now + coldSecs ≤ now := by
  intro d hd hkey
  rcases h.old d hd with hlookup | hold
  · exact .inl (hcell d hd hkey hlookup)
  · exact .inr (hold.trans hnow)

lemma Steady.get (h : Steady s clock) (key : Str) (hnow : clock ≤ now) :
    Steady (s.get key now) now := by
  have hold : ∀ d ∈ s.done, s.counters.lookup d.key = some d.cell ∨ d.now + coldSecs ≤ now :=
    fun d hd => (h.old d hd).imp_right fun hle => hle.trans hnow
  obtain ⟨heq, -⟩ | ⟨cell, hlookup, heq⟩ | ⟨hlookup, -, heq⟩ := get_cases s key now
  · rw [heq]
    exact ⟨h.attached, hold, h.apart, h.head, h.sorted⟩
  · rw [heq]
    refine ⟨?_, hold, ?_, h.head, h.sorted⟩
    · intro b hb
      rcases List.mem_append.mp hb with hb | hb
      · exact h.attached b hb
      · rw [List.mem_singleton.mp hb]
        exact hlookup
    · intro b hb
      rcases List.mem_append.mp hb with hb | hb
      · exact h.apart b hb
      · rw [List.mem_singleton.mp hb]
        refine h.enter hnow fun d _ hkey hd => ?_
        rw [hkey, hlookup] at hd
        exact (Option.some.inj hd).symm
  · rw [heq]
    have hkeep : ∀ {k c}, s.counters.lookup k = some c →
        (s.counters.insert key s.heap.length).lookup k = some c := by
      intro k c hk
      have hne : k ≠ key := by
        rintro rfl
        rw [hlookup] at hk
        cases hk
      exact (AList.lookup_insert_ne hne).trans hk
    refine ⟨?_, fun d hd => (hold d hd).imp_left hkeep, ?_, ?_, h.sorted⟩
    · intro b hb
      rcases List.mem_append.mp hb with hb | hb
      · exact hkeep (h.attached b hb)
      · rw [List.mem_singleton.mp hb]
        exact AList.lookup_insert _
    · intro b hb
      rcases List.mem_append.mp hb with hb | hb
      · exact h.apart b hb
      · rw [List.mem_singleton.mp hb]
        refine h.enter hnow fun d _ hkey hd => ?_
        rw [hkey, hlookup] at hd
        cases hd
    · intro d hd
      exact (h.head d hd).trans_eq (congrArg Ring.headSecs getD_push.symm)

/-- A hit that comes last in its counter keeps the order of its times. -/
lemma Steady.sorted_append (h : Steady s clock)
    (hlast : ∀ d ∈ s.done, d.cell = b.cell → d.now ≤ b.now) :
    (timesOn b.cell s.done ++ [b.now]).Pairwise (· ≤ ·) := by
  refine List.pairwise_append.mpr ⟨h.sorted b.cell, List.pairwise_singleton _ _, ?_⟩
  intro t ht t' ht'
  obtain ⟨d, hd, rfl⟩ := List.mem_map.mp ht
  obtain ⟨hd, hdc⟩ := List.mem_filter.mp hd
  rw [List.mem_singleton.mp ht']
  exact hlast d hd (of_decide_eq_true hdc)

lemma Steady.hit {owner : Nat → Str} (h : Steady s clock) (ho : Owned s owner)
    (hb : s.waiting[i]? = some b) (hlast : ∀ d ∈ s.done, d.cell = b.cell → d.now ≤ b.now) :
    Steady (s.hit i b).2 clock := by
  have hmem : b ∈ s.waiting := List.mem_of_getElem? hb
  have hself : (s.hit i b).2.counter b.cell = ((s.counter b.cell).hit b.now).2 := by
    show (s.heap.set b.cell _).getD b.cell Counter.default = _
    rw [List.getD_eq_getElem?_getD, List.getElem?_set_self (ho.waiting b hmem).1]
    rfl
  -- other counters are not touched
  have hother : ∀ {cell}, b.cell ≠ cell → (s.hit i b).2.counter cell = s.counter cell := by
    intro cell hne
    show (s.heap.set b.cell _).getD cell Counter.default = _
    rw [List.getD_eq_getElem?_getD, List.getElem?_set_ne hne]
    rfl
  refine ⟨fun c hc => h.attached c (List.mem_of_mem_eraseIdx hc), ?_, ?_, ?_, ?_⟩
  · intro d hd
    rcases List.mem_append.mp hd with hd | hd
    · exact h.old d hd
    · rw [List.mem_singleton.mp hd]
      exact .inl (h.attached b hmem)
  · intro c hc d hd hkey
    have hc' : c ∈ s.waiting := List.mem_of_mem_eraseIdx hc
    rcases List.mem_append.mp hd with hd | hd
    · exact h.apart c hc' d hd hkey
    · -- two bumps of one key wait for one counter
      rw [List.mem_singleton.mp hd] at hkey ⊢
      have hlookup := h.attached b hmem
      rw [hkey, h.attached c hc'] at hlookup
      exact .inl (Option.some.inj hlookup).symm
  · intro d hd
    rcases List.mem_append.mp hd with hd | hd
    · by_cases hcell : d.cell = b.cell
      case pos =>
        rw [hcell, hself]
        exact hlast d hd hcell
      case neg =>
        rw [hother (Ne.symm hcell)]
        exact h.head d hd
    · rw [List.mem_singleton.mp hd, hself]
      exact Nat.le_refl _
  · intro cell
    show (timesOn cell (s.done ++ [b])).Pairwise (· ≤ ·)
    rw [timesOn_append]
    split
    case isTrue hcell =>
      rw [← hcell]
      exact h.sorted_append hlast
    case isFalse => exact h.sorted cell

lemma Steady.gc (h : Steady s clock) (hnow : clock ≤ now)
    (hheld : ∀ b ∈ s.waiting, now < (s.counter b.cell).headSecs + coldSecs) :
    Steady (s.gc now) now := by
  have hlookup : ∀ k, (s.gc now).counters.lookup k
      = (s.counters.lookup k).filter fun c => now - (s.counter c).headSecs < coldSecs :=
    fun k => HashMap.lookup_retain
  refine ⟨?_, ?_, h.apart, h.head, h.sorted⟩
  · intro b hb
    have hage : now - (s.counter b.cell).headSecs < coldSecs := by
      have := hheld b hb
      rw [coldSecs] at this ⊢
      omega
    rw [hlookup, h.attached b hb, Option.filter_some, if_pos (decide_eq_true hage)]
  · intro d hd
    rcases h.old d hd with hattached | hold
    · rw [hlookup, hattached, Option.filter_some]
      by_cases hage : now - (s.counter d.cell).headSecs < coldSecs
      case pos =>
        rw [if_pos (decide_eq_true hage)]
        exact .inl rfl
      case neg =>
        have := h.head d hd
        refine .inr ?_
        rw [coldSecs] at hage ⊢
        omega
    · exact .inr (hold.trans hnow)

/-- What one gentle step keeps. -/
lemma Steady.step {owner : Nat → Str} (h : Steady s clock) (ho : Owned s owner)
    (hop : Gentle s clock op) : Steady (s.step op) (op.time.getD clock) := by
  cases op with
  | get key now => exact h.get key hop
  | gc now => exact h.gc hop.1 hop.2
  | hit i =>
    rw [Shared.step]
    cases hb : s.waiting[i]? with
    | some b => exact h.hit ho hb (hop b hb)
    | none => exact h

/-- A gentle run leads to a steady state. -/
lemma gentle_steady (h : GentleRun ops clock) : Steady (run ops) clock := by
  induction h with
  | nil => exact steady_empty
  | @snoc ops clock op _ hop ih =>
    obtain ⟨owner, ho⟩ := run_owned ops
    rw [run_append]
    exact ih.step ho hop

/-- No bump of the bucket has hit another counter. -/
lemma Steady.missed (h : Steady s clock) (hb : b ∈ s.waiting) : missed s.done b = 0 := by
  refine List.countP_eq_zero.mpr fun d hd => ?_
  rw [decide_eq_true_eq]
  rintro ⟨⟨hkey, hbucket⟩, hcell⟩
  rcases h.apart b hb d hd hkey with heq | hold
  · exact hcell heq
  · rw [coldSecs] at hold
    omega

/-- A hit that comes last in its counter clears nothing of its bucket. -/
lemma Steady.cleared (h : Steady s clock)
    (hlast : ∀ d ∈ s.done, d.cell = b.cell → d.now ≤ b.now) : cleared s.done b = 0 := by
  have hbuckets : (bucketsOf (timesOn b.cell s.done ++ [b.now])).Pairwise (· ≤ ·) :=
    (h.sorted_append hlast).map (· / 10) fun _ _ hle => Nat.div_le_div_right hle
  have hlist : bucketsOf (timesOn b.cell s.done ++ [b.now])
      = bucketsOf (timesOn b.cell s.done) ++ [b.now / 10] := List.map_append
  rw [hlist] at hbuckets
  rw [Shared.cleared, held, timesOn_append, if_pos rfl, hlist,
    Ring.Slots.count_live_of_sorted hbuckets, Nat.sub_self]

/-- Fewer than `2 ^ 32` hits fit into the sum. -/
lemma spilled_eq_zero {log : List Bump} (hlen : log.length + 1 < 2 ^ 32) : spilled log b = 0 := by
  have hlive : (held log b).live.length ≤ (timesOn b.cell (log ++ [b])).length := by
    have hcount : (held log b).live.countP (fun _ => true)
        ≤ (bucketsOf (timesOn b.cell (log ++ [b]))).countP fun _ => true := Ring.Slots.countP_live_le
    rw [List.countP_true] at hcount
    exact hcount.trans_eq (List.length_map _)
  have htimes : (timesOn b.cell (log ++ [b])).length ≤ log.length + 1 := by
    rw [timesOn, List.length_map]
    exact (List.length_filter_le _ _).trans_eq List.length_append
  exact Ring.Slots.overflow_eq_zero ((hlive.trans htimes).trans_lt hlen)

/-- In a gentle run, every bump counts those of its key that have returned and were in its bucket. -/
lemma counted_of_gentle (h : GentleRun ops clock) (hb : (run ops).waiting[i]? = some b)
    (hop : Gentle (run ops) clock (.hit i)) (hlen : (run ops).done.length + 1 < 2 ^ 32) :
    (run ops).Counts i b := by
  obtain ⟨owner, ho⟩ := run_owned ops
  have hs := gentle_steady h
  have hmem : b ∈ (run ops).waiting := List.mem_of_getElem? hb
  have hbalance := completed_balance (i := i) ho hmem
  rw [hs.missed hmem, hs.cleared (hop b hb), spilled_eq_zero hlen] at hbalance
  rw [Counts]
  omega

/-- Every step of a gentle run is gentle. -/
lemma GentleRun.of_prefix {pre : List Op} (h : GentleRun ops clock) (hp : pre ++ [op] <+: ops) :
    ∃ c, GentleRun pre c ∧ Gentle (run pre) c op := by
  induction h with
  | nil => exact absurd (List.prefix_nil.mp hp) (List.append_ne_nil_of_right_ne_nil _ (by simp))
  | @snoc ops clock op' hops hop ih =>
    rcases List.prefix_concat_iff.mp hp with heq | hp
    · obtain ⟨rfl, hlast⟩ := List.append_inj' heq rfl
      obtain rfl := List.singleton_inj.mp hlast
      exact ⟨clock, hops, hop⟩
    · exact ih hp

/-- Bumps that have returned stay in the log. -/
lemma length_done_le (pre rest : List Op) :
    (run pre).done.length ≤ (run (pre ++ rest)).done.length := by
  induction rest using List.reverseRecOn with
  | nil => rw [List.append_nil]
  | append_singleton rest op ih =>
    rw [← List.append_assoc, run_append]
    refine ih.trans ?_
    cases op with
    | get key now =>
      obtain ⟨heq, -⟩ | ⟨cell, -, heq⟩ | ⟨-, -, heq⟩ := get_cases (run (pre ++ rest)) key now
      · exact (congrArg (fun s => s.done.length) heq).ge
      · exact (congrArg (fun s => s.done.length) heq).ge
      · exact (congrArg (fun s => s.done.length) heq).ge
    | gc now => exact le_rfl
    | hit i =>
      rw [step]
      cases (run (pre ++ rest)).waiting[i]? with
      | none => exact le_rfl
      | some b => exact (List.length_append ..).symm ▸ Nat.le_succ _

/-- Which bumps a sweep or a late hit costs: in every run, a bump returns at least one more than the
bumps of its key that have returned and were in its bucket exactly when those that hit another
counter, or that late hits cleared, or that do not fit into 32 bits, are no more than the hits of
other buckets that its counter holds; below `2 ^ 32` bumps all of them fit. In gentle runs every bump
does. -/
theorem counted_iff (ops : List Op) :
    (∀ pre i b, pre ++ [.hit i] <+: ops → (run pre).waiting[i]? = some b →
        ((run pre).Counts i b
          ↔ missed (run pre).done b + cleared (run pre).done b + spilled (run pre).done b
            ≤ carried (run pre).done b)
        ∧ ((run pre).done.length + 1 < 2 ^ 32 → ((run pre).Counts i b
          ↔ missed (run pre).done b + cleared (run pre).done b ≤ carried (run pre).done b)))
      ∧ ∀ clock, GentleRun ops clock → (run ops).done.length < 2 ^ 32 →
        ∀ pre i b, pre ++ [.hit i] <+: ops → (run pre).waiting[i]? = some b → (run pre).Counts i b := by
  have general : ∀ pre i b, (run pre).waiting[i]? = some b → ((run pre).Counts i b
      ↔ missed (run pre).done b + cleared (run pre).done b + spilled (run pre).done b
        ≤ carried (run pre).done b) := by
    intro pre i b hb
    obtain ⟨owner, h⟩ := run_owned pre
    have hbalance := completed_balance (i := i) h (List.mem_of_getElem? hb)
    rw [Counts]
    constructor
    · intro hle
      omega
    · intro hle
      omega
  refine ⟨fun pre i b _ hb => ⟨general pre i b hb, fun hfew => ?_⟩, ?_⟩
  · rw [general pre i b hb, spilled_eq_zero hfew, Nat.add_zero]
  · intro clock hgentle hfew pre i b hp hb
    obtain ⟨c, hpre, hhit⟩ := hgentle.of_prefix hp
    refine counted_of_gentle hpre hb hhit ?_
    -- the bump itself is one of those that have returned in the end
    obtain ⟨rest, rfl⟩ := hp
    have hdone : (run (pre ++ [.hit i])).done.length = (run pre).done.length + 1 := by
      rw [run_append, step, hb]
      exact List.length_append
    exact hdone ▸ (length_done_le (pre ++ [.hit i]) rest).trans_lt hfew

/-- Two clients whose bumps are under way at once, a sweep, and one more bump of the first client. -/
def crowdedOps : List Op :=
  [.get (globalKey "203.0.113.9") 1000, .get (globalKey "203.0.113.7") 1000, .hit 0,
    .get (globalKey "203.0.113.9") 1001, .hit 1, .hit 0, .gc 1005, .get (globalKey "203.0.113.9") 1006]

/-- The last bump of the first client, after two others. -/
def crowdedBump : Bump := ⟨globalKey "203.0.113.9", 1006, 0⟩

/-- The crowded run is gentle. -/
lemma crowded_gentle : GentleRun (crowdedOps ++ [.hit 0]) 1006 := by
  have hget : GentleRun ([] ++ [Op.get (globalKey "203.0.113.9") 1000]
      ++ [.get (globalKey "203.0.113.7") 1000] ++ [.hit 0]
      ++ [.get (globalKey "203.0.113.9") 1001]) 1001 :=
    .snoc (.snoc (.snoc (.snoc .nil (by decide)) (by decide)) (by decide)) (by decide)
  have hgc : GentleRun (_ ++ [.hit 1] ++ [.hit 0] ++ [.gc 1005]) 1005 :=
    .snoc (.snoc (.snoc hget (by decide)) (by decide)) (by decide)
  exact .snoc (.snoc hgc (by decide : Gentle _ 1005 (.get (globalKey "203.0.113.9") 1006))) (by decide)

/-- It counts all three. -/
theorem crowded_counted :
    completed (run crowdedOps).done crowdedBump = 2
      ∧ ((run crowdedOps).Counts 0 crowdedBump
        ↔ missed (run crowdedOps).done crowdedBump + cleared (run crowdedOps).done crowdedBump
          ≤ carried (run crowdedOps).done crowdedBump)
      ∧ (run crowdedOps).Counts 0 crowdedBump := by
  have hwaits : (run crowdedOps).waiting[0]? = some crowdedBump := by decide
  obtain ⟨hiff, hgentle⟩ := counted_iff (crowdedOps ++ [.hit 0])
  have hlast := hiff crowdedOps 0 crowdedBump (List.prefix_refl _) hwaits
  exact ⟨by decide, hlast.2 (by decide),
    hgentle 1006 crowded_gentle (by decide) crowdedOps 0 crowdedBump (List.prefix_refl _) hwaits⟩

/-- A sweep between the two steps of the first bump of a client: its new counter has been hit at no
time yet, so that the sweep drops it, and a second bump in the same second returns 1, too. -/
def sweptOps : List Op :=
  [.get (globalKey "203.0.113.9") 1000, .gc 1000, .hit 0, .get (globalKey "203.0.113.9") 1000]

/-- The second bump returns no more than one, although one of its client has completed before it. -/
theorem swept_undercounts :
    (sweptOps.filterMap Op.time).Pairwise (· ≤ ·)
      ∧ (run sweptOps).counters.size ≤ maxKeys
      ∧ (run sweptOps).waiting[0]? = some ⟨globalKey "203.0.113.9", 1000, 1⟩
      ∧ ¬ completed (run sweptOps).done ⟨globalKey "203.0.113.9", 1000, 1⟩ + 1
        ≤ ((run sweptOps).hit 0 ⟨globalKey "203.0.113.9", 1000, 1⟩).1 := by
  decide

end Shared
end RateLimiter

end Waf
