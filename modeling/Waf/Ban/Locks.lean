import Mathlib.Data.List.FinRange
import Waf.Lib.Guard
import Waf.Ban.Reputation

/-!
# Locks of the ban store

The calls of the ban store with their lock guards. The table is a map of `n` shards, each under a
lock of its own, and every entry has a mutex. `entry` returns a guard that holds the exclusive lock
of the shard of the address until it is dropped at the end of its scope; `iter` takes the shared
lock of every shard in turn.

Both writers of bans keep that guard while they flush the store. The flush visits all shards, so it
waits for the guard of its own call: the call never returns. `completes_iff` says which runs of
calls complete; those that do compute what the sequential model says (`Op.call_run`).
-/

namespace Waf
open Lib Lib.Call

/-- The locks of the store: shards of the table, mutexes of the entries, and the persist path. -/
inductive Lock (n : Nat) where
  | shard (i : Fin n)
  | cell (ip : IpAddr)
  | path
  deriving DecidableEq

/-- The ban store and the file system. -/
structure BanStore where
  reps : Reputations
  disk : Disk

namespace BanStore
open Reputations

variable {n : Nat} (shardOf : IpAddr → Fin n)

/-- The locks of all shards, in the order of an iteration. -/
def shards (n : Nat) : List (Lock n) := (List.finRange n).map .shard

/-- The mutexes of the entries of a shard. -/
def cellsOf (st : BanStore) : Lock n → List (Lock n)
  | .shard i => (st.reps.state.keys.filter fun ip => shardOf ip = i).map .cell
  | _ => []

/-- Visit the entries of a shard, each under its mutex. -/
def visitCells (s : Lock n) : Call (Lock n) BanStore Unit := do
  let cells ← read fun st => cellsOf shardOf st s
  visit .exclusive (fun _ => return ()) cells

/-- The `iter` of the table with the mutex of each entry. -/
def scan : Call (Lock n) BanStore Unit := visit .shared (visitCells shardOf) (shards n)

def persist (now : Nat) : Call (Lock n) BanStore Unit := do
  let path ← guarded .path .shared (read fun st => st.reps.persistPath)
  if path.isSome then do
    scan shardOf
    write fun st => { st with disk := st.reps.persist st.disk now }
  else return ()

/-- The end of a writer of bans: the flush, under the guard of `entry` that is dropped
after it. -/
def flush (i : Fin n) (now : Nat) : Call (Lock n) BanStore Bool := do
  persist shardOf now
  release (.shard i) .exclusive
  return true

/-- `contains_key`, and `len` unless the address is known. -/
def full (ip : IpAddr) : Call (Lock n) BanStore Bool := do
  let known ← guarded (.shard (shardOf ip)) .shared (read fun st => st.reps.state.containsKey ip)
  if known then return false
  else do
    visit .shared (fun _ => return ()) (shards n)
    read fun st => decide (maxEntries < st.reps.state.size)

/-- Write the entry of an address through its guard. -/
def setEntry (ip : IpAddr) (s : HitState) : Call (Lock n) BanStore Unit :=
  write fun st => { st with reps := st.reps.setEntry ip s }

def recordOffence (ip : IpAddr) (now : Nat) : Call (Lock n) BanStore Bool := do
  let r ← read fun st => st.reps
  if inNets r.allow ip then return false
  else do
    let refused ← full shardOf ip
    if refused then return false
    else do
      -- the guard of `entry`, alive to the end of the call
      acquire (.shard (shardOf ip)) .exclusive
      acquire (.cell ip) .exclusive
      let s := (r.entry ip).offend r.windowSecs now
      if r.autoBanThreshold ≤ s.hits ∧ s.banUntil ≤ now then do
        setEntry ip { s with banUntil := (now + r.durationSecs) % 2 ^ 64 }
        release (.cell ip) .exclusive
        flush shardOf (shardOf ip) now
      else do
        setEntry ip s
        release (.cell ip) .exclusive
        release (.shard (shardOf ip)) .exclusive
        return false

def forceBan (ip : IpAddr) (secs now : Nat) : Call (Lock n) BanStore Bool := do
  let r ← read fun st => st.reps
  if inNets r.allow ip then return false
  else do
    let refused ← full shardOf ip
    if refused then return false
    else do
      acquire (.shard (shardOf ip)) .exclusive
      acquire (.cell ip) .exclusive
      setEntry ip (r.forced ip secs now)
      release (.cell ip) .exclusive
      flush shardOf (shardOf ip) now

def isBanned (ip : IpAddr) (now : Nat) : Call (Lock n) BanStore Bool :=
  guarded (.shard (shardOf ip)) .shared do
    let known ← read fun st => st.reps.state.containsKey ip
    if known then guarded (.cell ip) .exclusive (read fun st => st.reps.isBanned ip now)
    else return false

def unban (ip : IpAddr) : Call (Lock n) BanStore Unit :=
  guarded (.shard (shardOf ip)) .shared do
    let known ← read fun st => st.reps.state.containsKey ip
    if known then
      guarded (.cell ip) .exclusive (write fun st => { st with reps := st.reps.unban ip })
    else return ()

/-- `Reputations::gc`: `retain`, then `shrink_to_fit`. -/
def gc (now : Nat) : Call (Lock n) BanStore Unit := do
  visit .exclusive (visitCells shardOf) (shards n)
  write fun st => { st with reps := st.reps.gc now }
  visit .exclusive (fun _ => return ()) (shards n)

def banned (now : Nat) : Call (Lock n) BanStore (List (IpAddr × Nat)) := do
  scan shardOf
  read fun st => st.reps.banned now

/-! ## Which calls wait for themselves -/

variable {shardOf : IpAddr → Fin n} {st : BanStore}

/-- Guards of shards do not block an entry. -/
lemma not_blocked_cell {held : List (Lock n × Mode)} {ip m} (h : ∀ g ∈ held, ∃ i, g.1 = .shard i) :
    ¬ Blocked held (.cell ip) m := by
  rintro ⟨g, hg, e, -⟩
  obtain ⟨i, hi⟩ := h g hg
  rw [hi] at e
  cases e

lemma mem_shards {i : Fin n} : Lock.shard i ∈ shards n :=
  List.mem_map_of_mem (List.mem_finRange i)

lemma visitCells_run {s : Lock n} {held} (h : ∀ g ∈ held, ∃ i, g.1 = .shard i) :
    visitCells shardOf s ⟨st, held⟩ = .ok ((), ⟨st, held⟩) := by
  unfold visitCells
  rw [bind_ok read_run]
  refine visit_run (fun c hc => ?_) fun _ _ => rfl
  obtain ⟨ip, rfl⟩ : ∃ ip, c = .cell ip := by
    cases s with
    | shard i =>
      obtain ⟨ip, -, rfl⟩ := List.mem_map.mp hc
      exact ⟨ip, rfl⟩
    | cell => cases hc
    | path => cases hc
  exact not_blocked_cell h

/-- Visiting the entries of all shards completes when no guard is held. -/
lemma visitAll_run {m : Mode} :
    visit m (visitCells shardOf) (shards n) ⟨st, []⟩ = .ok ((), ⟨st, []⟩) := by
  refine visit_run (fun _ _ => not_blocked_nil) fun s hs => ?_
  obtain ⟨i, -, rfl⟩ := List.mem_map.mp hs
  exact visitCells_run (by simp)

lemma shards_run {m : Mode} :
    visit m (fun _ => return ()) (shards n) ⟨st, []⟩ = .ok ((), ⟨st, []⟩) :=
  visit_run (fun _ _ => not_blocked_nil) fun _ _ => rfl

lemma scan_run : scan shardOf ⟨st, []⟩ = .ok ((), ⟨st, []⟩) := visitAll_run

/-- An iteration under the exclusive guard of a shard waits for that guard. -/
lemma scan_stuck {i : Fin n} :
    scan shardOf ⟨st, [(.shard i, .exclusive)]⟩ = .error (.shard i) := by
  have hshard : ∀ s ∈ shards n, ∃ j, s = .shard j := by
    intro s hs
    obtain ⟨j, -, rfl⟩ := List.mem_map.mp hs
    exact ⟨j, rfl⟩
  refine visit_stuck mem_shards (blocked_of_exclusive (by simp)) ?_ ?_
  · intro s _ hne
    exact not_blocked_cons hne.symm not_blocked_nil
  · intro s hs _
    obtain ⟨j, rfl⟩ := hshard s hs
    exact visitCells_run (by simp)

lemma persistPath_run {held : List (Lock n × Mode)} (h : ∀ g ∈ held, ∃ i, g.1 = .shard i) :
    guarded (.path : Lock n) .shared (read fun st : BanStore => st.reps.persistPath) ⟨st, held⟩
      = .ok (st.reps.persistPath, ⟨st, held⟩) := by
  refine guarded_run ?_ rfl
  rintro ⟨g, hg, e, -⟩
  obtain ⟨i, hi⟩ := h g hg
  rw [hi] at e
  cases e

lemma persist_run {now} :
    persist shardOf now ⟨st, []⟩
      = .ok ((), ⟨{ st with disk := st.reps.persist st.disk now }, []⟩) := by
  unfold persist
  rw [bind_ok (persistPath_run (by simp))]
  split
  case isTrue => rw [bind_ok scan_run]; rfl
  case isFalse h =>
    have hpath : st.reps.persistPath = none := by simpa using h
    simp only [Reputations.persist, hpath]
    rfl

/-- With a file to flush to, the flush waits for the guard of its own call. -/
lemma flush_stuck {i : Fin n} {now} (bound : st.reps.persistPath.isSome = true) :
    flush shardOf i now ⟨st, [(.shard i, .exclusive)]⟩ = .error (.shard i) := by
  unfold flush persist
  refine bind_error ?_
  rw [bind_ok (persistPath_run (by simp)), if_pos bound, bind_error scan_stuck]

/-- Without a ban file a flush returns although a shard is held. -/
lemma flush_unbound {i : Fin n} {now} (unbound : ¬ st.reps.persistPath.isSome = true) :
    flush shardOf i now ⟨st, [(.shard i, .exclusive)]⟩
      = .ok (true, ⟨⟨st.reps, st.reps.persist st.disk now⟩, []⟩) := by
  have hpath : st.reps.persistPath = none := by simpa using unbound
  have hp : persist shardOf now ⟨st, [(.shard i, .exclusive)]⟩
      = .ok ((), ⟨st, [(.shard i, .exclusive)]⟩) := by
    unfold persist
    rw [bind_ok (persistPath_run (by simp)), if_neg unbound]
    rfl
  unfold flush
  rw [bind_ok hp, bind_ok release_run, Reputations.persist, hpath]
  rfl

lemma full_run {ip} : full shardOf ip ⟨st, []⟩ = .ok (st.reps.full ip, ⟨st, []⟩) := by
  have known : guarded (Lock.shard (shardOf ip)) .shared
      (read fun st : BanStore => st.reps.state.containsKey ip) ⟨st, []⟩
        = .ok (st.reps.state.containsKey ip, ⟨st, []⟩) := guarded_run not_blocked_nil rfl
  unfold full
  rw [bind_ok known, Reputations.full]
  cases st.reps.state.containsKey ip with
  | true => rfl
  | false =>
    rw [if_neg (by decide), bind_ok shards_run]
    rfl

/-- Taking the guards of an entry. -/
lemma entry_run {ip} {k : Call (Lock n) BanStore Bool} :
    (do acquire (.shard (shardOf ip)) .exclusive
        acquire (.cell ip) .exclusive
        k : Call (Lock n) BanStore Bool) ⟨st, []⟩
      = k ⟨st, [(.cell ip, .exclusive), (.shard (shardOf ip), .exclusive)]⟩ := by
  have hcell : ¬ Blocked [(Lock.shard (shardOf ip), Mode.exclusive)] (.cell ip) .exclusive :=
    not_blocked_cell (by simp)
  rw [bind_ok (acquire_run not_blocked_nil), bind_ok (acquire_run hcell)]

/-- Writing an entry and dropping its mutex leaves the guard of the shard. -/
lemma setEntry_run {ip s} {held : List (Lock n × Mode)} {k : Call (Lock n) BanStore Bool} :
    (do setEntry ip s
        release (.cell ip) .exclusive
        k : Call (Lock n) BanStore Bool) ⟨st, (.cell ip, .exclusive) :: held⟩
      = k ⟨⟨st.reps.setEntry ip s, st.disk⟩, held⟩ := by
  rw [setEntry, bind_ok write_run, bind_ok release_run]

/-- The store after a sequential call. -/
def result (r : Bool × Reputations × Disk) : Bool × BanStore := (r.1, ⟨r.2.1, r.2.2⟩)

/-- The path of an offence through its guards. -/
lemma recordOffence_path {ip now} :
    recordOffence shardOf ip now ⟨st, []⟩ =
      if st.reps.tracked ip = true ∧ st.reps.bansNow ip now then
        flush shardOf (shardOf ip) now
          ⟨⟨st.reps.setEntry ip (st.reps.newBan ip now), st.disk⟩,
            [(.shard (shardOf ip), .exclusive)]⟩
      else .ok ((st.reps.recordOffence st.disk ip now).1,
        ⟨(result (st.reps.recordOffence st.disk ip now)).2, []⟩) := by
  unfold recordOffence
  rw [bind_ok read_run]
  simp only
  cases ha : inNets st.reps.allow ip with
  | true =>
    have hno : st.reps.tracked ip = false := by simp [tracked, ha]
    rw [recordOffence_untracked hno, hno, if_pos rfl, if_neg (by simp)]
    rfl
  | false =>
    rw [if_neg (by decide), bind_ok full_run]
    cases hf : st.reps.full ip with
    | true =>
      have hno : st.reps.tracked ip = false := by simp [tracked, hf]
      rw [recordOffence_untracked hno, hno, if_pos rfl, if_neg (by simp)]
      rfl
    | false =>
      have hyes : st.reps.tracked ip = true := by simp [tracked, ha, hf]
      rw [if_neg (by decide), entry_run]
      by_cases hb : st.reps.bansNow ip now
      · rw [if_pos (by simpa [bansNow] using hb), setEntry_run, if_pos ⟨hyes, hb⟩]
        rfl
      · rw [if_neg (by simpa [bansNow] using hb), if_neg (fun h => hb h.2), setEntry_run,
          recordOffence_note hyes hb, bind_ok release_run]
        rfl

/-- The path of a forced ban through its guards. -/
lemma forceBan_path {ip secs now} :
    forceBan shardOf ip secs now ⟨st, []⟩ =
      if st.reps.tracked ip = true then
        flush shardOf (shardOf ip) now
          ⟨⟨st.reps.setEntry ip (st.reps.forced ip secs now), st.disk⟩,
            [(.shard (shardOf ip), .exclusive)]⟩
      else .ok (false, ⟨st, []⟩) := by
  unfold forceBan
  rw [bind_ok read_run]
  simp only
  cases ha : inNets st.reps.allow ip with
  | true => rw [if_pos rfl, if_neg (by simp [tracked, ha])]; rfl
  | false =>
    rw [if_neg (by decide), bind_ok full_run]
    cases hf : st.reps.full ip with
    | true => rw [if_pos rfl, if_neg (by simp [tracked, hf])]; rfl
    | false => rw [if_neg (by decide), entry_run, setEntry_run, if_pos (by simp [tracked, ha, hf])]

lemma isBanned_run {ip now} :
    isBanned shardOf ip now ⟨st, []⟩ = .ok (st.reps.isBanned ip now, ⟨st, []⟩) := by
  refine guarded_run not_blocked_nil ?_
  rw [bind_ok read_run]
  split
  case isTrue => exact guarded_run (not_blocked_cell (by simp)) rfl
  case isFalse h =>
    have hnone : st.reps.state.lookup ip = none := by simpa [HashMap.containsKey] using h
    rw [Reputations.isBanned, hnone]
    rfl

lemma unban_run {ip} : unban shardOf ip ⟨st, []⟩ = .ok ((), ⟨⟨st.reps.unban ip, st.disk⟩, []⟩) := by
  refine guarded_run not_blocked_nil ?_
  rw [bind_ok read_run]
  split
  case isTrue => exact guarded_run (not_blocked_cell (by simp)) rfl
  case isFalse h =>
    have hnone : st.reps.state.lookup ip = none := by simpa [HashMap.containsKey] using h
    rw [Reputations.unban, HashMap.modify, hnone]
    rfl

lemma gc_run {now} : gc shardOf now ⟨st, []⟩ = .ok ((), ⟨⟨st.reps.gc now, st.disk⟩, []⟩) := by
  unfold gc
  rw [bind_ok visitAll_run, bind_ok write_run, shards_run]

/-- The operations of the store. -/
inductive Op where
  | recordOffence (ip : IpAddr)
  | forceBan (ip : IpAddr) (secs : Nat)
  | isBanned (ip : IpAddr)
  | unban (ip : IpAddr)
  | gc
  | persist
  | banned

variable (shardOf) in
/-- An operation as a call with its guards. -/
def Op.call (now : Nat) : Op → Call (Lock n) BanStore Unit
  | recordOffence ip => do let _ ← BanStore.recordOffence shardOf ip now
  | forceBan ip secs => do let _ ← BanStore.forceBan shardOf ip secs now
  | isBanned ip => do let _ ← BanStore.isBanned shardOf ip now
  | unban ip => BanStore.unban shardOf ip
  | gc => BanStore.gc shardOf now
  | persist => BanStore.persist shardOf now
  | banned => do let _ ← BanStore.banned shardOf now

/-- An operation of the sequential model. -/
def Op.apply (now : Nat) (st : BanStore) : Op → BanStore
  | recordOffence ip => (result (st.reps.recordOffence st.disk ip now)).2
  | forceBan ip secs => (result (st.reps.forceBan st.disk ip secs now)).2
  | unban ip => ⟨st.reps.unban ip, st.disk⟩
  | gc => ⟨st.reps.gc now, st.disk⟩
  | persist => ⟨st.reps, st.reps.persist st.disk now⟩
  | isBanned _ | banned => st

/-- Does the operation flush a new ban to the ban file? -/
def Op.Flushes (now : Nat) (st : BanStore) : Op → Prop
  | recordOffence ip => st.reps.persistPath.isSome = true ∧ st.reps.tracked ip = true
      ∧ st.reps.bansNow ip now
  | forceBan ip _ => st.reps.persistPath.isSome = true ∧ st.reps.tracked ip = true
  | _ => False

/-- An operation that flushes waits for itself. -/
lemma Op.call_stuck {op : Op} {now} (h : op.Flushes now st) :
    ∃ i, op.call shardOf now ⟨st, []⟩ = .error (.shard i) := by
  cases op with
  | recordOffence ip =>
    obtain ⟨hp, ht, hb⟩ := h
    refine ⟨shardOf ip, bind_error ?_⟩
    rw [recordOffence_path, if_pos ⟨ht, hb⟩]
    exact flush_stuck hp
  | forceBan ip secs =>
    obtain ⟨hp, ht⟩ := h
    refine ⟨shardOf ip, bind_error ?_⟩
    rw [forceBan_path, if_pos ht]
    exact flush_stuck hp
  | isBanned | unban | gc | persist | banned => exact h.elim

/-- Any other operation computes what the sequential model says and keeps no guard. -/
lemma Op.call_run {op : Op} {now} (h : ¬ op.Flushes now st) :
    op.call shardOf now ⟨st, []⟩ = .ok ((), ⟨op.apply now st, []⟩) := by
  cases op with
  | recordOffence ip =>
    have hrun : BanStore.recordOffence shardOf ip now ⟨st, []⟩
        = .ok ((st.reps.recordOffence st.disk ip now).1,
          ⟨(result (st.reps.recordOffence st.disk ip now)).2, []⟩) := by
      rw [recordOffence_path]
      split
      case isTrue hb =>
        rw [recordOffence_ban hb.1 hb.2]
        exact flush_unbound fun hp => h ⟨hp, hb⟩
      case isFalse => rfl
    exact (bind_ok hrun).trans rfl
  | forceBan ip secs =>
    have hrun : BanStore.forceBan shardOf ip secs now ⟨st, []⟩
        = .ok ((st.reps.forceBan st.disk ip secs now).1,
          ⟨(result (st.reps.forceBan st.disk ip secs now)).2, []⟩) := by
      rw [forceBan_path]
      split
      case isTrue ht =>
        rw [forceBan_tracked ht]
        exact flush_unbound fun hp => h ⟨hp, ht⟩
      case isFalse ht =>
        rw [forceBan_untracked (Bool.eq_false_of_not_eq_true ht)]
        rfl
    exact (bind_ok hrun).trans rfl
  | isBanned ip => exact (bind_ok isBanned_run).trans rfl
  | unban ip => exact unban_run
  | gc => exact gc_run
  | persist => exact persist_run
  | banned =>
    have hrun : BanStore.banned shardOf now ⟨st, []⟩ = .ok (st.reps.banned now, ⟨st, []⟩) :=
      bind_ok scan_run
    exact (bind_ok hrun).trans rfl

/-! ## Runs -/

variable (shardOf) in
/-- A run of operations, one after the other. -/
def calls : List (Nat × Op) → Call (Lock n) BanStore Unit
  | [] => return ()
  | (now, op) :: ops => do
    op.call shardOf now
    calls ops

/-- The store after a run of operations. -/
def after (st : BanStore) (ops : List (Nat × Op)) : BanStore :=
  ops.foldl (fun st o => o.2.apply o.1 st) st

/-- The calls of a run all complete exactly when none of them flushes a new ban. -/
theorem completes_iff {ops : List (Nat × Op)} :
    Completes (calls shardOf ops) st
      ↔ ∀ pre now op, pre ++ [(now, op)] <+: ops → ¬ op.Flushes now (after st pre) := by
  induction ops generalizing st with
  | nil =>
    refine ⟨fun _ pre now op hp => ?_, fun _ => completes_of_ok pure_run⟩
    exact absurd (List.prefix_nil.mp hp) (by simp)
  | cons o ops ih =>
    obtain ⟨now, op⟩ := o
    by_cases hf : op.Flushes now st
    · obtain ⟨i, hi⟩ : ∃ i, op.call shardOf now ⟨st, []⟩ = .error (.shard i) := Op.call_stuck hf
      refine ⟨fun hc => absurd hc (not_completes_of_error (bind_error hi)), fun h => ?_⟩
      exact absurd hf (h [] now op (by simp))
    · have hstep : start (calls shardOf ((now, op) :: ops)) st
          = start (calls shardOf ops) (op.apply now st) := bind_ok (Op.call_run hf)
      have hsame : Completes (calls shardOf ((now, op) :: ops)) st
          ↔ Completes (calls shardOf ops) (op.apply now st) := by
        unfold Completes
        rw [hstep]
      rw [hsame, ih]
      constructor
      · intro h pre now' op' hp
        cases pre with
        | nil =>
          obtain ⟨e, -⟩ := List.cons_prefix_cons.mp hp
          cases e
          exact hf
        | cons o' pre =>
          obtain ⟨rfl, hp'⟩ := List.cons_prefix_cons.mp hp
          exact h pre now' op' hp'
      · intro h pre now' op' hp
        exact h ((now, op) :: pre) now' op' (List.cons_prefix_cons.mpr ⟨rfl, hp⟩)

/-- A fresh store with the default limits, bound to a ban file. -/
def freshStore : BanStore where
  reps := {
    allow := []
    deny := []
    autoBanThreshold := 5
    windowSecs := 60
    durationSecs := 3600
    state := ∅
    persistPath := some "bans.json" }
  disk _ := none

/-- A forced ban on a fresh store waits for its own shard, and so does the fifth of five offences
within a minute. -/
theorem first_ban_waits :
    start (forceBan (fun _ => (0 : Fin 4)) (.v4 (.new 1 2 3 4)) 3600 1000) freshStore
        = .error (.shard 0)
      ∧ start (recordOffence (fun _ => (0 : Fin 4)) (.v4 (.new 1 2 3 4)) 1004)
        (after freshStore ([1000, 1001, 1002, 1003].map fun now =>
          (now, .recordOffence (.v4 (.new 1 2 3 4))))) = .error (.shard 0) :=
  ⟨rfl, rfl⟩

end BanStore

end Waf
