import Waf.Limiter.RateLimiter

/-!
# Admission bound of the rate limiter

Runs of `check_scaled` calls, interleaved with the sweeps `gc(120)` of the watchdog. The abstract
limiter behind the table is the history `m` of all hits of every key. `Tracks` says how the table
represents it: an entry holds the counter of the newest part of the history of its key, and the rest
of the history is at least 120 s old, too old to be counted. So each call compares the exact count
over the last six buckets with its ceiling (`checkScaled_spec`), whatever was swept, and the number
of calls that pass in six consecutive buckets stays below the largest ceiling used there
(`admission_bound`).
-/

namespace Waf
open Lib
open Ratelimit (Counter)

namespace RateLimiter

/-- A call of `check_scaled`. -/
structure Call where
  now : Nat
  ip : Str
  path : Str
  scaleBps : Nat

/-- What happens to a limiter. -/
inductive Event where
  | check (c : Call)
  | gc (now : Nat)

/-- The time of an event. -/
def Event.now : Event → Nat
  | check c => c.now
  | gc now => now

/-- The call of an event, if it is one. -/
def Event.call : Event → Option Call
  | check c => some c
  | gc _ => none

/-- A limiter and the calls it has answered so far. -/
structure Run where
  limiter : RateLimiter
  log : List (Call × Except Limited Unit)

/-- The age from which a counter is cold for the watchdog. -/
def coldSecs : Nat := 120

/-- One event. -/
def Run.step (r : Run) : Event → Run
  | .check c =>
    let (res, rl) := r.limiter.checkScaled c.ip c.path c.scaleBps c.now
    ⟨rl, r.log ++ [(c, res)]⟩
  | .gc now => { r with limiter := r.limiter.gc coldSecs now }

/-- A run from a limiter that has answered no call yet. -/
def run (rl : RateLimiter) (events : List Event) : Run := events.foldl Run.step ⟨rl, []⟩

lemma run_append {rl es e} : run rl (es ++ [e]) = (run rl es).step e := List.foldl_concat ..

/-! ## The history of a key -/

/-- Was the call counted under the key of its client? -/
def reachedGlobal : Except Limited Unit → Bool
  | .ok _ => true
  | .error l => l.scope == "global".toList

/-- The keys a call was counted under. -/
def keysOf (rl : RateLimiter) (o : Call × Except Limited Unit) : List Str :=
  (rl.firstRoute o.1.path).toList.map (fun r => routeKey r.2 o.1.ip)
    ++ if reachedGlobal o.2 then [globalKey o.1.ip] else []

/-- The times at which the calls of a log were counted under `key`. -/
def hits (rl : RateLimiter) (log : List (Call × Except Limited Unit)) (key : Str) : List Nat :=
  (log.filter fun o => key ∈ keysOf rl o).map fun o => o.1.now

lemma hits_append {rl log o key} : hits rl (log ++ [o]) key
    = hits rl log key ++ if key ∈ keysOf rl o then [o.1.now] else [] := by
  simp only [hits, List.filter_append, List.map_append, List.filter_singleton]
  split <;> simp_all

/-- A route and the global limit have different keys. -/
lemma routeKey_ne_globalKey {idx ip ip'} : routeKey idx ip ≠ globalKey ip' := by
  simp [routeKey, globalKey]

/-- The history `m` with one more hit of `key`. -/
def bumped (m : Str → List Nat) (key : Str) (now : Nat) : Str → List Nat :=
  fun k => m k ++ if k = key then [now] else []

/-- The table represents the history `m` at time `clock`. -/
structure Tracks (rl : RateLimiter) (m : Str → List Nat) (clock : Nat) : Prop where
  sorted : ∀ k, (m k).Pairwise (· ≤ ·)
  past : ∀ k, ∀ t ∈ m k, t ≤ clock
  entry : ∀ k, ∃ old fresh, m k = old ++ fresh ∧ (∀ t ∈ old, t + coldSecs ≤ clock)
    ∧ rl.counters.lookup k = if fresh = [] then none else some (Counter.after fresh)

lemma tracks_empty {rl : RateLimiter} (h : rl.counters = ∅) : Tracks rl (fun _ => []) 0 where
  sorted _ := .nil
  past _ := nofun
  entry k := ⟨[], [], rfl, nofun, by rw [h]; rfl⟩

lemma Tracks.congr {rl rl' : RateLimiter} {m m' clock} (h : Tracks rl m clock)
    (hc : rl'.counters = rl.counters) (hm : ∀ k, m' k = m k) : Tracks rl' m' clock := by
  obtain rfl : m' = m := funext hm
  exact ⟨h.sorted, h.past, by rw [hc]; exact h.entry⟩

/-- A bump keeps the global rate. -/
@[simp] lemma bump_globalRpm {rl : RateLimiter} {key now} :
    (rl.bump key now).2.globalRpm = rl.globalRpm := by
  unfold bump
  split <;> rfl

/-- It keeps the global burst. -/
@[simp] lemma bump_globalBurst {rl : RateLimiter} {key now} :
    (rl.bump key now).2.globalBurst = rl.globalBurst := by
  unfold bump
  split <;> rfl

lemma size_le_bump {rl : RateLimiter} {key now} :
    rl.counters.size ≤ (rl.bump key now).2.counters.size := by
  unfold bump
  split
  case isTrue => exact le_rfl
  case isFalse => exact HashMap.size_le_insert

/-- Counting a hit returns the exact count of the last six buckets. -/
lemma bump_spec {rl : RateLimiter} {m clock key now} (h : Tracks rl m clock) (hnow : clock ≤ now)
    (room : (rl.bump key now).2.counters.size ≤ maxKeys) (len : (m key).length < u32Max) :
    (rl.bump key now).1 = recent 10 6 (m key ++ [now]) now
      ∧ Tracks (rl.bump key now).2 (bumped m key now) now := by
  obtain ⟨old, fresh, hm, hold, hentry⟩ := h.entry key
  have hle : ∀ t ∈ m key, t ≤ now := fun t ht => Nat.le_trans (h.past key t ht) hnow
  have hsorted : (m key ++ [now]).Pairwise (· ≤ ·) := by
    refine List.pairwise_append.mpr ⟨h.sorted key, List.pairwise_singleton _ _, ?_⟩
    simpa using hle
  have hfresh : (fresh ++ [now]).Pairwise (· ≤ ·) := by
    rw [hm, List.append_assoc] at hsorted
    exact (List.pairwise_append.mp hsorted).2.1
  have hcounter : (rl.counters.lookup key).getD Counter.default = Counter.after fresh := by
    rw [hentry]
    split
    case isTrue e => rw [e]; rfl
    case isFalse => rfl
  have hcount : ((Counter.after fresh).hit now).1 = recent 10 6 (m key ++ [now]) now := by
    have hlen : (fresh ++ [now]).length < 2 ^ 32 := by
      rw [hm, List.length_append] at len
      simp only [u32Max, List.length_append, List.length_singleton] at len ⊢
      omega
    -- the hits that were swept with an older counter are out of the window
    have hcold : ∀ u ∈ old, u + 10 * 6 ≤ now := by
      intro u hu
      have hu' := hold u hu
      simp only [coldSecs] at hu'
      omega
    rw [(hit_value (lagged_of_sorted hfresh) hlen).1, remembered_of_sorted hfresh, hm,
      List.append_assoc, recent_append_old (by decide) hcold]
  -- the table has room, so the key is not turned away
  have hopen : ¬ (!rl.counters.containsKey key && decide (maxKeys < rl.counters.size)) = true := by
    intro hfull
    have hsize : maxKeys < rl.counters.size := by simpa using (Bool.and_eq_true_iff.mp hfull).2
    exact absurd (Nat.lt_of_lt_of_le hsize size_le_bump) (Nat.not_lt.mpr room)
  unfold bump
  rw [if_neg hopen, hcounter]
  refine ⟨hcount, ?_, ?_, ?_⟩
  · intro k
    unfold bumped
    split
    case isTrue e => rw [e]; exact hsorted
    case isFalse => rw [List.append_nil]; exact h.sorted k
  · intro k t ht
    rcases List.mem_append.mp ht with ht | ht
    · exact Nat.le_trans (h.past k t ht) hnow
    · split at ht
      case isTrue => rw [List.mem_singleton.mp ht]
      case isFalse => cases ht
  · intro k
    by_cases e : k = key
    · subst e
      refine ⟨old, fresh ++ [now], ?_, fun t ht => Nat.le_trans (hold t ht) hnow, ?_⟩
      · rw [bumped, if_pos rfl, hm, List.append_assoc]
      · rw [if_neg (by simp), AList.lookup_insert, Counter.after, Counter.after, List.foldl_concat]
    · obtain ⟨old', fresh', hm', hold', hentry'⟩ := h.entry k
      refine ⟨old', fresh', ?_, fun t ht => Nat.le_trans (hold' t ht) hnow, ?_⟩
      · rw [bumped, if_neg e, List.append_nil, hm']
      · rw [AList.lookup_insert_ne e, hentry']

/-- A sweep drops only counters whose hits are all too old to count. -/
lemma gc_tracks {rl : RateLimiter} {m clock now} (h : Tracks rl m clock) (hnow : clock ≤ now) :
    Tracks (rl.gc coldSecs now) m now := by
  refine ⟨h.sorted, fun k t ht => Nat.le_trans (h.past k t ht) hnow, fun k => ?_⟩
  obtain ⟨old, fresh, hm, hold, hentry⟩ := h.entry k
  have hold' : ∀ t ∈ old, t + coldSecs ≤ now := fun t ht => Nat.le_trans (hold t ht) hnow
  simp only [gc, HashMap.lookup_retain, hentry]
  rcases List.eq_nil_or_concat' fresh with rfl | ⟨init, last, rfl⟩
  · exact ⟨old, [], hm, hold', rfl⟩
  · have hhead : (Counter.after (init ++ [last])).headSecs = last := by
      rw [Counter.after, List.foldl_concat]
      rfl
    rw [if_neg (by simp), Option.filter_some, hhead]
    by_cases hage : now - last < coldSecs
    · rw [if_pos (by simpa using hage)]
      exact ⟨old, _, hm, hold', (if_neg (by simp)).symm⟩
    · rw [if_neg (by simpa using hage)]
      refine ⟨old ++ (init ++ [last]), [], by rw [hm, List.append_nil], ?_, rfl⟩
      intro t ht
      rcases List.mem_append.mp ht with ht | ht
      · exact hold' t ht
      · have hs := h.sorted k
        rw [hm, ← List.append_assoc, List.pairwise_append] at hs
        have htl : t ≤ last := by
          rcases List.mem_append.mp ht with ht | ht
          · exact hs.2.2 t (List.mem_append_right _ ht) last (by simp)
          · exact Nat.le_of_eq (List.mem_singleton.mp ht)
        simp only [coldSecs] at hage ⊢
        omega

/-! ## A call -/

/-- The global check refuses exactly when the count exceeds the rate. -/
lemma checkGlobal_cases (rl : RateLimiter) (ip path : Str) (scale now : Nat) :
    let b := rl.bump (globalKey ip) now
    (exceeds b.1 (scaleRpm rl.globalRpm scale) rl.globalBurst.toNat = true
      ∧ rl.checkGlobal ip path scale now = (.error ⟨10, "global", path⟩, b.2))
    ∨ (exceeds b.1 (scaleRpm rl.globalRpm scale) rl.globalBurst.toNat = false
      ∧ rl.checkGlobal ip path scale now = (.ok (), b.2)) := by
  simp only [checkGlobal]
  split
  case isTrue h => exact .inl ⟨h, rfl⟩
  case isFalse h => exact .inr ⟨by simpa using h, rfl⟩

/-- A call limited by its route is counted under the route only; any other call is also counted
under its client. -/
lemma checkScaled_cases {rl : RateLimiter} (on : rl.enabled = true) (ip path : Str)
    (scaleBps now : Nat) :
    (∃ r idx, rl.firstRoute path = some (r, idx)
      ∧ exceeds (rl.bump (routeKey idx ip) now).1 (scaleRpm r.rpm (max scaleBps 100)) r.burst.toNat
        = true
      ∧ rl.checkScaled ip path scaleBps now
        = (.error ⟨10, "route", path⟩, (rl.bump (routeKey idx ip) now).2))
    ∨ (∃ r idx, rl.firstRoute path = some (r, idx)
      ∧ exceeds (rl.bump (routeKey idx ip) now).1 (scaleRpm r.rpm (max scaleBps 100)) r.burst.toNat
        = false
      ∧ rl.checkScaled ip path scaleBps now
        = (rl.bump (routeKey idx ip) now).2.checkGlobal ip path (max scaleBps 100) now)
    ∨ (rl.firstRoute path = none
      ∧ rl.checkScaled ip path scaleBps now
        = rl.checkGlobal ip path (max scaleBps 100) now) := by
  unfold checkScaled
  rw [if_neg (by simp [on])]
  cases h : rl.firstRoute path with
  | none => exact .inr (.inr ⟨rfl, rfl⟩)
  | some found =>
    obtain ⟨r, idx⟩ := found
    simp only
    split
    case isTrue hx => exact .inl ⟨r, idx, rfl, hx, rfl⟩
    case isFalse hx => exact .inr (.inl ⟨r, idx, rfl, by simpa using hx, rfl⟩)

/-- A count that is not refused is within rate and burst. -/
lemma le_of_not_exceeds {count rpm burst} (h : exceeds count rpm burst = false) :
    count ≤ satAdd32 rpm burst := by
  simpa [exceeds] using h

/-- The history after a call. -/
def called (rl : RateLimiter) (m : Str → List Nat) (o : Call × Except Limited Unit) :
    Str → List Nat :=
  fun k => m k ++ if k ∈ keysOf rl o then [o.1.now] else []

/-- The part of a call that counts it under its client. -/
lemma checkGlobal_spec {rl : RateLimiter} {m clock ip now} (path : Str) (scale : Nat) (h : Tracks rl m clock)
    (hnow : clock ≤ now)
    (room : (rl.checkGlobal ip path scale now).2.counters.size ≤ maxKeys)
    (len : (m (globalKey ip)).length < u32Max) :
    Tracks (rl.checkGlobal ip path scale now).2 (bumped m (globalKey ip) now) now
      ∧ reachedGlobal (rl.checkGlobal ip path scale now).1 = true
      ∧ ((rl.checkGlobal ip path scale now).1 = .ok () →
        recent 10 6 (m (globalKey ip) ++ [now]) now
          ≤ satAdd32 (scaleRpm rl.globalRpm scale) rl.globalBurst.toNat) := by
  rcases checkGlobal_cases rl ip path scale now with ⟨-, e⟩ | ⟨hx, e⟩
  · rw [e] at room ⊢
    exact ⟨(bump_spec h hnow room len).2, rfl, nofun⟩
  · rw [e] at room ⊢
    obtain ⟨hcount, htracks⟩ := bump_spec h hnow room len
    refine ⟨htracks, rfl, fun _ => ?_⟩
    rw [← hcount]
    exact le_of_not_exceeds hx

/-- A call extends the histories of its keys, and passes only if the exact counts of the last six
buckets are within the ceilings. -/
lemma checkScaled_spec {rl : RateLimiter} {m clock} {c : Call} (on : rl.enabled = true)
    (h : Tracks rl m clock) (hnow : clock ≤ c.now)
    (room : (rl.checkScaled c.ip c.path c.scaleBps c.now).2.counters.size ≤ maxKeys)
    (len : ∀ k, (m k).length < u32Max) :
    let res := rl.checkScaled c.ip c.path c.scaleBps c.now
    Tracks res.2 (called rl m (c, res.1)) c.now
      ∧ (res.1 = .ok () →
        recent 10 6 (m (globalKey c.ip) ++ [c.now]) c.now
            ≤ satAdd32 (scaleRpm rl.globalRpm (max c.scaleBps 100)) rl.globalBurst.toNat
          ∧ ∀ r idx, rl.firstRoute c.path = some (r, idx) →
            recent 10 6 (m (routeKey idx c.ip) ++ [c.now]) c.now
              ≤ satAdd32 (scaleRpm r.rpm (max c.scaleBps 100)) r.burst.toNat) := by
  rcases checkScaled_cases on c.ip c.path c.scaleBps c.now
    with ⟨r, idx, hroute, -, e⟩ | ⟨r, idx, hroute, hx, e⟩ | ⟨hroute, e⟩
  · -- limited by the route
    rw [e] at room ⊢
    refine ⟨(bump_spec h hnow room (len _)).2.congr rfl fun k => ?_, nofun⟩
    have hkeys : keysOf rl (c, .error ⟨10, "route", c.path⟩) = [routeKey idx c.ip] := by
      simp only [keysOf, hroute, reachedGlobal]
      rfl
    simp only [called, bumped, hkeys, List.mem_singleton]
  · -- within the ceiling of the route
    rw [e] at room ⊢
    have hroom : (rl.bump (routeKey idx c.ip) c.now).2.counters.size ≤ maxKeys := by
      refine Nat.le_trans ?_ room
      rcases checkGlobal_cases (rl.bump (routeKey idx c.ip) c.now).2 c.ip c.path
        (max c.scaleBps 100) c.now with ⟨-, e'⟩ | ⟨-, e'⟩
      · rw [e']; exact size_le_bump
      · rw [e']; exact size_le_bump
    obtain ⟨hcount, htracks⟩ := bump_spec h hnow hroom (len _)
    -- the bump of the route leaves the global key alone
    have hsame : bumped m (routeKey idx c.ip) c.now (globalKey c.ip) = m (globalKey c.ip) := by
      rw [bumped, if_neg routeKey_ne_globalKey.symm, List.append_nil]
    obtain ⟨ht, hreached, hok⟩ := checkGlobal_spec c.path (max c.scaleBps 100)
      htracks le_rfl room (by rw [hsame]; exact len _)
    rw [hsame, bump_globalRpm, bump_globalBurst] at hok
    refine ⟨ht.congr rfl fun k => ?_, fun hres => ⟨hok hres, ?_⟩⟩
    · simp only [called, keysOf, hroute, hreached, bumped]
      by_cases hg : k = globalKey c.ip
      · subst hg
        simp [routeKey_ne_globalKey.symm]
      · simp [hg]
    · intro r' idx' e'
      rw [hroute] at e'
      cases e'
      rw [← hcount]
      exact le_of_not_exceeds hx
  · -- no route
    rw [e] at room ⊢
    obtain ⟨ht, hreached, hok⟩ := checkGlobal_spec c.path (max c.scaleBps 100) h hnow room (len _)
    refine ⟨ht.congr rfl fun k => ?_, fun hres => ⟨hok hres, ?_⟩⟩
    · simp only [called, keysOf, hroute, hreached, bumped]
      simp
    · rw [hroute]
      exact nofun

/-! ## A run -/

/-- A bump changes the counters only. -/
lemma bump_rules {rl : RateLimiter} {key now} :
    (rl.bump key now).2 = { rl with counters := (rl.bump key now).2.counters } := by
  unfold bump
  split <;> rfl

/-- A call changes nothing but the table. -/
lemma checkScaled_rules {rl : RateLimiter} {ip path scaleBps now} :
    (rl.checkScaled ip path scaleBps now).2
      = { rl with counters := (rl.checkScaled ip path scaleBps now).2.counters } := by
  have hglobal : ∀ {rl' : RateLimiter} {scale},
      (rl'.checkGlobal ip path scale now).2
        = { rl' with counters := (rl'.checkGlobal ip path scale now).2.counters } := by
    intro rl' scale
    simp only [checkGlobal]
    split <;> exact bump_rules
  simp only [checkScaled]
  split
  · rfl
  · split
    · split
      · exact bump_rules
      · rw [hglobal, bump_rules]
    · exact hglobal

/-- A run changes nothing but the table. -/
lemma run_rules (rl : RateLimiter) (es : List Event) :
    (run rl es).limiter = { rl with counters := (run rl es).limiter.counters } := by
  induction es using List.reverseRecOn with
  | nil => rfl
  | append_singleton es e ih =>
    rw [run_append]
    cases e with
    | check c =>
      simp only [Run.step]
      rw [checkScaled_rules, ih]
    | gc now =>
      simp only [Run.step, gc]
      rw [ih]

/-- The log has one line for each call. -/
lemma log_calls (rl : RateLimiter) (es : List Event) :
    (run rl es).log.map Prod.fst = es.filterMap Event.call := by
  induction es using List.reverseRecOn with
  | nil => rfl
  | append_singleton es e ih =>
    rw [run_append, List.filterMap_append, ← ih]
    cases e with
    | check c => simp [Run.step, Event.call]
    | gc now => simp [Run.step, Event.call]

/-- A key has at most as many hits as there are calls. -/
lemma hits_length_le (rl : RateLimiter) (es : List Event) (k : Str) :
    (hits rl (run rl es).log k).length ≤ (es.filterMap Event.call).length := by
  have hlog := congrArg List.length (log_calls rl es)
  rw [List.length_map] at hlog
  rw [hits, List.length_map, ← hlog]
  exact List.length_filter_le _ _

/-- Each answer in the log of a run is the answer of the limiter of an earlier moment. -/
lemma log_prefix {rl : RateLimiter} {es pre c res} (h : pre ++ [(c, res)] <+: (run rl es).log) :
    ∃ es', es' ++ [.check c] <+: es ∧ (run rl es').log = pre
      ∧ ((run rl es').limiter.checkScaled c.ip c.path c.scaleBps c.now).1 = res := by
  induction es using List.reverseRecOn with
  | nil => exact absurd (List.prefix_nil.mp h) (by simp)
  | append_singleton es e ih =>
    rw [run_append] at h
    have earlier (h' : pre ++ [(c, res)] <+: (run rl es).log) :
        ∃ es', es' ++ [.check c] <+: es ++ [e] ∧ (run rl es').log = pre
          ∧ ((run rl es').limiter.checkScaled c.ip c.path c.scaleBps c.now).1 = res := by
      obtain ⟨es', hp, hlog, hres⟩ := ih h'
      exact ⟨es', hp.trans (List.prefix_append _ _), hlog, hres⟩
    cases e with
    | check c' =>
      rcases List.prefix_concat_iff.mp h with h | h
      · obtain ⟨rfl, hlast⟩ := List.append_inj' h rfl
        cases hlast
        exact ⟨es, List.prefix_refl _, rfl, rfl⟩
      · exact earlier h
    | gc now => exact earlier h

/-- The table represents the whole history of every key, at every moment of a run. -/
lemma run_tracks {rl : RateLimiter} {es} (empty : rl.counters = ∅) (on : rl.enabled = true)
    (clock : (es.map Event.now).Pairwise (· ≤ ·))
    (room : ∀ pre, pre <+: es → (run rl pre).limiter.counters.size ≤ maxKeys)
    (calls : (es.filterMap Event.call).length ≤ u32Max) :
    ∃ last, Tracks (run rl es).limiter (hits rl (run rl es).log) last
      ∧ ∀ t, (∀ e ∈ es, e.now ≤ t) → last ≤ t := by
  induction es using List.reverseRecOn with
  | nil => exact ⟨0, tracks_empty empty, fun t _ => Nat.zero_le t⟩
  | append_singleton es e ih =>
    rw [List.map_append, List.pairwise_append] at clock
    rw [List.filterMap_append, List.length_append] at calls
    obtain ⟨last, ht, hlast⟩ := ih clock.1
      (fun pre hp => room pre (hp.trans (List.prefix_append _ _))) (by omega)
    have hnow : last ≤ e.now := by
      refine hlast e.now fun e' he => ?_
      exact clock.2.2 _ (List.mem_map_of_mem he) _ (by simp)
    have hroom := room _ (List.prefix_refl _)
    refine ⟨e.now, ?_, fun t ht => ht e (by simp)⟩
    rw [run_append] at hroom ⊢
    cases e with
    | check c =>
      have hlen : ∀ k, (hits rl (run rl es).log k).length < u32Max := by
        intro k
        have hle := hits_length_le rl es k
        have hone : ([Event.check c].filterMap Event.call).length = 1 := rfl
        omega
      have hrules := run_rules rl es
      have hon : (run rl es).limiter.enabled = true := by rw [hrules]; exact on
      refine (checkScaled_spec hon ht hnow hroom hlen).1.congr rfl fun k => ?_
      have hkeys : keysOf (run rl es).limiter = keysOf rl := by rw [hrules]; rfl
      simp only [Run.step, hits_append, called, hkeys]
    | gc now => exact gc_tracks ht hnow

/-- The passed calls of a log are hits of a key that all of them are counted under. -/
lemma countP_le_hits {rl : RateLimiter} {log key} {p : Call × Except Limited Unit → Bool}
    {q : Nat → Bool} (h : ∀ o, p o = true → key ∈ keysOf rl o ∧ q o.1.now = true) :
    log.countP p ≤ (hits rl log key).countP q := by
  rw [hits, List.countP_map, List.countP_filter]
  refine List.countP_mono_left fun o _ ho => ?_
  obtain ⟨hk, hq⟩ := h o ho
  simp [hk, hq]

lemma scaleRpm_mono {rpm : UInt32} {s s' : Nat} (h : s ≤ s') (hs : s' ≤ 10000) :
    scaleRpm rpm s ≤ scaleRpm rpm s' := by
  have hrpm : rpm.toNat < 2 ^ 32 := rpm.toNat_lt
  have hlt : ∀ x, x ≤ 10000 → rpm.toNat * x / 10000 < 2 ^ 32 := by
    intro x hx
    have hle : rpm.toNat * x / 10000 ≤ rpm.toNat :=
      Nat.div_le_of_le_mul (by rw [Nat.mul_comm]; exact Nat.mul_le_mul_right _ hx)
    omega
  rw [scaleRpm, scaleRpm, Nat.mod_eq_of_lt (hlt s (by omega)), Nat.mod_eq_of_lt (hlt s' hs)]
  exact Nat.div_le_div_right (Nat.mul_le_mul_left _ h)

lemma satAdd32_mono {a a' b : Nat} (h : a ≤ a') : satAdd32 a b ≤ satAdd32 a' b := by
  simp only [satAdd32]
  omega

/-- Is the call from `ip` in the six buckets from bucket `b` on? -/
def inBuckets (ip : Str) (b : Nat) (c : Call) : Bool := c.ip == ip && inWindow 10 6 b c.now

/-- The number of calls that pass and meet `p`. -/
def admitted (rl : RateLimiter) (events : List Event) (p : Call → Bool) : Nat :=
  (run rl events).log.countP fun o => o.2.isOk && p o.1

/-- The largest scale used for `ip` in the six buckets from bucket `b` on. -/
def scaleUsed (events : List Event) (ip : Str) (b : Nat) : Nat :=
  (((events.filterMap Event.call).filter (inBuckets ip b)).map fun c => max c.scaleBps 100).foldr
    max 0

/-- The number of the first route that matches the path of a call. -/
def routeOf (rl : RateLimiter) (c : Call) : Option Nat := (rl.firstRoute c.path).map Prod.snd

/-- The scale of a call in the bucket is one of those used. -/
lemma scale_le_scaleUsed {events ip b c} (hc : c ∈ events.filterMap Event.call)
    (hb : inBuckets ip b c = true) : max c.scaleBps 100 ≤ scaleUsed events ip b :=
  List.le_max_of_le' 0 (List.mem_map_of_mem (List.mem_filter.mpr ⟨hc, hb⟩)) le_rfl

lemma scaleUsed_le {events ip b}
    (scale : ∀ c ∈ events.filterMap Event.call, c.scaleBps ≤ 10000) :
    scaleUsed events ip b ≤ 10000 := by
  refine List.max_le_of_forall_le (α := Nat) _ _ fun x hx => ?_
  obtain ⟨c, hc, rfl⟩ := List.mem_map.mp hx
  have hs := scale c (List.mem_filter.mp hc).1
  omega

/-- At a passed call of `ip`, the hits of its keys in a window that contains the call are within the
ceilings. -/
lemma passed_call {rl : RateLimiter} {events pre o ip b} (empty : rl.counters = ∅)
    (on : rl.enabled = true) (clock : (events.map Event.now).Pairwise (· ≤ ·))
    (scale : ∀ c ∈ events.filterMap Event.call, c.scaleBps ≤ 10000)
    (room : ∀ pre, pre <+: events → (run rl pre).limiter.counters.size ≤ maxKeys)
    (calls : (events.filterMap Event.call).length < 2 ^ 32)
    (h : pre ++ [o] <+: (run rl events).log) (passed : o.2.isOk = true)
    (hb : inBuckets ip b o.1 = true) :
    (hits rl (pre ++ [o]) (globalKey ip)).countP (inWindow 10 6 b)
        ≤ satAdd32 (scaleRpm rl.globalRpm (scaleUsed events ip b)) rl.globalBurst.toNat
      ∧ ∀ r idx, rl.firstRoute o.1.path = some (r, idx) →
        (hits rl (pre ++ [o]) (routeKey idx ip)).countP (inWindow 10 6 b)
          ≤ satAdd32 (scaleRpm r.rpm (scaleUsed events ip b)) r.burst.toNat := by
  obtain ⟨c, res⟩ := o
  obtain rfl : res = .ok () := by
    cases res with
    | ok => rfl
    | error => cases passed
  -- the events before the call make up a run of their own
  obtain ⟨es, hp, rfl, hres⟩ := log_prefix h
  obtain ⟨rfl, hw⟩ : c.ip = ip ∧ inWindow 10 6 b c.now = true := by simpa [inBuckets] using hb
  have hes : es <+: events := (List.prefix_append _ _).trans hp
  have hclock := clock.sublist (hp.sublist.map Event.now)
  have hcall : c ∈ events.filterMap Event.call :=
    List.mem_filterMap.mpr ⟨.check c, hp.subset (by simp), rfl⟩
  have hlen : (es.filterMap Event.call).length + 1 ≤ u32Max := by
    have hle := (hp.sublist.filterMap Event.call).length_le
    rw [List.filterMap_append, List.length_append] at hle
    have hone : ([Event.check c].filterMap Event.call).length = 1 := rfl
    simp only [u32Max]
    omega
  rw [List.map_append, List.pairwise_append] at hclock
  obtain ⟨last, ht, hlast⟩ := run_tracks empty on hclock.1
    (fun pre hpre => room pre (hpre.trans hes)) (by omega)
  have hnow : last ≤ c.now :=
    hlast _ fun e he => hclock.2.2 _ (List.mem_map_of_mem he) _ (by simp [Event.now])
  have hroom : ((run rl es).limiter.checkScaled c.ip c.path c.scaleBps c.now).2.counters.size
      ≤ maxKeys := by
    have hr := room _ hp
    rw [run_append] at hr
    exact hr
  have hhits : ∀ k, (hits rl (run rl es).log k).length < u32Max := by
    intro k
    have hle := hits_length_le rl es k
    omega
  have hrules := run_rules rl es
  have hon : (run rl es).limiter.enabled = true := by rw [hrules]; exact on
  obtain ⟨hglobal, hroute⟩ := (checkScaled_spec hon ht hnow hroom hhits).2 hres
  have hmono : ∀ rpm : UInt32, scaleRpm rpm (max c.scaleBps 100)
      ≤ scaleRpm rpm (scaleUsed events c.ip b) :=
    fun rpm => scaleRpm_mono (scale_le_scaleUsed hcall hb) (scaleUsed_le scale)
  -- what the window counts is among what the counter still remembers
  have hkeys : ∀ k, (hits rl ((run rl es).log ++ [(c, .ok ())]) k).countP (inWindow 10 6 b)
      ≤ recent 10 6 (hits rl (run rl es).log k ++ [c.now]) c.now := by
    intro k
    refine Nat.le_trans ?_ (countP_inWindow_le_recent hw)
    rw [hits_append, List.countP_append, List.countP_append]
    split
    · exact le_rfl
    · simp
  rw [hrules] at hglobal hroute
  refine ⟨(hkeys _).trans (hglobal.trans (satAdd32_mono (hmono _))), fun r idx hr => ?_⟩
  exact (hkeys _).trans ((hroute r idx hr).trans (satAdd32_mono (hmono _)))

lemma globalKey_mem {rl : RateLimiter} {o : Call × Except Limited Unit} (h : o.2.isOk = true) :
    globalKey o.1.ip ∈ keysOf rl o := by
  obtain ⟨c, res⟩ := o
  cases res with
  | ok => simp [keysOf, reachedGlobal]
  | error => cases h

lemma routeKey_mem {rl : RateLimiter} {o : Call × Except Limited Unit} {idx}
    (h : routeOf rl o.1 = some idx) : routeKey idx o.1.ip ∈ keysOf rl o := by
  obtain ⟨r, hr, rfl⟩ := Option.map_eq_some_iff.mp h
  simp [keysOf, hr]

/-- The route of a call is the first that matches its path. -/
lemma firstRoute_of_routeOf {rl : RateLimiter} {c : Call} {idx r} (h : routeOf rl c = some idx)
    (hr : rl.routes[idx]? = some r) : rl.firstRoute c.path = some (r, idx) := by
  obtain ⟨⟨r', idx'⟩, hfirst, rfl⟩ := Option.map_eq_some_iff.mp h
  have hmem := List.mem_of_find?_eq_some hfirst
  rw [List.mk_mem_zipIdx_iff_getElem?, hr] at hmem
  cases hmem
  exact hfirst

/-- The calls from one client that pass in six consecutive buckets are within the largest ceiling
used there, and so are those of each route. -/
theorem admission_bound {crates : Crates} {cfg : RateLimitCfg} {rl : RateLimiter}
    {events : List Event} (built : RateLimiter.new crates cfg = some rl)
    (on : cfg.enabled = true) (clock : (events.map Event.now).Pairwise (· ≤ ·))
    (scale : ∀ c ∈ events.filterMap Event.call, c.scaleBps ≤ 10000)
    (room : ∀ pre, pre <+: events → (run rl pre).limiter.counters.size ≤ maxKeys)
    (calls : (events.filterMap Event.call).length < 2 ^ 32) (ip : Str) (b : Nat) :
    admitted rl events (inBuckets ip b)
        ≤ satAdd32 (scaleRpm rl.globalRpm (scaleUsed events ip b)) rl.globalBurst.toNat
      ∧ ∀ r idx, rl.routes[idx]? = some r →
        admitted rl events (fun c => inBuckets ip b c && routeOf rl c == some idx)
          ≤ satAdd32 (scaleRpm r.rpm (scaleUsed events ip b)) r.burst.toNat := by
  obtain ⟨routes, -, hrl⟩ := Option.bind_eq_some_iff.mp built
  have hempty : rl.counters = ∅ := by cases hrl; rfl
  have hon : rl.enabled = true := by cases hrl; exact on
  constructor
  · refine countP_le_of_last fun pre o hp ho => ?_
    obtain ⟨hok, hb⟩ := Bool.and_eq_true_iff.mp ho
    have hbound := (passed_call hempty hon clock scale room calls hp hok hb).1
    refine Nat.le_trans (countP_le_hits fun o' ho' => ?_) hbound
    obtain ⟨hok', hb'⟩ := Bool.and_eq_true_iff.mp ho'
    obtain ⟨hip, hw⟩ := Bool.and_eq_true_iff.mp hb'
    rw [← eq_of_beq hip]
    exact ⟨globalKey_mem hok', hw⟩
  · intro r idx hr
    refine countP_le_of_last fun pre o hp ho => ?_
    obtain ⟨hok, hbr⟩ := Bool.and_eq_true_iff.mp ho
    obtain ⟨hb, hroute⟩ := Bool.and_eq_true_iff.mp hbr
    have hfirst := firstRoute_of_routeOf (eq_of_beq hroute) hr
    have hbound := (passed_call hempty hon clock scale room calls hp hok hb).2 r idx hfirst
    refine Nat.le_trans (countP_le_hits fun o' ho' => ?_) hbound
    obtain ⟨-, hbr'⟩ := Bool.and_eq_true_iff.mp ho'
    obtain ⟨hb', hroute'⟩ := Bool.and_eq_true_iff.mp hbr'
    obtain ⟨hip, hw⟩ := Bool.and_eq_true_iff.mp hb'
    rw [← eq_of_beq hip]
    exact ⟨routeKey_mem (eq_of_beq hroute'), hw⟩

/-- A limiter with one route, of ceiling 1, below a ceiling of 2 for each client. -/
def loginLimiter : RateLimiter where
  enabled := true
  globalRpm := 2
  globalBurst := 0
  routes := [⟨contains "/login", 1, 0⟩]
  counters := ∅

/-- A client that logs in twice and then asks for the start page, with a sweep in between. -/
def loginEvents : List Event :=
  [.check ⟨5, "10.0.0.7", "/login", 10000⟩, .check ⟨12, "10.0.0.7", "/login", 10000⟩, .gc 20,
    .check ⟨33, "10.0.0.7", "/", 7500⟩]

/-- A limiter with one route, and calls of one address. -/
theorem admission_bound_witness :
    admitted loginLimiter loginEvents (inBuckets "10.0.0.7" 0)
        ≤ satAdd32 (scaleRpm 2 (scaleUsed loginEvents "10.0.0.7" 0)) 0
      ∧ ∀ r idx, loginLimiter.routes[idx]? = some r →
        admitted loginLimiter loginEvents
            (fun c => inBuckets "10.0.0.7" 0 c && routeOf loginLimiter c == some idx)
          ≤ satAdd32 (scaleRpm r.rpm (scaleUsed loginEvents "10.0.0.7" 0)) r.burst.toNat := by
  have built : RateLimiter.new { idleCrates with regex := fun p => some (contains p) }
      { requestsPerMinute := 2, routes := [⟨"/login", 1, 0⟩] } = some loginLimiter := rfl
  have room : ∀ es ∈ loginEvents.inits,
      (run loginLimiter es).limiter.counters.size ≤ maxKeys := by decide
  exact admission_bound built rfl (by decide) (by decide)
    (fun pre hp => room pre ((List.mem_inits _ _).mpr hp)) (by decide) "10.0.0.7" 0

end RateLimiter

end Waf
