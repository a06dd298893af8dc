import Waf.Limiter.Admission

/-!
# Clients of the rate limiter

The counter of a key after a run is the one it started with after the hits of that key: an entry that
a sweep dropped is so old that the next hit would have cleared it (`Follows`). The keys of a client
carry its address, so that the answers to a client are those of a limiter that it has for itself
(`log_of_client`).
-/

namespace Waf
open Lib
open Ratelimit (Counter)

namespace RateLimiter

/-- The counter of a key after more hits. -/
def tally (rl : RateLimiter) (key : Str) (ts : List Nat) : Counter :=
  ts.foldl (fun c t => (c.hit t).2) ((rl.counters.lookup key).getD Counter.default)

/-- A counter that the watchdog takes for cold. -/
def Cold (c : Counter) (clock : Nat) : Prop := c.headSecs + coldSecs ≤ clock

/-- Every entry of a table is that of an earlier one after the hits `m`, or has been dropped. -/
def Follows (rl rl' : RateLimiter) (m : Str → List Nat) (clock : Nat) : Prop :=
  ∀ k, (rl'.counters.lookup k).getD Counter.default = rl.tally k (m k)
    ∨ (rl'.counters.lookup k = none ∧ Cold (rl.tally k (m k)) clock)

variable {rl rl' : RateLimiter} {m m' : Str → List Nat} {clock now idx : Nat} {key ip a : Str}
  {c : Counter} {log log' : List (Call × Except Limited Unit)}

lemma tally_append {ts : List Nat} : rl.tally key (ts ++ [now]) = ((rl.tally key ts).hit now).2 :=
  List.foldl_concat ..

/-- The next hit of a cold counter is as if it was the first. -/
lemma hit_cold (hcold : Cold c clock) (hnow : clock ≤ now) :
    c.hit now = Counter.default.hit now := by
  have hpassed : ∀ h, h + coldSecs ≤ now → 6 ≤ now / 10 - h / 10 := by
    intro h hle
    rw [coldSecs] at hle
    omega
  have hc : c.headSecs + coldSecs ≤ now := hcold.trans hnow
  exact Ring.hit_eq_of_passed (hpassed _ hc)
    (hpassed 0 ((Nat.add_le_add_right (Nat.zero_le _) _).trans hc))

lemma follows_start : Follows rl rl (fun _ => []) 0 := fun _ => .inl rfl

lemma Follows.mono (h : Follows rl rl' m clock) (hnow : clock ≤ now) : Follows rl rl' m now := by
  intro k
  obtain heq | ⟨hnone, hcold⟩ := h k
  · exact .inl heq
  · exact .inr ⟨hnone, hcold.trans hnow⟩

/-- A hit returns what it returns after the hits of its key alone. -/
lemma bump_follows (key : Str) (h : Follows rl rl' m clock) (hnow : clock ≤ now)
    (room : rl'.counters.size ≤ maxKeys) :
    (rl'.bump key now).1 = ((rl.tally key (m key)).hit now).1
      ∧ Follows rl (rl'.bump key now).2 (bumped m key now) now := by
  have hopen : ¬ (!rl'.counters.containsKey key && decide (maxKeys < rl'.counters.size)) = true := by
    intro hfull
    have hsize := of_decide_eq_true (Bool.and_eq_true_iff.mp hfull).2
    exact absurd room (Nat.not_le.mpr hsize)
  have hhit : ((rl'.counters.lookup key).getD Counter.default).hit now
      = (rl.tally key (m key)).hit now := by
    obtain heq | ⟨hnone, hcold⟩ := h key
    · rw [heq]
    · rw [hnone, hit_cold hcold hnow]
      rfl
  rw [bump, if_neg hopen]
  refine ⟨congrArg Prod.fst hhit, fun k => ?_⟩
  by_cases hk : k = key
  case pos =>
    subst hk
    refine .inl ?_
    rw [bumped, if_pos rfl, tally_append, ← hhit]
    show ((AList.insert k _ rl'.counters).lookup k).getD _ = _
    rw [AList.lookup_insert]
    rfl
  case neg =>
    have hsame : bumped m key now k = m k := by rw [bumped, if_neg hk, List.append_nil]
    rw [hsame]
    show ((AList.insert key _ rl'.counters).lookup k).getD _ = _ ∨ _
    rw [AList.lookup_insert_ne hk]
    exact h.mono hnow k

/-- A sweep drops cold counters only. -/
lemma gc_follows (h : Follows rl rl' m clock) (hnow : clock ≤ now) :
    Follows rl (rl'.gc coldSecs now) m now := by
  intro k
  have hlookup : (rl'.gc coldSecs now).counters.lookup k
      = (rl'.counters.lookup k).filter fun c => now - c.headSecs < coldSecs :=
    HashMap.lookup_retain
  rw [hlookup]
  cases hentry : rl'.counters.lookup k with
  | none =>
    obtain heq | ⟨-, hcold⟩ := h k
    · rw [hentry] at heq
      exact .inl heq
    · exact .inr ⟨rfl, hcold.trans hnow⟩
  | some c =>
    obtain heq | ⟨hnone, -⟩ := h k
    · rw [hentry] at heq
      by_cases hage : now - c.headSecs < coldSecs
      case pos =>
        rw [Option.filter_some, if_pos (decide_eq_true hage)]
        exact .inl heq
      case neg =>
        rw [Option.filter_some, if_neg fun h => hage (of_decide_eq_true h)]
        refine .inr ⟨rfl, ?_⟩
        rw [← heq]
        show c.headSecs + coldSecs ≤ now
        rw [coldSecs] at hage ⊢
        omega
    · rw [hentry] at hnone
      cases hnone

/-! ## The answer to a call -/

/-- The answer of the scope of all paths. -/
def globalAnswer (rl : RateLimiter) (count : Nat) (path : Str) (scale : Nat) :
    Except Limited Unit :=
  if exceeds count (scaleRpm rl.globalRpm scale) rl.globalBurst.toNat then
    .error ⟨10, "global", path⟩
  else .ok ()

/-- The answer to a call after those of a log, by the hits of the keys of the call. -/
def answer (rl : RateLimiter) (log : List (Call × Except Limited Unit)) (c : Call) :
    Except Limited Unit :=
  if !rl.enabled then .ok ()
  else
    let scale := max c.scaleBps 100
    let count key := ((rl.tally key (hits rl log key)).hit c.now).1
    let global := rl.globalAnswer (count (globalKey c.ip)) c.path scale
    match rl.firstRoute c.path with
    | some (r, idx) =>
      if exceeds (count (routeKey idx c.ip)) (scaleRpm r.rpm scale) r.burst.toNat then
        .error ⟨10, "route", c.path⟩
      else global
    | none => global

lemma Follows.congr (h : Follows rl rl' m clock) (hm : ∀ k, m' k = m k) :
    Follows rl rl' m' clock := by
  obtain rfl : m' = m := funext hm
  exact h

/-- The global check of a limiter that follows is that of the tallies. -/
lemma checkGlobal_follows {scale : Nat} (ip path : Str)
    (hrules : rl' = { rl with counters := rl'.counters }) (h : Follows rl rl' m clock)
    (hnow : clock ≤ now) (room : rl'.counters.size ≤ maxKeys) :
    (rl'.checkGlobal ip path scale now).1
        = rl.globalAnswer ((rl.tally (globalKey ip) (m (globalKey ip))).hit now).1 path scale
      ∧ reachedGlobal (rl'.checkGlobal ip path scale now).1 = true
      ∧ Follows rl (rl'.checkGlobal ip path scale now).2 (bumped m (globalKey ip) now) now := by
  obtain ⟨hcount, hfollows⟩ := bump_follows (globalKey ip) h hnow room
  have hrpm : rl'.globalRpm = rl.globalRpm := by rw [hrules]
  have hburst : rl'.globalBurst = rl.globalBurst := by rw [hrules]
  rw [globalAnswer, ← hcount, ← hrpm, ← hburst]
  obtain ⟨hx, e⟩ | ⟨hx, e⟩ := checkGlobal_cases rl' ip path scale now
  · rw [e, if_pos hx]
    exact ⟨rfl, rfl, hfollows⟩
  · rw [e, if_neg (Bool.eq_false_iff.mp hx)]
    exact ⟨rfl, rfl, hfollows⟩

lemma size_le_checkGlobal {path : Str} {scale : Nat} :
    rl.counters.size ≤ (rl.checkGlobal ip path scale now).2.counters.size := by
  obtain ⟨-, e⟩ | ⟨-, e⟩ := checkGlobal_cases rl ip path scale now
  · rw [e]
    exact size_le_bump
  · rw [e]
    exact size_le_bump

/-- A call is answered by the hits of its keys, and extends them. -/
lemma checkScaled_follows {c : Call} (on : rl.enabled = true)
    (hrules : rl' = { rl with counters := rl'.counters })
    (h : Follows rl rl' (hits rl log) clock) (hnow : clock ≤ c.now)
    (room : (rl'.checkScaled c.ip c.path c.scaleBps c.now).2.counters.size ≤ maxKeys) :
    (rl'.checkScaled c.ip c.path c.scaleBps c.now).1 = rl.answer log c
      ∧ Follows rl (rl'.checkScaled c.ip c.path c.scaleBps c.now).2
        (hits rl (log ++ [(c, (rl'.checkScaled c.ip c.path c.scaleBps c.now).1)])) c.now := by
  have hon : rl'.enabled = true := by rw [hrules]; exact on
  have hfirst : rl'.firstRoute c.path = rl.firstRoute c.path := by rw [hrules]; rfl
  have hoff : ¬ (!rl.enabled) = true := by rw [on]; exact Bool.false_ne_true
  obtain ⟨r, idx, hroute, hx, e⟩ | ⟨r, idx, hroute, hx, e⟩ | ⟨hroute, e⟩ :=
    checkScaled_cases hon c.ip c.path c.scaleBps c.now
  · -- limited by the route
    rw [e] at room ⊢
    have hroom := size_le_bump.trans room
    rw [hfirst] at hroute
    obtain ⟨hcount, hfollows⟩ := bump_follows (routeKey idx c.ip) h hnow hroom
    constructor
    · rw [hcount] at hx
      rw [answer, if_neg hoff]
      simp only [hroute]
      rw [if_pos hx]
    · refine hfollows.congr fun k => ?_
      have hkeys : keysOf rl (c, .error ⟨10, "route", c.path⟩) = [routeKey idx c.ip] := by
        simp only [keysOf, hroute, reachedGlobal]
        rfl
      simp only [hits_append, bumped, hkeys, List.mem_singleton]
  · -- within the ceiling of the route
    rw [e] at room ⊢
    rw [hfirst] at hroute
    have hroom : (rl'.bump (routeKey idx c.ip) c.now).2.counters.size ≤ maxKeys :=
      size_le_checkGlobal.trans room
    obtain ⟨hcount, hfollows⟩ :=
      bump_follows (routeKey idx c.ip) h hnow (size_le_bump.trans hroom)
    have hrules' : (rl'.bump (routeKey idx c.ip) c.now).2
        = { rl with counters := (rl'.bump (routeKey idx c.ip) c.now).2.counters } := by
      rw [bump_rules, hrules]
    -- the bump of the route leaves the global key alone
    have hsame : bumped (hits rl log) (routeKey idx c.ip) c.now (globalKey c.ip)
        = hits rl log (globalKey c.ip) := by
      rw [bumped, if_neg routeKey_ne_globalKey.symm, List.append_nil]
    obtain ⟨hres, hreached, hfollows'⟩ := checkGlobal_follows c.ip c.path hrules' hfollows
      le_rfl hroom
    rw [hsame] at hres
    constructor
    · rw [hcount] at hx
      rw [answer, if_neg hoff]
      simp only [hroute]
      rw [if_neg (Bool.eq_false_iff.mp hx)]
      exact hres
    · refine hfollows'.congr fun k => ?_
      simp only [hits_append, keysOf, hroute, hreached, bumped]
      by_cases hg : k = globalKey c.ip
      · subst hg
        simp [routeKey_ne_globalKey.symm]
      · simp [hg]
  · -- no route
    rw [e] at room ⊢
    rw [hfirst] at hroute
    have hroom : rl'.counters.size ≤ maxKeys := size_le_checkGlobal.trans room
    obtain ⟨hres, hreached, hfollows⟩ := checkGlobal_follows c.ip c.path hrules h hnow hroom
    constructor
    · rw [answer, if_neg hoff]
      simp only [hroute]
      exact hres
    · refine hfollows.congr fun k => ?_
      simp only [hits_append, keysOf, hroute, hreached, bumped]
      simp

/-! ## The keys of a client -/

lemma routeKey_inj {idx' : Nat} {ip' : Str} (h : routeKey idx ip = routeKey idx' ip') :
    idx = idx' ∧ ip = ip' := by
  have hbar : ∀ n, '|' ∉ dec n := fun n => not_mem_dec (by decide)
  obtain ⟨hidx, hip⟩ := append_sep_inj (hbar idx) (hbar idx') (List.cons_eq_cons.mp h).2
  exact ⟨dec_inj hidx, hip⟩

lemma globalKey_inj {ip' : Str} (h : globalKey ip = globalKey ip') : ip = ip' :=
  (List.cons_eq_cons.mp (List.cons_eq_cons.mp h).2).2

/-- Exactly the calls of the address on the route hit its key. -/
lemma routeKey_mem_iff {o : Call × Except Limited Unit} :
    routeKey idx ip ∈ keysOf rl o ↔ o.1.ip = ip ∧ routeOf rl o.1 = some idx := by
  have hglobal : routeKey idx ip ∉ if reachedGlobal o.2 then [globalKey o.1.ip] else [] := by
    split
    case isTrue => exact fun h => routeKey_ne_globalKey (List.mem_singleton.mp h)
    case isFalse => exact List.not_mem_nil
  rw [keysOf, List.mem_append, or_iff_left hglobal, List.mem_map, routeOf, Option.map_eq_some_iff]
  constructor
  · rintro ⟨r, hr, hkey⟩
    obtain ⟨hidx, hip⟩ := routeKey_inj hkey
    exact ⟨hip, r, Option.mem_toList.mp hr, hidx⟩
  · rintro ⟨rfl, r, hr, rfl⟩
    exact ⟨r, Option.mem_toList.mpr hr, rfl⟩

/-- Exactly those that reach the global limit hit the global key. -/
lemma globalKey_mem_iff {o : Call × Except Limited Unit} :
    globalKey ip ∈ keysOf rl o ↔ o.1.ip = ip ∧ reachedGlobal o.2 = true := by
  have hroute : globalKey ip ∉ (rl.firstRoute o.1.path).toList.map fun r => routeKey r.2 o.1.ip := by
    intro h
    obtain ⟨r, -, hkey⟩ := List.mem_map.mp h
    exact routeKey_ne_globalKey hkey
  rw [keysOf, List.mem_append, or_iff_right hroute]
  cases reachedGlobal o.2 with
  | true =>
    rw [if_pos rfl, List.mem_singleton, and_iff_left rfl]
    exact ⟨fun h => (globalKey_inj h).symm, fun h => h ▸ rfl⟩
  | false =>
    rw [if_neg Bool.false_ne_true]
    exact iff_of_false List.not_mem_nil fun h => Bool.noConfusion h.2

/-- The answers to a client. -/
def ofClient (a : Str) (log : List (Call × Except Limited Unit)) :
    List (Call × Except Limited Unit) := log.filter fun o => o.1.ip == a

/-- The times of the calls of a log that meet a condition. -/
def timesOf (log : List (Call × Except Limited Unit)) (p : Call × Except Limited Unit → Bool) :
    List Nat := (log.filter p).map fun o => o.1.now

/-- The hits of a route are at the times of these calls. -/
lemma hits_route : hits rl log (routeKey idx ip)
    = timesOf log fun o => o.1.ip == ip && routeOf rl o.1 == some idx := by
  refine congrArg _ (List.filter_congr fun o _ => ?_)
  rw [Bool.eq_iff_iff, decide_eq_true_iff, routeKey_mem_iff, Bool.and_eq_true, beq_iff_eq, beq_iff_eq]

lemma hits_global : hits rl log (globalKey ip)
    = timesOf log fun o => o.1.ip == ip && reachedGlobal o.2 := by
  refine congrArg _ (List.filter_congr fun o _ => ?_)
  rw [Bool.eq_iff_iff, decide_eq_true_iff, globalKey_mem_iff, Bool.and_eq_true, beq_iff_eq]

/-- Leaving out other clients leaves the times of a client. -/
lemma timesOf_ofClient {p : Call × Except Limited Unit → Bool} :
    timesOf (ofClient a log) (fun o => o.1.ip == a && p o)
      = timesOf log fun o => o.1.ip == a && p o := by
  rw [timesOf, timesOf, ofClient, List.filter_filter]
  refine congrArg _ (List.filter_congr fun o _ => ?_)
  rw [Bool.and_right_comm, Bool.and_self]

/-- A call is answered by the earlier calls of its client. -/
lemma answer_ofClient {c : Call} : rl.answer (ofClient c.ip log) c = rl.answer log c := by
  simp only [answer, hits_route, hits_global, timesOf_ofClient]

/-- The answers to the calls of a client that has the limiter for itself. -/
def alone (rl : RateLimiter) (calls : List Call) : List (Call × Except Limited Unit) :=
  calls.foldl (fun log c => log ++ [(c, rl.answer log c)]) []

/-! ## Runs -/

variable {es es' : List Event}

lemma run_follows (on : rl.enabled = true) (clock : (es.map Event.now).Pairwise (· ≤ ·))
    (room : ∀ pre, pre <+: es → (run rl pre).limiter.counters.size ≤ maxKeys) :
    ∃ last, Follows rl (run rl es).limiter (hits rl (run rl es).log) last
      ∧ ∀ t, (∀ e ∈ es, e.now ≤ t) → last ≤ t := by
  induction es using List.reverseRecOn with
  | nil => exact ⟨0, follows_start, fun t _ => Nat.zero_le t⟩
  | append_singleton es e ih =>
    rw [List.map_append, List.pairwise_append] at clock
    obtain ⟨last, hfollows, hlast⟩ :=
      ih clock.1 fun pre hp => room pre (hp.trans (List.prefix_append _ _))
    have hnow : last ≤ e.now := by
      refine hlast e.now fun e' he => ?_
      exact clock.2.2 _ (List.mem_map_of_mem he) _ (List.mem_singleton.mpr rfl)
    have hroom := room _ (List.prefix_refl _)
    refine ⟨e.now, ?_, fun t ht => ht e (List.mem_append_right _ (.head _))⟩
    rw [run_append] at hroom ⊢
    cases e with
    | check c => exact (checkScaled_follows on (run_rules rl es) hfollows hnow hroom).2
    | gc now => exact gc_follows hfollows hnow

/-- Each call of a run is answered by the log before it. -/
lemma log_append {c : Call} (clock : ((es ++ [Event.check c]).map Event.now).Pairwise (· ≤ ·))
    (room : ∀ pre, pre <+: es ++ [Event.check c] → (run rl pre).limiter.counters.size ≤ maxKeys) :
    (run rl (es ++ [Event.check c])).log
      = (run rl es).log ++ [(c, rl.answer (run rl es).log c)] := by
  have hstep : (run rl (es ++ [Event.check c])).log = (run rl es).log
      ++ [(c, ((run rl es).limiter.checkScaled c.ip c.path c.scaleBps c.now).1)] := by
    rw [run_append]
    rfl
  have hroom := room _ (List.prefix_refl _)
  rw [run_append] at hroom
  rw [hstep]
  cases on : rl.enabled with
  | true =>
    rw [List.map_append, List.pairwise_append] at clock
    obtain ⟨last, hfollows, hlast⟩ :=
      run_follows on clock.1 fun pre hp => room pre (hp.trans (List.prefix_append _ _))
    have hnow : last ≤ c.now := by
      refine hlast c.now fun e' he => ?_
      exact clock.2.2 _ (List.mem_map_of_mem he) _ (List.mem_singleton.mpr rfl)
    rw [(checkScaled_follows on (run_rules rl es) hfollows hnow hroom).1]
  | false =>
    have hoff : (run rl es).limiter.enabled = false := by rw [run_rules]; exact on
    rw [checkScaled, answer, hoff, on]
    rfl

/-- The answers to a client are those of a limiter that it has for itself. -/
lemma log_of_client (clock : (es.map Event.now).Pairwise (· ≤ ·))
    (room : ∀ pre, pre <+: es → (run rl pre).limiter.counters.size ≤ maxKeys) :
    ofClient a (run rl es).log
      = rl.alone ((es.filterMap Event.call).filter fun c => c.ip == a) := by
  induction es using List.reverseRecOn with
  | nil => rfl
  | append_singleton es e ih =>
    have ih := ih (List.pairwise_append.mp (List.map_append ▸ clock)).1
      fun pre hp => room pre (hp.trans (List.prefix_append _ _))
    cases e with
    | gc now =>
      rw [List.filterMap_append, run_append]
      show ofClient a (run rl es).log = rl.alone ((es.filterMap Event.call ++ []).filter _)
      rw [List.append_nil, ih]
    | check c =>
      have hcall : [Event.check c].filterMap Event.call = [c] := rfl
      rw [log_append clock room, ofClient, List.filter_append, List.filterMap_append, hcall,
        List.filter_append]
      show ofClient a (run rl es).log ++ _ = _
      by_cases hip : c.ip = a
      case pos =>
        subst hip
        rw [List.filter_singleton, List.filter_singleton, beq_self_eq_true c.ip,
          cond_true, cond_true, ← answer_ofClient, ih, alone, alone, List.foldl_concat]
      case neg =>
        have hne : (c.ip == a) = false := beq_eq_false_iff_ne.mpr hip
        rw [List.filter_singleton, List.filter_singleton, hne, cond_false, cond_false,
          List.append_nil, List.append_nil, ih]

/-- Two runs with the same calls of a client have the same answers to it. What a route counts for a
client are the calls of which it is the first route, and what the scope of all paths counts are the
calls that their route did not refuse. -/
theorem clients_isolated (clock : (es.map Event.now).Pairwise (· ≤ ·))
    (clock' : (es'.map Event.now).Pairwise (· ≤ ·))
    (room : ∀ pre, pre <+: es → (run rl pre).limiter.counters.size ≤ maxKeys)
    (room' : ∀ pre, pre <+: es' → (run rl pre).limiter.counters.size ≤ maxKeys)
    (same : (es.filterMap Event.call).filter (fun c => c.ip == a)
      = (es'.filterMap Event.call).filter fun c => c.ip == a) :
    ofClient a (run rl es).log = ofClient a (run rl es').log
      ∧ (rl.enabled = true → ∀ now, (∀ e ∈ es, e.now ≤ now) →
        (∀ idx, ((run rl es).limiter.bump (routeKey idx a) now).1
          = ((rl.tally (routeKey idx a) (timesOf (run rl es).log
            fun o => o.1.ip == a && routeOf rl o.1 == some idx)).hit now).1)
        ∧ ((run rl es).limiter.bump (globalKey a) now).1
          = ((rl.tally (globalKey a) (timesOf (run rl es).log
            fun o => o.1.ip == a && reachedGlobal o.2)).hit now).1) := by
  constructor
  · rw [log_of_client clock room, log_of_client clock' room', same]
  · intro on now hnow
    obtain ⟨last, hfollows, hlast⟩ := run_follows on clock room
    have hroom := room es (List.prefix_refl es)
    constructor
    · intro idx
      rw [← hits_route]
      exact (bump_follows _ hfollows (hlast now hnow) hroom).1
    · rw [← hits_global]
      exact (bump_follows _ hfollows (hlast now hnow) hroom).1

/-- The events of another client, between those of a client that logs in twice. -/
def crowdedEvents : List Event :=
  [.check ⟨4, "10.0.0.9", "/login", 10000⟩, .check ⟨5, "10.0.0.7", "/login", 10000⟩,
    .check ⟨6, "10.0.0.9", "/login", 10000⟩, .check ⟨12, "10.0.0.7", "/login", 10000⟩,
    .check ⟨33, "10.0.0.7", "/", 7500⟩, .gc 40]

/-- One client alone, and among others. -/
theorem crowd_isolated :
    ofClient "10.0.0.7" (run loginLimiter loginEvents).log
      = ofClient "10.0.0.7" (run loginLimiter crowdedEvents).log := by
  have room : ∀ es ∈ loginEvents.inits,
      (run loginLimiter es).limiter.counters.size ≤ maxKeys := by decide
  have room' : ∀ es ∈ crowdedEvents.inits,
      (run loginLimiter es).limiter.counters.size ≤ maxKeys := by decide
  have same : (loginEvents.filterMap Event.call).filter (fun c => c.ip == ("10.0.0.7" : Str))
      = (crowdedEvents.filterMap Event.call).filter fun c => c.ip == ("10.0.0.7" : Str) := by
    simp [loginEvents, crowdedEvents, Event.call, List.filterMap_cons]
  exact (clients_isolated (by decide) (by decide)
    (fun pre hp => room pre ((List.mem_inits _ _).mpr hp))
    (fun pre hp => room' pre ((List.mem_inits _ _).mpr hp)) same).1

end RateLimiter

end Waf
