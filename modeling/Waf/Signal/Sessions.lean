import Waf.Lib.Bounded
import Waf.Lib.Sweep
import Waf.Signal.Tracker

/-!
# Sessions of an address

The behaviour of an address is what its state counts, and the state counts all requests since the
address was last idle for a whole window: its `session`. A session can be of any length, and so can
the time it takes. What a session is made of decides which rules fire (`fires_iff`); requests of other
addresses and sweeps have no part in it (`observe_session`). So two histories get the same rules iff the
rules agree on their sessions (`rules_agree_iff`), which they need not when the sessions began before the
window.
-/

namespace Waf
open Lib

namespace Behavior

/-- A request of an address. -/
structure Visit where
  path : Str
  method : Str
  ua : Str
  ms : Nat
  deriving DecidableEq

def Visit.secs (v : Visit) : Nat := v.ms / 1000

def State.visit (s : State) (v : Visit) : State := s.update v.path v.method v.ua v.ms

/-- The state after the requests of an address. -/
def track (visits : List Visit) : State := visits.foldl State.visit {}

/-- The second of the last request. -/
def lastSecs (ses : List Visit) : Nat := (ses.getLast?.map Visit.secs).getD 0

/-- A request after an idle window begins a new session. -/
def extend (ses : List Visit) (v : Visit) : List Visit :=
  if WINDOW_SECS < v.secs - lastSecs ses then [v] else ses ++ [v]

/-- The requests since the address was last idle for a whole window. -/
def session (visits : List Visit) : List Visit := visits.foldl extend []

/-- What is recorded for a request: the time since the beginning of the second of the one before. -/
def interval (p : Visit × Visit) : Nat := (p.2.ms - p.1.secs * 1000) % 2 ^ 32

/-- The intervals of a session. After a request in second 0 none is recorded. -/
def recorded (ses : List Visit) : List Nat :=
  ((pairs ses).filter fun p => p.1.secs ≠ 0).map interval

def pathHashes (ses : List Visit) : List UInt64 := ses.map fun v => fnv64 (utf8 v.path)

/-- The hashes of the user agents that are not empty. -/
def uaHashes (ses : List Visit) : List UInt64 :=
  (ses.filter fun v => !v.ua.isEmpty).map fun v => fnv64 (utf8 v.ua)

def methodCount (m : Method) (ses : List Visit) : Nat := ses.countP fun v => methodIndex v.method = m

/-- A state counts the requests of a session. -/
structure Stands (s : State) (ses : List Visit) : Prop where
  lastSeen : s.lastSeen = lastSecs ses
  count : s.requestCount = min ses.length u32Max
  paths : Capped PATHS_CAP s.paths (pathHashes ses)
  intervals : s.intervals = (recorded ses).rtake INTERVAL_CAP
  methods : ∀ m, s.methods m = min (methodCount m ses) u32Max
  uas : Capped UA_CAP s.uas (uaHashes ses)

variable {s : State} {ses visits : List Visit} {v : Visit} {t : BehaviorTracker} {ip addr : IpAddr}
  {clock now : Nat}

/-! ## The state of a session -/

lemma lastSecs_concat : lastSecs (ses ++ [v]) = v.secs := by
  rw [lastSecs, List.getLast?_concat]
  rfl

lemma recorded_concat : recorded (ses ++ [v])
    = if lastSecs ses = 0 then recorded ses
      else recorded ses ++ [(v.ms - lastSecs ses * 1000) % 2 ^ 32] := by
  cases ses using List.reverseRecOn with
  | nil => rfl
  | append_singleton ses u =>
    rw [recorded, pairs_concat, List.filter_append, List.map_append, lastSecs_concat, ← recorded]
    by_cases hzero : u.secs = 0
    case pos =>
      have hnone : [(u, v)].filter (fun p => decide (p.1.secs ≠ 0)) = [] :=
        List.filter_cons_of_neg fun h => of_decide_eq_true h hzero
      rw [hnone, if_pos hzero]
      exact List.append_nil _
    case neg =>
      have hone : [(u, v)].filter (fun p => decide (p.1.secs ≠ 0)) = [(u, v)] :=
        List.filter_cons_of_pos (decide_eq_true hzero)
      rw [hone, if_neg hzero]
      rfl

/-- One more request without a reset. -/
def State.push (s : State) (v : Visit) : State where
  firstSeen := if s.firstSeen = 0 then v.secs else s.firstSeen
  lastSeen := v.secs
  requestCount := satAdd32 s.requestCount 1
  paths := insertCapped PATHS_CAP s.paths (fnv64 (utf8 v.path))
  intervals := if s.lastSeen = 0 then s.intervals
    else pushCapped INTERVAL_CAP s.intervals ((v.ms - s.lastSeen * 1000) % 2 ^ 32)
  methods := Function.update s.methods (methodIndex v.method)
    (satAdd32 (s.methods (methodIndex v.method)) 1)
  uas := if v.ua.isEmpty then s.uas else insertCapped UA_CAP s.uas (fnv64 (utf8 v.ua))

/-- A visit is added to the session or begins one. -/
lemma visit_eq_push :
    s.visit v = (if WINDOW_SECS < v.secs - s.lastSeen then ({} : State) else s).push v := rfl

lemma stands_empty : Stands {} [] where
  lastSeen := rfl
  count := rfl
  paths := .nil
  intervals := rfl
  methods _ := rfl
  uas := .nil

/-- A visit that is added stands for the longer session. -/
lemma stands_push (h : Stands s ses) : Stands (s.push v) (ses ++ [v]) where
  lastSeen := lastSecs_concat.symm
  count := by
    show satAdd32 s.requestCount 1 = _
    rw [satAdd32, h.count, List.length_append, List.length_singleton]
    omega
  paths := by
    rw [pathHashes, List.map_append]
    exact h.paths.insert (by decide) _
  intervals := by
    show (if s.lastSeen = 0 then s.intervals else _) = _
    rw [recorded_concat, h.lastSeen, h.intervals]
    split
    case isTrue => rfl
    case isFalse => exact pushCapped_rtake (by decide)
  methods m := by
    show Function.update s.methods _ _ m = _
    rw [methodCount, List.countP_append, List.countP_singleton, ← methodCount]
    by_cases hm : methodIndex v.method = m
    case pos =>
      rw [hm, Function.update_self, h.methods, decide_eq_true rfl, if_pos rfl, satAdd32]
      omega
    case neg =>
      rw [Function.update_of_ne (Ne.symm hm), h.methods, decide_eq_false hm, if_neg Bool.false_ne_true,
        Nat.add_zero]
  uas := by
    show Capped UA_CAP (if v.ua.isEmpty then s.uas else _) _
    rw [uaHashes, List.filter_append, List.map_append, ← uaHashes]
    cases hua : v.ua.isEmpty with
    | true =>
      rw [List.filter_cons_of_neg (by rw [hua]; decide), List.filter_nil, List.map_nil,
        List.append_nil]
      exact h.uas
    | false =>
      rw [List.filter_cons_of_pos (by rw [hua]; rfl)]
      exact h.uas.insert (by decide) _

/-- A visit stands for the session it extends. -/
lemma stands_visit (h : Stands s ses) : Stands (s.visit v) (extend ses v) := by
  rw [visit_eq_push, extend, h.lastSeen]
  split
  case isTrue => exact stands_push stands_empty
  case isFalse => exact stands_push h

lemma track_concat : track (visits ++ [v]) = (track visits).visit v := List.foldl_concat ..

lemma session_concat : session (visits ++ [v]) = extend (session visits) v := List.foldl_concat ..

/-- The state of an address counts its session. -/
lemma track_stands : Stands (track visits) (session visits) := by
  induction visits using List.reverseRecOn with
  | nil => exact stands_empty
  | append_singleton visits v ih =>
    rw [track_concat, session_concat]
    exact stands_visit ih

/-! ## Other addresses and sweeps -/

namespace BehaviorTracker

def see (t : BehaviorTracker) (e : IpAddr × Visit) : BehaviorTracker :=
  (t.observe e.1 e.2.path e.2.method e.2.ua e.2.ms).2

/-- The tracker after a run of requests of any addresses. -/
def after (t : BehaviorTracker) (seen : List (IpAddr × Visit)) : BehaviorTracker := seen.foldl see t

/-- The reasons for one more request. -/
def reasons (t : BehaviorTracker) (ip : IpAddr) (v : Visit) : List DecisionReason :=
  (t.observe ip v.path v.method v.ua v.ms).1

/-- The state of an address, a new one when there is none. -/
def entry (t : BehaviorTracker) (ip : IpAddr) : State := (t.byIp.lookup ip).getD {}

/-- The sweep before an observation. -/
def swept (t : BehaviorTracker) (now : Nat) : BehaviorTracker :=
  if 30 < now - t.lastGc then { t.gc now with lastGc := now } else t

/-- A visit changes the entry of its own address. -/
lemma see_entry : (t.see (addr, v)).entry ip
    = if ip = addr then ((t.swept v.secs).entry ip).visit v else (t.swept v.secs).entry ip := by
  have hsee : (t.see (addr, v)).byIp
      = (t.swept v.secs).byIp.insert addr (((t.swept v.secs).entry addr).visit v) := rfl
  rw [entry, hsee, HashMap.lookup_insert]
  split
  case isTrue h =>
    subst h
    rfl
  case isFalse => rfl

end BehaviorTracker

open BehaviorTracker

/-- The requests of one address. -/
def visitsOf (ip : IpAddr) (seen : List (IpAddr × Visit)) : List Visit := inputsOf ip seen

/-- The times of a run do not decrease. -/
def Clocked (seen : List (IpAddr × Visit)) : Prop := (seen.map fun e => e.2.ms).Pairwise (· ≤ ·)

/-- A sweep drops the state of an address that was idle for two windows. -/
lemma swept_entry : (t.swept now).entry ip = t.entry ip
    ∨ ((t.swept now).entry ip = {} ∧ WINDOW_SECS < now - (t.entry ip).lastSeen) := by
  rw [swept]
  split
  case isFalse => exact .inl rfl
  case isTrue =>
    have hlookup : (t.gc now).byIp.lookup ip
        = (t.byIp.lookup ip).filter fun s => now - s.lastSeen ≤ WINDOW_SECS * 2 := HashMap.lookup_retain
    rw [BehaviorTracker.entry, hlookup, BehaviorTracker.entry]
    cases t.byIp.lookup ip with
    | none => exact .inl rfl
    | some s =>
      rw [Option.filter_some, Option.getD_some]
      by_cases hkeep : now - s.lastSeen ≤ WINDOW_SECS * 2
      case pos =>
        rw [decide_eq_true hkeep, if_pos rfl]
        exact .inl rfl
      case neg =>
        have hwindow : WINDOW_SECS = 60 := rfl
        rw [decide_eq_false hkeep, if_neg Bool.false_ne_true]
        exact .inr ⟨rfl, by omega⟩

/-- The states of the addresses. One that is dropped is as good as after an idle window. -/
def states : SweptTable BehaviorTracker IpAddr Visit State where
  entry := entry
  sweep := swept
  see := see
  fresh := {}
  time := Visit.secs
  step := State.visit
  Stale s now := WINDOW_SECS < now - s.lastSeen
  stale_mono hidle hnow := by omega
  stale_step hidle := by rw [visit_eq_push, visit_eq_push, ite_self, if_pos hidle]
  entry_sweep _ _ _ := swept_entry
  entry_see _ _ _ _ := see_entry

/-- Later milliseconds are no earlier seconds. -/
lemma secs_le_secs {u : Visit} (h : u.ms ≤ v.ms) : u.secs ≤ v.secs := Nat.div_le_div_right h

lemma visitsOf_concat {seen : List (IpAddr × Visit)} :
    visitsOf ip (seen ++ [(ip, v)]) = visitsOf ip seen ++ [v] := by
  rw [visitsOf, inputsOf_concat, if_pos rfl, visitsOf]

/-- The reasons for a request are those for the state of its session. -/
lemma observe_session {seen : List (IpAddr × Visit)} (h : Clocked (seen ++ [(ip, v)])) :
    (after {} seen).reasons ip v = (track (visitsOf ip seen ++ [v])).score
      ∧ ((after {} seen).see (ip, v)).entry ip = track (visitsOf ip seen ++ [v]) := by
  have hclocked : states.Clocked (seen ++ [(ip, v)]) := by
    refine List.pairwise_map.mpr ((List.pairwise_map.mp h).imp ?_)
    exact fun hle => secs_le_secs hle
  obtain ⟨hstep, hentry⟩ := SweptTable.step_run (M := states) (t := {}) (k := ip) rfl hclocked
  rw [← visitsOf_concat]
  exact ⟨congrArg State.score hstep, hentry⟩

/-! ## The rules of a session -/

inductive Rule where
  | lowDiversity
  | regular
  | methodBias
  | uaChurn

def Rule.id : Rule → Str
  | lowDiversity => "BHV-LOWDIV"
  | regular => "BHV-REGULAR"
  | methodBias => "BHV-METHOD-BIAS"
  | uaChurn => "BHV-UA-CHURN"

/-- The last intervals of a session. -/
def lastIntervals (ses : List Visit) : List Nat := (recorded ses).rtake INTERVAL_CAP

/-- The share of OPTIONS and HEAD requests, which are counted in 32 bits. -/
def optionsShare (ses : List Visit) : Float32 :=
  asF32 ((min (methodCount .options ses) u32Max + min (methodCount .head ses) u32Max) % 2 ^ 32)
    / asF32 (min ses.length u32Max)

/-- What a rule says about a session. -/
def Rule.Fires (ses : List Visit) : Rule → Prop
  | lowDiversity => 30 ≤ ses.length ∧ (pathHashes ses).toFinset.card < 3
  | regular => 8 ≤ (lastIntervals ses).length ∧ 5.0 < (regularity (lastIntervals ses)).1
    ∧ (regularity (lastIntervals ses)).2 < 0.15 ∧ 15 ≤ ses.length
  | methodBias => 25 ≤ ses.length ∧ 0.9 ≤ optionsShare ses
  | uaChurn => 3 ≤ (uaHashes ses).toFinset.card

/-- The same rules have fired. -/
def SameRules (ds ds' : List DecisionReason) : Prop :=
  ∀ id, id ∈ ds.map DecisionReason.ruleId ↔ id ∈ ds'.map DecisionReason.ruleId

lemma Rule.id_injective {r r' : Rule} (h : r.id = r'.id) : r = r' := by
  cases r <;> cases r' <;> first | rfl | exact absurd h (by decide)

lemma mem_map_fire {id : Str} {cond : Bool} {d : DecisionReason} :
    id ∈ (fire cond d).map DecisionReason.ruleId ↔ id = d.ruleId ∧ cond = true := by
  rw [fire]
  cases cond with
  | true => simp
  | false => simp

/-- The rules that fire are those that hold of the session. -/
lemma mem_score (h : Stands s ses) {id : Str} :
    id ∈ s.score.map DecisionReason.ruleId ↔ ∃ r : Rule, id = r.id ∧ r.Fires ses := by
  have hcount : ∀ n, n ≤ u32Max → (n ≤ s.requestCount ↔ n ≤ ses.length) := by
    intro n hn
    rw [h.count]
    omega
  have hlow : (decide (30 ≤ s.requestCount) && decide (s.paths.length < 3)) = true
      ↔ Rule.lowDiversity.Fires ses := by
    rw [Bool.and_eq_true, decide_eq_true_iff, decide_eq_true_iff, hcount 30 (by decide),
      h.paths.length]
    have hcap : PATHS_CAP = 32 := rfl
    refine and_congr_right fun _ => ?_
    omega
  have hregular : (decide (8 ≤ s.intervals.length) && decide (5.0 < (regularity s.intervals).1)
        && decide ((regularity s.intervals).2 < 0.15) && decide (15 ≤ s.requestCount)) = true
      ↔ Rule.regular.Fires ses := by
    rw [Bool.and_eq_true, Bool.and_eq_true, Bool.and_eq_true, decide_eq_true_iff, decide_eq_true_iff,
      decide_eq_true_iff, decide_eq_true_iff, hcount 15 (by decide), h.intervals, and_assoc, and_assoc]
    exact Iff.rfl
  have hbias : (decide (25 ≤ s.requestCount)
        && decide (0.9 ≤ asF32 ((s.methods .options + s.methods .head) % 2 ^ 32)
          / asF32 s.requestCount)) = true
      ↔ Rule.methodBias.Fires ses := by
    rw [Bool.and_eq_true, decide_eq_true_iff, decide_eq_true_iff, hcount 25 (by decide), h.methods,
      h.methods, h.count]
    exact Iff.rfl
  have hchurn : decide (3 ≤ s.uas.length) = true ↔ Rule.uaChurn.Fires ses := by
    rw [decide_eq_true_iff, h.uas.length]
    have hcap : UA_CAP = 4 := rfl
    show _ ↔ 3 ≤ (uaHashes ses).toFinset.card
    omega
  rw [State.score]
  simp only [List.map_append, List.mem_append, mem_map_fire]
  rw [hlow, hregular, hbias, hchurn]
  constructor
  · rintro (((⟨rfl, hf⟩ | ⟨rfl, hf⟩) | ⟨rfl, hf⟩) | ⟨rfl, hf⟩)
    · exact ⟨.lowDiversity, rfl, hf⟩
    · exact ⟨.regular, rfl, hf⟩
    · exact ⟨.methodBias, rfl, hf⟩
    · exact ⟨.uaChurn, rfl, hf⟩
  · rintro ⟨r, rfl, hf⟩
    cases r with
    | lowDiversity => exact .inl (.inl (.inl ⟨rfl, hf⟩))
    | regular => exact .inl (.inl (.inr ⟨rfl, hf⟩))
    | methodBias => exact .inl (.inr ⟨rfl, hf⟩)
    | uaChurn => exact .inr ⟨rfl, hf⟩

/-- A rule fires for a request iff it holds of the session that the request is the last one of. -/
lemma mem_reasons {seen : List (IpAddr × Visit)} (h : Clocked (seen ++ [(ip, v)])) {id : Str} :
    id ∈ ((after {} seen).reasons ip v).map DecisionReason.ruleId
      ↔ ∃ r : Rule, id = r.id ∧ r.Fires (session (visitsOf ip seen ++ [v])) := by
  rw [(observe_session h).1]
  exact mem_score track_stands

/-- A rule is among the reasons iff it fires on the session. -/
lemma fires_iff {seen : List (IpAddr × Visit)} (h : Clocked (seen ++ [(ip, v)])) (r : Rule) :
    r.id ∈ ((after {} seen).reasons ip v).map DecisionReason.ruleId
      ↔ r.Fires (session (visitsOf ip seen ++ [v])) := by
  rw [mem_reasons h]
  constructor
  · rintro ⟨r', hid, hf⟩
    exact Rule.id_injective hid ▸ hf
  · exact fun hf => ⟨r, rfl, hf⟩

/-! ## Sessions and windows -/

/-- The requests of the last `WINDOW_SECS` seconds before a request, that one included. -/
def window (visits : List Visit) (v : Visit) : List Visit :=
  (visits ++ [v]).filter fun u => v.ms ≤ u.ms + WINDOW_SECS * 1000

lemma session_ne_nil : session (visits ++ [v]) ≠ [] := by
  rw [session_concat, extend]
  split
  case isTrue => exact List.cons_ne_nil v []
  case isFalse => exact List.append_ne_nil_of_right_ne_nil _ (List.cons_ne_nil v [])

/-- The last second of a session is that of its last visit. -/
lemma lastSecs_session : lastSecs (session (visits ++ [v])) = v.secs := by
  rw [session_concat, extend]
  split
  case isTrue => rfl
  case isFalse => exact lastSecs_concat

/-- The last request is the latest one. -/
lemma secs_le_last (h : ((visits ++ [v]).map Visit.ms).Pairwise (· ≤ ·)) :
    ∀ u ∈ visits ++ [v], u.secs ≤ v.secs := by
  intro u hu
  rw [List.map_append] at h
  rcases List.mem_append.mp hu with hu | hu
  · exact secs_le_secs ((List.pairwise_append.mp h).2.2 u.ms (List.mem_map_of_mem hu) v.ms (.head _))
  · rw [List.mem_singleton.mp hu]

/-- A session is the end of a history, a whole idle window after the rest. -/
lemma session_split (h : (visits.map Visit.ms).Pairwise (· ≤ ·)) :
    ∃ older, visits = older ++ session visits
      ∧ ∀ u ∈ older, ∀ w ∈ session visits, WINDOW_SECS < w.secs - u.secs := by
  induction visits using List.reverseRecOn with
  | nil => exact ⟨[], rfl, fun u hu => by cases hu⟩
  | append_singleton visits v ih =>
    have hle : ∀ u ∈ visits, u.secs ≤ v.secs := fun u hu => secs_le_last h u (List.mem_append_left _ hu)
    have hvisits : (visits.map Visit.ms).Pairwise (· ≤ ·) :=
      h.sublist (List.Sublist.map _ (List.sublist_append_left visits [v]))
    obtain ⟨older, hsplit, hidle⟩ := ih hvisits
    rw [session_concat, extend]
    split
    case isTrue hgap =>
      refine ⟨visits, rfl, fun u hu w hw => ?_⟩
      rw [List.mem_singleton.mp hw]
      cases visits using List.reverseRecOn with
      | nil => cases hu
      | append_singleton visits v' =>
        rw [lastSecs_session] at hgap
        have hv' := secs_le_last hvisits u hu
        omega
    case isFalse =>
      refine ⟨older, ?_, fun u hu w hw => ?_⟩
      · rw [← List.append_assoc, ← hsplit]
      · rcases List.mem_append.mp hw with hw | hw
        · exact hidle u hu w hw
        · rw [List.mem_singleton.mp hw]
          have hmem : u ∈ visits := by
            rw [hsplit]
            exact List.mem_append_left _ hu
          have hne : session visits ≠ [] := by
            cases visits using List.reverseRecOn with
            | nil => cases hmem
            | append_singleton visits v' => exact session_ne_nil
          obtain ⟨w', hw'⟩ := List.exists_mem_of_ne_nil _ hne
          have hgap := hidle u hu w' hw'
          have hw'mem : w' ∈ visits := by
            rw [hsplit]
            exact List.mem_append_right _ hw'
          have hlater := hle w' hw'mem
          omega

/-- No request of the window is missing in the session. -/
lemma window_eq (h : ((visits ++ [v]).map Visit.ms).Pairwise (· ≤ ·)) :
    window visits v = (session (visits ++ [v])).filter fun u => v.ms ≤ u.ms + WINDOW_SECS * 1000 := by
  obtain ⟨older, hsplit, hidle⟩ := session_split h
  have hmem : v ∈ session (visits ++ [v]) := by
    rw [session_concat, extend]
    split
    case isTrue => exact .head _
    case isFalse => exact List.mem_append_right _ (.head _)
  have hnone : older.filter (fun u => decide (v.ms ≤ u.ms + WINDOW_SECS * 1000)) = [] := by
    refine List.filter_eq_nil_iff.mpr fun u hu => ?_
    have hgap := hidle u hu v hmem
    rw [Visit.secs, Visit.secs, show WINDOW_SECS = 60 from rfl] at hgap
    rw [decide_eq_true_iff, show WINDOW_SECS = 60 from rfl]
    omega
  calc window visits v
      = (older ++ session (visits ++ [v])).filter fun u => v.ms ≤ u.ms + WINDOW_SECS * 1000 :=
        congrArg (List.filter fun u : Visit => v.ms ≤ u.ms + WINDOW_SECS * 1000) hsplit
    _ = (older.filter fun u => v.ms ≤ u.ms + WINDOW_SECS * 1000)
          ++ (session (visits ++ [v])).filter fun u => v.ms ≤ u.ms + WINDOW_SECS * 1000 :=
        List.filter_append ..
    _ = _ := by rw [hnone, List.nil_append]

/-- No request of the session is older than the window. -/
def Recent (visits : List Visit) (v : Visit) : Prop :=
  ∀ u ∈ session (visits ++ [v]), v.ms ≤ u.ms + WINDOW_SECS * 1000

/-- A session without older requests is the window. -/
lemma session_of_recent (h : ((visits ++ [v]).map Visit.ms).Pairwise (· ≤ ·))
    (hrecent : Recent visits v) : session (visits ++ [v]) = window visits v := by
  rw [window_eq h]
  exact (List.filter_eq_self.mpr fun u hu => decide_eq_true (hrecent u hu)).symm

/-- The visits of an address are on the clock. -/
lemma Clocked.visitsOf {seen : List (IpAddr × Visit)} (h : Clocked seen) :
    ((visitsOf ip seen).map Visit.ms).Pairwise (· ≤ ·) := by
  rw [Behavior.visitsOf, inputsOf, List.map_map]
  exact List.Pairwise.sublist (List.Sublist.map _ List.filter_sublist) h

lemma Clocked.own {seen : List (IpAddr × Visit)} (h : Clocked (seen ++ [(ip, v)])) :
    ((Behavior.visitsOf ip seen ++ [v]).map Visit.ms).Pairwise (· ≤ ·) := by
  have hvisits : ((Behavior.visitsOf ip (seen ++ [(ip, v)])).map Visit.ms).Pairwise (· ≤ ·) :=
    h.visitsOf
  rwa [visitsOf_concat] at hvisits

/-- Two histories get the same rules for a request iff each rule says the same of both sessions. So they
do if they agree on the window and neither session has older requests. -/
theorem rules_agree_iff {seen seen' : List (IpAddr × Visit)} (h : Clocked (seen ++ [(ip, v)]))
    (h' : Clocked (seen' ++ [(ip, v)])) :
    (SameRules ((after {} seen).reasons ip v) ((after {} seen').reasons ip v)
        ↔ ∀ r : Rule, r.Fires (session (visitsOf ip seen ++ [v]))
          ↔ r.Fires (session (visitsOf ip seen' ++ [v])))
      ∧ (window (visitsOf ip seen) v = window (visitsOf ip seen') v →
        Recent (visitsOf ip seen) v → Recent (visitsOf ip seen') v →
        SameRules ((after {} seen).reasons ip v) ((after {} seen').reasons ip v)) := by
  have hiff : SameRules ((after {} seen).reasons ip v) ((after {} seen').reasons ip v)
      ↔ ∀ r : Rule, r.Fires (session (visitsOf ip seen ++ [v]))
        ↔ r.Fires (session (visitsOf ip seen' ++ [v])) := by
    constructor
    · intro hsame r
      rw [← fires_iff h, ← fires_iff h']
      exact hsame r.id
    · intro hrules id
      rw [mem_reasons h, mem_reasons h']
      exact exists_congr fun r => and_congr_right fun _ => hrules r
  refine ⟨hiff, fun hwindow hrecent hrecent' => hiff.mpr fun r => ?_⟩
  rw [session_of_recent h.own hrecent, session_of_recent h'.own hrecent', hwindow]

/-- A page that one address asks for with two user agents, half a minute later with a third one, and
after another half a minute with that one again. -/
def agentsVisits : List Visit :=
  [⟨"/", "GET", "a", 39000⟩, ⟨"/", "GET", "b", 39500⟩, ⟨"/", "GET", "c", 70000⟩]

def agentsLast : Visit := ⟨"/", "GET", "c", 100000⟩

def agentsIp : IpAddr := .v4 (.new 1 2 3 4)

/-- Four user agents, with and without the first two visits. -/
theorem agents_rules_iff :
    SameRules ((after {} (agentsVisits.map (agentsIp, ·))).reasons agentsIp agentsLast)
        ((after {} ((agentsVisits.drop 2).map (agentsIp, ·))).reasons agentsIp agentsLast)
      ↔ ∀ r : Rule,
        r.Fires (session (visitsOf agentsIp (agentsVisits.map (agentsIp, ·)) ++ [agentsLast]))
          ↔ r.Fires (session
            (visitsOf agentsIp ((agentsVisits.drop 2).map (agentsIp, ·)) ++ [agentsLast])) :=
  (rules_agree_iff (by unfold Clocked; decide) (by unfold Clocked; decide)).1

/-- Three user agents, of which the window has one. -/
theorem old_agents_count : ¬ ∀ (ip : IpAddr) (v : Visit) (seen seen' : List (IpAddr × Visit)),
    Clocked (seen ++ [(ip, v)]) → Clocked (seen' ++ [(ip, v)]) →
    window (visitsOf ip seen) v = window (visitsOf ip seen') v →
    SameRules ((after {} seen).reasons ip v) ((after {} seen').reasons ip v) := by
  intro h
  have hclock : Clocked (agentsVisits.map (agentsIp, ·) ++ [(agentsIp, agentsLast)])
      ∧ Clocked ((agentsVisits.drop 2).map (agentsIp, ·) ++ [(agentsIp, agentsLast)]) :=
    ⟨by unfold Clocked; decide, by unfold Clocked; decide⟩
  have hsame := h agentsIp agentsLast _ _ hclock.1 hclock.2 (by decide) Rule.uaChurn.id
  rw [fires_iff hclock.1, fires_iff hclock.2] at hsame
  have hold : Rule.uaChurn.Fires
      (session (visitsOf agentsIp (agentsVisits.map (agentsIp, ·)) ++ [agentsLast])) := by
    unfold Rule.Fires
    decide
  have hnew : ¬ Rule.uaChurn.Fires
      (session (visitsOf agentsIp ((agentsVisits.drop 2).map (agentsIp, ·)) ++ [agentsLast])) := by
    unfold Rule.Fires
    decide
  exact hnew (hsame.mp hold)

end Behavior

end Waf
