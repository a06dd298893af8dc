import Waf.Lib.Sweep
import Waf.Signal.Tracker

/-!
# Replay floods

The replay detector keeps one signature for each address and counts it for as long as nothing else
comes: a request of another signature, or one more than `REPLAY_WINDOW_SECS` after the first, starts a
new count. What it counts is a `Streak` of the requests of the address. So it fires on a request iff
that completes a streak of `REPLAY_THRESHOLD` (`fires_iff`), and a flood passes iff no streak of that
length ends on it (`flood_caught_iff`). A decoy after each request ends every streak.
-/

namespace Waf
open Lib

namespace Signature

/-- A request of an address. -/
structure Request where
  method : Str
  path : Str
  ua : Str
  secs : Nat
  deriving DecidableEq

def Request.hash (q : Request) : UInt64 := sigHash q.method q.path q.ua

/-- The requests of one signature that have been counted, and the time from which on. -/
structure Streak where
  requests : List Request := []
  start : Nat := 0

/-- The signature of the last request, zero when there is none. -/
def Streak.hash (st : Streak) : UInt64 := (st.requests.getLast?.map Request.hash).getD 0

/-- A request of another signature, or one after the window, starts a new streak. -/
def Streak.next (st : Streak) (q : Request) : Streak :=
  if st.hash ≠ q.hash ∨ REPLAY_WINDOW_SECS < q.secs - st.start then ⟨[q], q.secs⟩
  else { st with requests := st.requests ++ [q] }

/-- The streak at the end of the requests of an address. -/
def streak (requests : List Request) : Streak := requests.foldl Streak.next {}

namespace RequestReplay

def see (t : RequestReplay) (e : IpAddr × Request) : RequestReplay :=
  (t.observe e.1 e.2.method e.2.path e.2.ua e.2.secs).2

/-- The detector after a run of requests of any addresses. -/
def after (t : RequestReplay) (seen : List (IpAddr × Request)) : RequestReplay := seen.foldl see t

def reasons (t : RequestReplay) (ip : IpAddr) (q : Request) : List DecisionReason :=
  (t.observe ip q.method q.path q.ua q.secs).1

/-- The state of an address, a new one when there is none. -/
def entry (t : RequestReplay) (ip : IpAddr) : ReplayState := (t.byIp.lookup ip).getD {}

end RequestReplay

/-- The state after a request. -/
def ReplayState.observe (s : ReplayState) (q : Request) : ReplayState :=
  if s.lastHash ≠ q.hash ∨ REPLAY_WINDOW_SECS < q.secs - s.firstSecs then ⟨q.hash, 1, q.secs⟩
  else { s with count := satAdd32 s.count 1 }

open RequestReplay

variable {t : RequestReplay} {ip addr : IpAddr} {q : Request} {s : ReplayState} {st : Streak} {now : Nat}
  {seen : List (IpAddr × Request)} {requests : List Request}

/-! ## One request -/

/-- An observation is one of the state of its address. -/
lemma observe_eq (h : (t.maybeGc q.secs).entry ip = s) :
    t.observe ip q.method q.path q.ua q.secs
      = (fire (REPLAY_THRESHOLD ≤ (s.observe q).count)
          ⟨"REPLAY", "ddos", W_REPLAY, dec (s.observe q).count ++ " repeats of same signature in "
            ++ dec REPLAY_WINDOW_SECS ++ "s"⟩,
        { t.maybeGc q.secs with byIp := (t.maybeGc q.secs).byIp.insert ip (s.observe q) }) := by
  subst h
  rw [ReplayState.observe]
  by_cases hnew : ((t.maybeGc q.secs).entry ip).lastHash ≠ q.hash
      ∨ REPLAY_WINDOW_SECS < q.secs - ((t.maybeGc q.secs).entry ip).firstSecs
  case pos =>
    rw [if_pos hnew]
    exact if_pos hnew
  case neg =>
    rw [if_neg hnew]
    exact if_neg hnew

/-- A request changes the entry of its own address. -/
lemma see_entry : (t.see (addr, q)).entry ip
    = if ip = addr then ((t.maybeGc q.secs).entry ip).observe q else (t.maybeGc q.secs).entry ip := by
  rw [see, observe_eq rfl, entry, HashMap.lookup_insert]
  split
  case isTrue h =>
    subst h
    rfl
  case isFalse => rfl

/-- The detector fires iff the count of the address has reached the threshold. -/
lemma reasons_ne_nil : t.reasons ip q ≠ []
    ↔ REPLAY_THRESHOLD ≤ (((t.maybeGc q.secs).entry ip).observe q).count := by
  rw [reasons, observe_eq rfl, fire]
  split
  case isTrue h => exact iff_of_true (List.cons_ne_nil _ _) (of_decide_eq_true h)
  case isFalse h => exact iff_of_false (fun hnil => hnil rfl) fun hle => h (decide_eq_true hle)

/-- A sweep drops states whose window is over. -/
lemma maybeGc_entry : (t.maybeGc now).entry ip = t.entry ip
    ∨ ((t.maybeGc now).entry ip = {} ∧ REPLAY_WINDOW_SECS * 2 ≤ now - (t.entry ip).firstSecs) := by
  rw [maybeGc]
  split
  case isTrue => exact .inl rfl
  case isFalse =>
    have hlookup : (t.byIp.retain fun _ s => now - s.firstSecs < REPLAY_WINDOW_SECS * 2).lookup ip
        = (t.byIp.lookup ip).filter fun s => now - s.firstSecs < REPLAY_WINDOW_SECS * 2 :=
      HashMap.lookup_retain
    rw [entry, hlookup, entry]
    cases t.byIp.lookup ip with
    | none => exact .inl rfl
    | some s =>
      rw [Option.filter_some, Option.getD_some]
      by_cases hkeep : now - s.firstSecs < REPLAY_WINDOW_SECS * 2
      case pos =>
        rw [decide_eq_true hkeep, if_pos rfl]
        exact .inl rfl
      case neg =>
        rw [decide_eq_false hkeep, if_neg Bool.false_ne_true]
        exact .inr ⟨rfl, Nat.le_of_not_lt hkeep⟩

/-- A state whose window is over starts a new count, and so does a new state by then. -/
lemma observe_stale (h : REPLAY_WINDOW_SECS * 2 ≤ q.secs - s.firstSecs) :
    s.observe q = ({} : ReplayState).observe q := by
  have hwindow : REPLAY_WINDOW_SECS = 30 := rfl
  have hnew : REPLAY_WINDOW_SECS < q.secs - ({} : ReplayState).firstSecs := by
    show REPLAY_WINDOW_SECS < q.secs - 0
    omega
  rw [ReplayState.observe, ReplayState.observe, if_pos (.inr (by omega)),
    if_pos (.inr hnew)]

/-- The states of the addresses. -/
def replayStates : SweptTable RequestReplay IpAddr Request ReplayState where
  entry := entry
  sweep := maybeGc
  see := see
  fresh := {}
  time := Request.secs
  step := ReplayState.observe
  Stale s now := REPLAY_WINDOW_SECS * 2 ≤ now - s.firstSecs
  stale_mono hover hnow := by omega
  stale_step := observe_stale
  entry_sweep _ _ _ := maybeGc_entry
  entry_see _ _ _ _ := see_entry

/-! ## Streaks -/

/-- A state counts a streak. -/
structure Counts (s : ReplayState) (st : Streak) : Prop where
  hash : s.lastHash = st.hash
  count : s.count = min st.requests.length u32Max
  start : s.firstSecs = st.start

/-- One more request keeps the count that of the streak. -/
lemma counts_next (h : Counts s st) : Counts (s.observe q) (st.next q) := by
  by_cases hnew : st.hash ≠ q.hash ∨ REPLAY_WINDOW_SECS < q.secs - st.start
  case pos =>
    have hnew' : s.lastHash ≠ q.hash ∨ REPLAY_WINDOW_SECS < q.secs - s.firstSecs := by
      rw [h.hash, h.start]
      exact hnew
    rw [ReplayState.observe, if_pos hnew', Streak.next, if_pos hnew]
    exact ⟨rfl, rfl, rfl⟩
  case neg =>
    have hnew' : ¬ (s.lastHash ≠ q.hash ∨ REPLAY_WINDOW_SECS < q.secs - s.firstSecs) := by
      rw [h.hash, h.start]
      exact hnew
    have hlast : (⟨st.requests ++ [q], st.start⟩ : Streak).hash = q.hash := by
      rw [Streak.hash, List.getLast?_concat]
      rfl
    rw [ReplayState.observe, if_neg hnew', Streak.next, if_neg hnew]
    rw [not_or, not_not] at hnew
    refine ⟨?_, ?_, h.start⟩
    · exact h.hash.trans (hnew.1.trans hlast.symm)
    · show satAdd32 s.count 1 = min (st.requests ++ [q]).length u32Max
      rw [List.length_append, List.length_singleton, satAdd32, h.count]
      omega

/-- Over a run the count is that of the streak. -/
lemma counts_foldl : Counts (requests.foldl ReplayState.observe {}) (streak requests) := by
  induction requests using List.reverseRecOn with
  | nil => exact ⟨rfl, rfl, rfl⟩
  | append_singleton requests q ih =>
    rw [streak, List.foldl_concat, List.foldl_concat]
    exact counts_next ih

/-- The times of a run do not decrease. -/
def Clocked (seen : List (IpAddr × Request)) : Prop := (seen.map fun e => e.2.secs).Pairwise (· ≤ ·)

/-- The requests of an address up to the one at position `i`. -/
def upTo (ip : IpAddr) (seen : List (IpAddr × Request)) (i : Nat) : List Request :=
  inputsOf ip (seen.take (i + 1))

/-- The detector fires on a request iff that completes a streak. -/
lemma fires_iff (h : Clocked (seen ++ [(ip, q)])) : (after {} seen).reasons ip q ≠ []
    ↔ REPLAY_THRESHOLD ≤ (streak (inputsOf ip (seen ++ [(ip, q)]))).requests.length := by
  obtain ⟨hstep, -⟩ := SweptTable.step_run (M := replayStates) (t := {}) (k := ip) rfl h
  have hcount : (((after {} seen).maybeGc q.secs).entry ip).observe q
      = (inputsOf ip (seen ++ [(ip, q)])).foldl ReplayState.observe {} := hstep
  rw [reasons_ne_nil, hcount, counts_foldl.count]
  have hthreshold : REPLAY_THRESHOLD ≤ u32Max := by decide
  omega

/-- A streak is the end of the requests of an address: requests of one signature, none of them after the
window of the first. -/
structure Streak.Recent (st : Streak) (requests : List Request) : Prop where
  suffix : st.requests <:+ requests
  same : ∀ q ∈ st.requests, ∀ q' ∈ st.requests, q.hash = q'.hash
  window : ∀ q ∈ st.requests, q.secs ≤ st.start + REPLAY_WINDOW_SECS

lemma Streak.hash_of_mem (hsame : ∀ q ∈ st.requests, ∀ q' ∈ st.requests, q.hash = q'.hash)
    (hq : q ∈ st.requests) : st.hash = q.hash := by
  rw [Streak.hash]
  cases hlast : st.requests.getLast? with
  | none =>
    rw [List.getLast?_eq_none_iff.mp hlast] at hq
    cases hq
  | some q' => exact hsame q' (List.mem_of_getLast? hlast) q hq

/-- The requests of the streak are the last ones. -/
lemma streak_recent : (streak requests).Recent requests := by
  induction requests using List.reverseRecOn with
  | nil => exact ⟨List.suffix_refl _, fun q hq => (by cases hq), fun q hq => (by cases hq)⟩
  | append_singleton requests q ih =>
    rw [streak, List.foldl_concat, ← streak, Streak.next]
    split
    case isTrue =>
      refine ⟨List.suffix_append _ _, fun u hu u' hu' => ?_, fun u hu => ?_⟩
      · rw [List.mem_singleton.mp hu, List.mem_singleton.mp hu']
      · rw [List.mem_singleton.mp hu]
        exact Nat.le_add_right _ _
    case isFalse hkeep =>
      rw [not_or, not_not] at hkeep
      obtain ⟨hhash, hsecs⟩ := hkeep
      have hall : ∀ u ∈ (streak requests).requests ++ [q], u.hash = q.hash := by
        intro u hu
        rcases List.mem_append.mp hu with hu | hu
        · exact (Streak.hash_of_mem ih.same hu).symm.trans hhash
        · rw [List.mem_singleton.mp hu]
      refine ⟨?_, fun u hu u' hu' => (hall u hu).trans (hall u' hu').symm, fun u hu => ?_⟩
      · obtain ⟨older, hsplit⟩ := ih.suffix
        exact ⟨older, by rw [← List.append_assoc, hsplit]⟩
      · rcases List.mem_append.mp hu with hu | hu
        · exact ih.window u hu
        · rw [List.mem_singleton.mp hu]
          show q.secs ≤ (streak requests).start + REPLAY_WINDOW_SECS
          omega

/-- Where no request has the signature of the one before, no streak is longer than one request. -/
lemma streak_of_decoys (h : requests.IsChain fun q q' => q.hash ≠ q'.hash) :
    (streak requests).requests.length ≤ 1 := by
  cases requests using List.reverseRecOn with
  | nil => exact Nat.zero_le 1
  | append_singleton requests q =>
    rw [streak, List.foldl_concat, ← streak, Streak.next]
    split
    case isTrue => exact Nat.le_refl 1
    case isFalse hkeep =>
      rw [not_or, not_not] at hkeep
      cases requests using List.reverseRecOn with
      | nil => exact Nat.le_refl 1
      | append_singleton requests q' =>
        have hne : q'.hash ≠ q.hash := by
          refine (List.isChain_append.mp h).2.2 q' ?_ q (Option.mem_some_self q)
          rw [List.getLast?_concat]
          exact Option.mem_some_self q'
        have hlast : (streak (requests ++ [q'])).hash = q'.hash := by
          have hmem : q' ∈ (streak (requests ++ [q'])).requests := by
            rw [streak, List.foldl_concat, Streak.next]
            split
            case isTrue => exact .head _
            case isFalse => exact List.mem_append_right _ (.head _)
          exact Streak.hash_of_mem streak_recent.same hmem
        exact absurd (hlast.symm.trans hkeep.1) hne

/-! ## Floods -/

/-- The positions of requests of an address with one method, path and user agent, as many as the
threshold and all within the window. -/
structure Flood (ip : IpAddr) (method path ua : Str) (seen : List (IpAddr × Request))
    (places : Finset Nat) : Prop where
  many : REPLAY_THRESHOLD ≤ places.card
  occurs : ∀ i ∈ places, ∃ secs, seen[i]? = some (ip, ⟨method, path, ua, secs⟩)
  short : ∀ i ∈ places, ∀ j ∈ places, ∀ q q', seen[i]? = some (ip, q) → seen[j]? = some (ip, q') →
    q'.secs ≤ q.secs + REPLAY_WINDOW_SECS

/-- The detector fires on the request at a position. -/
def Caught (ip : IpAddr) (seen : List (IpAddr × Request)) (i : Nat) : Prop :=
  ∃ q, seen[i]? = some (ip, q) ∧ (after {} (seen.take i)).reasons ip q ≠ []

/-- A request is caught iff the streak up to it reaches the threshold. -/
lemma caught_iff (h : Clocked seen) {i : Nat} (hi : seen[i]? = some (ip, q)) :
    Caught ip seen i ↔ REPLAY_THRESHOLD ≤ (streak (upTo ip seen i)).requests.length := by
  have htake : seen.take (i + 1) = seen.take i ++ [(ip, q)] := by
    rw [List.take_add_one, hi]
    rfl
  have hclock : Clocked (seen.take i ++ [(ip, q)]) := by
    rw [← htake]
    exact h.sublist ((List.take_sublist _ _).map _)
  rw [upTo, htake, ← fires_iff hclock]
  constructor
  · rintro ⟨q', hq', hfires⟩
    rw [hi] at hq'
    cases hq'
    exact hfires
  · exact fun hfires => ⟨q, hi, hfires⟩

/-- A flood is caught iff one of its requests completes a streak: the requests of the address up to
that one end in as many of one signature as the threshold, none of them after the window of the first. -/
theorem flood_caught_iff {method path ua : Str} {places : Finset Nat} (h : Clocked seen)
    (flood : Flood ip method path ua seen places) :
    ((∃ i ∈ places, Caught ip seen i)
        ↔ ∃ i ∈ places, REPLAY_THRESHOLD ≤ (streak (upTo ip seen i)).requests.length)
      ∧ ∀ i, (streak (upTo ip seen i)).Recent (upTo ip seen i) := by
  refine ⟨exists_congr fun i => and_congr_right fun hi => ?_, fun i => streak_recent⟩
  obtain ⟨secs, hq⟩ := flood.occurs i hi
  exact caught_iff h hq

def flooder : IpAddr := .v4 (.new 1 2 3 4)

/-- One page, over and over. -/
def steadyFlood : List (IpAddr × Request) :=
  List.replicate 25 (flooder, ⟨"GET", "/", "a", 1000⟩)

/-- The steady requests are a flood. -/
lemma steadyFlood_flood : Flood flooder "GET" "/" "a" steadyFlood (Finset.range 25) where
  many := by rw [Finset.card_range]; decide
  occurs i hi := by
    rw [steadyFlood, List.getElem?_replicate, if_pos (Finset.mem_range.mp hi)]
    exact ⟨1000, rfl⟩
  short i hi j hj q q' hq hq' := by
    rw [steadyFlood, List.getElem?_replicate, if_pos (Finset.mem_range.mp hi)] at hq
    rw [steadyFlood, List.getElem?_replicate, if_pos (Finset.mem_range.mp hj)] at hq'
    cases hq
    cases hq'
    decide

/-- A flood with nothing in between. -/
theorem steadyFlood_caught_iff : (∃ i ∈ Finset.range 25, Caught flooder steadyFlood i)
    ↔ ∃ i ∈ Finset.range 25,
      REPLAY_THRESHOLD ≤ (streak (upTo flooder steadyFlood i)).requests.length :=
  (flood_caught_iff (by unfold Clocked; decide) steadyFlood_flood).1

/-- A page and another one in turn. -/
def decoyedRequests : List Request :=
  (List.range 50).map fun i => ⟨"GET", if i % 2 = 0 then "/" else "/b", "a", 1000⟩

/-- A flood with a decoy after each request. -/
def decoyedFlood : List (IpAddr × Request) := decoyedRequests.map (flooder, ·)

/-- The requests of the decoyed flood. -/
lemma decoyedFlood_getElem? {i : Nat} (hi : i < 50) : decoyedFlood[i]?
    = some (flooder, ⟨"GET", if i % 2 = 0 then "/" else "/b", "a", 1000⟩) := by
  rw [decoyedFlood, decoyedRequests, List.getElem?_map, List.getElem?_map, List.getElem?_range hi]
  rfl

/-- Half of them are a flood. -/
lemma decoyedFlood_flood :
    Flood flooder "GET" "/" "a" decoyedFlood ((Finset.range 50).filter fun i => i % 2 = 0) where
  many := by decide
  occurs i hi := by
    obtain ⟨hlt, heven⟩ := Finset.mem_filter.mp hi
    refine ⟨1000, ?_⟩
    rw [decoyedFlood_getElem? (Finset.mem_range.mp hlt), if_pos heven]
  short i hi j hj q q' hq hq' := by
    rw [decoyedFlood_getElem? (Finset.mem_range.mp (Finset.mem_filter.mp hi).1)] at hq
    rw [decoyedFlood_getElem? (Finset.mem_range.mp (Finset.mem_filter.mp hj).1)] at hq'
    cases hq
    cases hq'
    exact Nat.le_add_right _ _

/-- No two in a row have the same hash. -/
lemma decoyed_chain : decoyedRequests.IsChain fun q q' => q.hash ≠ q'.hash := by
  have hpage : sigHash "GET" "/" "a" ≠ sigHash "GET" "/b" "a" := by decide
  rw [decoyedRequests, List.isChain_map, List.isChain_range]
  intro i _
  show sigHash "GET" (if i % 2 = 0 then "/" else "/b") "a"
    ≠ sigHash "GET" (if (i + 1) % 2 = 0 then "/" else "/b") "a"
  by_cases heven : i % 2 = 0
  case pos =>
    rw [if_pos heven, if_neg (by omega)]
    exact hpage
  case neg =>
    rw [if_neg heven, if_pos (by omega)]
    exact hpage.symm

/-- Twenty-five requests of one page in a second, and the detector does not fire. -/
theorem decoyed_flood_passes : ¬ ∀ (ip : IpAddr) (method path ua : Str)
    (seen : List (IpAddr × Request)) (places : Finset Nat), Clocked seen →
    Flood ip method path ua seen places → ∃ i ∈ places, Caught ip seen i := by
  intro h
  have hclock : Clocked decoyedFlood := by
    rw [Clocked, decoyedFlood, decoyedRequests, List.map_map, List.map_map]
    exact List.pairwise_map.mpr (List.pairwise_of_forall fun _ _ => Nat.le_refl 1000)
  obtain ⟨i, hi, hcaught⟩ := h flooder "GET" "/" "a" decoyedFlood _ hclock decoyedFlood_flood
  have hlt := Finset.mem_range.mp (Finset.mem_filter.mp hi).1
  have hlong := (caught_iff hclock (decoyedFlood_getElem? hlt)).mp hcaught
  have hupTo : upTo flooder decoyedFlood i = decoyedRequests.take (i + 1) := by
    rw [upTo, inputsOf, decoyedFlood, ← List.map_take, List.filter_eq_self.mpr, List.map_map]
    · exact List.map_id _
    · intro e he
      obtain ⟨q, -, rfl⟩ := List.mem_map.mp he
      exact decide_eq_true rfl
  have hshort : (streak (decoyedRequests.take (i + 1))).requests.length ≤ 1 :=
    streak_of_decoys (decoyed_chain.take (i + 1))
  rw [hupTo] at hlong
  have hthreshold : REPLAY_THRESHOLD = 25 := rfl
  omega

end Signature

end Waf
