import Waf.Lib.Sweep
import Waf.Lib.Window
import Waf.Signal.Tracker

/-!
# Signals of a crowd

Two trackers count what many addresses do together: the requests of a subnet, and the addresses that use
one user agent. Each has a table with sweeps, which drop an entry only when its next request would clear
it anyway (`alike_maybeGc`, `uaBuckets`).

So `SUBNET-RPM` fires on a request iff the subnet has sent more than the cap in its bucket of time and
the five before (`subnet_flood_iff`). The addresses of a user agent are collected in rounds, and a round
lasts until a request comes more than `UA_WINDOW_SECS` after its first: `DIST-UA` fires iff the round of
the request has reached `UA_THRESHOLD_IP` addresses (`fires_on_round`). Seven addresses at the end of a
round and seven at the start of the next pass, but fifteen do not (`crowd_caught`).
-/

namespace Waf
open Lib

/-! ## Subnets -/

namespace Subnet

namespace SubnetTracker

/-- A request of a subnet. -/
def see (t : SubnetTracker) (e : Nat × Nat) : SubnetTracker :=
  let swept := t.maybeGc e.2
  { swept with counters :=
      swept.counters.insert e.1 (((swept.counters.lookup e.1).getD Counter.default).hit e.2).2 }

/-- The tracker after a run of requests of any addresses. -/
def after (t : SubnetTracker) (seen : List (IpAddr × Nat)) : SubnetTracker :=
  seen.foldl (fun t e => t.see (subnetKey e.1, e.2)) t

/-- The counter of a subnet, a new one when there is none. -/
def entry (t : SubnetTracker) (key : Nat) : Counter := (t.counters.lookup key).getD Counter.default

end SubnetTracker

open SubnetTracker

variable {t : SubnetTracker} {ip : IpAddr} {key key' now rpmCap : Nat} {connCap : Int} {c : Counter}

/-- What an observation leaves. -/
lemma observe_see : (t.observe ip rpmCap connCap now).2 = t.see (subnetKey ip, now) := rfl

/-- A request changes the counter of its own subnet. -/
lemma see_entry : (t.see (key', now)).entry key
    = if key = key' then (((t.maybeGc now).entry key).hit now).2 else (t.maybeGc now).entry key := by
  show ((AList.insert key' _ _).lookup key).getD _ = _
  rw [HashMap.lookup_insert]
  split
  case isTrue h =>
    subst h
    rfl
  case isFalse => rfl

/-- No hit from now on tells the counters apart. -/
def Alike (c c' : Counter) (clock : Nat) : Prop := ∀ now, clock ≤ now → c.hit now = c'.hit now

variable {c' c'' : Counter} {clock : Nat}

lemma Alike.refl : Alike c c clock := fun _ _ => rfl

lemma Alike.symm (h : Alike c c' clock) : Alike c' c clock := fun now hnow => (h now hnow).symm

lemma Alike.trans (h : Alike c c' clock) (h' : Alike c' c'' clock) : Alike c c'' clock :=
  fun now hnow => (h now hnow).trans (h' now hnow)

lemma Alike.mono (h : Alike c c' clock) (hnow : clock ≤ now) : Alike c c' now :=
  fun u hu => h u (hnow.trans hu)

/-- A counter that was last hit a minute ago is as good as new. -/
lemma alike_of_old (h : 60 ≤ clock - c.headSecs) : Alike c Counter.default clock := by
  intro now hnow
  refine Ring.hit_eq_of_passed ?_ ?_
  · show 6 ≤ now / 10 - c.headSecs / 10
    omega
  · show 6 ≤ now / 10 - 0 / 10
    omega

/-- A counter that holds nothing has empty buckets. -/
lemma buckets_of_held (h : Ring.held c = 0) : c.buckets = Vector.replicate BUCKETS 0 := by
  ext i hi
  rw [Vector.getElem_replicate]
  refine List.sum_eq_zero_iff.mp h _ ?_
  exact List.mem_iff_getElem.mpr ⟨i, by simpa using hi, by simp⟩

/-- So is a counter that holds no hits. -/
lemma alike_of_empty (h : Ring.held c = 0) : Alike c Counter.default clock := by
  intro now _
  have hclear : ∀ head drift,
      Ring.clear (Vector.replicate BUCKETS 0) head drift = Vector.replicate BUCKETS 0 := by
    intro head drift
    ext i hi
    rw [Ring.getElem_clear hi, Vector.getElem_replicate, ite_self]
  have hdefault : Counter.default.buckets = Vector.replicate BUCKETS 0 := rfl
  simp only [Counter.hit, Ring.hit, buckets_of_held h, hdefault, hclear, ite_self]

/-- A sweep makes no difference, unless a counter holds so many hits that their number wraps. -/
lemma alike_maybeGc (h : Ring.held (t.entry key) < 2 ^ 32) :
    Alike ((t.maybeGc now).entry key) (t.entry key) now := by
  rw [maybeGc]
  split
  case isTrue => exact .refl
  case isFalse =>
    show Alike (((t.counters.retain _).lookup key).getD _) ((t.counters.lookup key).getD _) now
    rw [entry] at h
    rw [HashMap.lookup_retain]
    cases hentry : t.counters.lookup key with
    | none => exact .refl
    | some c =>
      rw [hentry] at h
      rw [Option.filter_some]
      split
      case isTrue => exact .refl
      case isFalse hdrop =>
        rw [Bool.and_eq_true, not_and_or, decide_eq_true_iff, decide_eq_true_iff] at hdrop
        show Alike Counter.default c now
        rcases hdrop with hold | hempty
        · exact (alike_of_old (Nat.le_of_not_lt hold)).symm
        · refine (alike_of_empty ?_).symm
          change Ring.held c < 2 ^ 32 at h
          have hmod : Ring.held c % 2 ^ 32 = 0 := Nat.eq_zero_of_not_pos hempty
          rwa [Nat.mod_eq_of_lt h] at hmod

lemma held_maybeGc_le (now : Nat) : Ring.held ((t.maybeGc now).entry key) ≤ Ring.held (t.entry key) := by
  rw [maybeGc]
  split
  case isTrue => exact le_rfl
  case isFalse =>
    show Ring.held (((t.counters.retain _).lookup key).getD _)
      ≤ Ring.held ((t.counters.lookup key).getD _)
    rw [HashMap.lookup_retain]
    cases t.counters.lookup key with
    | none => exact le_rfl
    | some c =>
      rw [Option.filter_some]
      split
      case isTrue => exact le_rfl
      case isFalse => exact Nat.zero_le _

/-- The requests of a subnet. -/
def timesOf (key : Nat) (seen : List (IpAddr × Nat)) : List Nat :=
  (seen.filter fun e => subnetKey e.1 = key).map Prod.snd

variable {seen : List (IpAddr × Nat)}

lemma timesOf_concat : timesOf key (seen ++ [(ip, now)])
    = if key = subnetKey ip then timesOf key seen ++ [now] else timesOf key seen := by
  rw [timesOf, List.filter_append, List.map_append, ← timesOf]
  by_cases h : key = subnetKey ip
  case pos =>
    have hone : [(ip, now)].filter (fun e => decide (subnetKey e.1 = key)) = [(ip, now)] := by
      simp [h]
    rw [if_pos h, hone]
    rfl
  case neg =>
    have hnone : [(ip, now)].filter (fun e => decide (subnetKey e.1 = key)) = [] := by
      simp [Ne.symm h]
    rw [if_neg h, hnone]
    exact List.append_nil _

/-- The entry of a subnet is as good as a counter of its requests, and holds no more hits. -/
lemma entry_after (key : Nat) (hclock : (seen.map Prod.snd).Pairwise (· ≤ ·))
    (hlen : seen.length < 2 ^ 32) (hnow : ∀ e ∈ seen, e.2 ≤ now) :
    Alike ((after {} seen).entry key) (Counter.after (timesOf key seen)) now
      ∧ Ring.held ((after {} seen).entry key) ≤ seen.length := by
  induction seen using List.reverseRecOn generalizing now with
  | nil => exact ⟨.refl, Nat.le_of_eq rfl⟩
  | append_singleton seen e ih =>
    obtain ⟨addr, secs⟩ := e
    rw [List.map_append] at hclock
    rw [List.length_append, List.length_singleton] at hlen ⊢
    have hlast : ∀ e ∈ seen, e.2 ≤ secs := fun e he =>
      (List.pairwise_append.mp hclock).2.2 _ (List.mem_map_of_mem he) _ (.head _)
    obtain ⟨halike, hheld⟩ := ih (List.pairwise_append.mp hclock).1 (by omega) hlast
    have hswept := (alike_maybeGc (hheld.trans_lt (by omega))).trans halike
    have hheld' := (held_maybeGc_le secs).trans hheld
    have hafter : after {} (seen ++ [(addr, secs)]) = (after {} seen).see (subnetKey addr, secs) :=
      List.foldl_concat ..
    rw [hafter, see_entry, timesOf_concat]
    split
    case isTrue =>
      have hcounter : Counter.after (timesOf key seen ++ [secs])
          = ((Counter.after (timesOf key seen)).hit secs).2 := List.foldl_concat ..
      rw [hswept secs le_rfl, hcounter, ← hswept secs le_rfl]
      exact ⟨.refl, Ring.held_hit_le.trans (Nat.add_le_add_right hheld' 1)⟩
    case isFalse =>
      have hle : secs ≤ now := hnow (addr, secs) (List.mem_append_right _ (.head _))
      exact ⟨hswept.mono hle, hheld'.trans (Nat.le_succ _)⟩

/-- `SUBNET-RPM` fires on a request iff there is a cap and the subnet has sent more requests than that,
this one included, in the bucket of ten seconds of the request and the five before. Sweeps and other
subnets make no difference. -/
theorem subnet_flood_iff (hclock : ((seen ++ [(ip, now)]).map Prod.snd).Pairwise (· ≤ ·))
    (hlen : (seen ++ [(ip, now)]).length < 2 ^ 32) :
    (∃ r ∈ ((after {} seen).observe ip rpmCap connCap now).1, r.ruleId = "SUBNET-RPM")
      ↔ 0 < rpmCap ∧ rpmCap < (seen ++ [(ip, now)]).countP fun e =>
          subnetKey e.1 = subnetKey ip ∧ now / 10 - e.2 / 10 < 6 := by
  have hsplit := hclock
  rw [List.map_append] at hsplit
  have hlast : ∀ e ∈ seen, e.2 ≤ now := fun e he =>
    (List.pairwise_append.mp hsplit).2.2 _ (List.mem_map_of_mem he) _ (.head _)
  have hbound : seen.length < 2 ^ 32 := lt_of_le_of_lt (by simp) hlen
  obtain ⟨halike, hheld⟩ :=
    entry_after (subnetKey ip) (List.pairwise_append.mp hsplit).1 hbound hlast
  have hswept := (alike_maybeGc (hheld.trans_lt hbound)).trans halike
  -- the counter reports the requests of the subnet in the window
  have hcount : ((((after {} seen).maybeGc now).entry (subnetKey ip)).hit now).1
      = (seen ++ [(ip, now)]).countP fun e =>
          subnetKey e.1 = subnetKey ip ∧ now / 10 - e.2 / 10 < 6 := by
    have htimes : timesOf (subnetKey ip) seen ++ [now] = timesOf (subnetKey ip) (seen ++ [(ip, now)]) := by
      rw [timesOf_concat, if_pos rfl]
    have hsorted : (timesOf (subnetKey ip) seen ++ [now]).Pairwise (· ≤ ·) := by
      rw [htimes]
      exact hclock.sublist (List.filter_sublist.map _)
    have hfew : (timesOf (subnetKey ip) seen ++ [now]).length < 2 ^ 32 := by
      rw [htimes, timesOf, List.length_map]
      exact (List.length_filter_le _ _).trans_lt hlen
    rw [hswept now le_rfl, (hit_value (lagged_of_sorted hsorted) hfew).2, remembered_of_sorted hsorted,
      recent, htimes, timesOf, List.countP_map, List.countP_filter]
    refine List.countP_congr fun e _ => ?_
    simp only [Function.comp_apply, Bool.and_eq_true, decide_eq_true_eq, and_comm]
  have hreasons : ((after {} seen).observe ip rpmCap connCap now).1
      = fire (0 < rpmCap && rpmCap < ((((after {} seen).maybeGc now).entry (subnetKey ip)).hit now).1)
          ⟨"SUBNET-RPM", "ddos", W_SUBNET_FLOOD,
            "subnet rpm=" ++ dec ((((after {} seen).maybeGc now).entry (subnetKey ip)).hit now).1
              ++ " cap=" ++ dec rpmCap⟩
        ++ fire (0 < connCap && connCap
              < (((after {} seen).maybeGc now).inFlight.lookup (subnetKey ip)).getD 0)
          ⟨"SUBNET-CONN", "ddos", W_SUBNET_CONN,
            "subnet inflight=" ++ decInt ((((after {} seen).maybeGc now).inFlight.lookup
              (subnetKey ip)).getD 0) ++ " cap=" ++ decInt connCap⟩ := rfl
  rw [hreasons, hcount]
  simp only [List.mem_append, mem_fire, Bool.and_eq_true, decide_eq_true_eq]
  have hother : ("SUBNET-CONN" : Str) ≠ "SUBNET-RPM" := by decide
  constructor
  · rintro ⟨r, ⟨hfires, -⟩ | ⟨-, rfl⟩, hrule⟩
    · exact hfires
    · exact absurd hrule hother
  · exact fun hfires => ⟨_, .inl ⟨hfires, rfl⟩, rfl⟩

/-- A request of another subnet and one of the same. -/
def sampleSeen : List (IpAddr × Nat) := [(.v4 (.new 1 2 4 4), 1000), (.v4 (.new 1 2 3 4), 1001)]

def sampleIp : IpAddr := .v4 (.new 1 2 3 9)

/-- Requests of two subnets, and one that exceeds the cap. -/
theorem subnet_flood_iff_witness :
    (∃ r ∈ ((after {} sampleSeen).observe sampleIp 1 0 1059).1, r.ruleId = "SUBNET-RPM")
      ↔ 0 < 1 ∧ 1 < (sampleSeen ++ [(sampleIp, 1059)]).countP fun (e : IpAddr × Nat) =>
          subnetKey e.1 = subnetKey sampleIp ∧ 1059 / 10 - e.2 / 10 < 6 :=
  subnet_flood_iff (by decide) (by decide)

end Subnet

/-! ## User agents -/

namespace Signature

/-- A request with a user agent: its address and its time. -/
abbrev Use := IpAddr × Nat

/-- A bucket after a request. -/
def UaBucket.collect (b : UaBucket) (use : Use) : UaBucket :=
  let b := if b.firstSecs = 0 ∨ UA_WINDOW_SECS < use.2 - b.firstSecs then ⟨[], use.2⟩ else b
  if b.ips.length < 256 then { b with ips := b.ips.insert use.1 } else b

namespace DistributedUa

/-- A request with the user agent of a hash. -/
def see (t : DistributedUa) (e : UInt64 × Use) : DistributedUa :=
  let swept := t.maybeGc e.2.2
  { swept with byUa := swept.byUa.insert e.1 (((swept.byUa.lookup e.1).getD {}).collect e.2) }

/-- The detector after a run of requests, each with its user agent. -/
def after (t : DistributedUa) (seen : List (Str × Use)) : DistributedUa :=
  seen.foldl (fun t e => (t.observe e.2.1 e.1 e.2.2).2) t

/-- The bucket of a hash, a new one when there is none. -/
def entry (t : DistributedUa) (h : UInt64) : UaBucket := (t.byUa.lookup h).getD {}

end DistributedUa

open DistributedUa

variable {t : DistributedUa} {ua : Str} {h h' : UInt64} {use : Use} {b : UaBucket} {now : Nat}

/-- An observation is one of the bucket of the user agent. -/
lemma observe_ua (use : Use) (hua : ua ≠ []) : t.observe use.1 ua use.2
    = (fire (UA_THRESHOLD_IP ≤ (((t.maybeGc use.2).entry (fnv64 (utf8 ua))).collect use).ips.length)
        ⟨"DIST-UA", "ddos", W_DIST_UA,
          "UA shared by " ++ dec (((t.maybeGc use.2).entry (fnv64 (utf8 ua))).collect use).ips.length
            ++ " distinct IPs in " ++ dec UA_WINDOW_SECS ++ "s"⟩,
      t.see (fnv64 (utf8 ua), use)) := by
  cases ua with
  | nil => exact absurd rfl hua
  | cons => rfl

/-- A request changes the bucket of its own user agent. -/
lemma see_bucket : (t.see (h', use)).entry h
    = if h = h' then ((t.maybeGc use.2).entry h).collect use else (t.maybeGc use.2).entry h := by
  show ((AList.insert h' _ _).lookup h).getD _ = _
  rw [HashMap.lookup_insert]
  split
  case isTrue heq =>
    subst heq
    rfl
  case isFalse => rfl

/-- A sweep drops buckets whose round is over. -/
lemma maybeGc_bucket : (t.maybeGc now).entry h = t.entry h
    ∨ ((t.maybeGc now).entry h = {} ∧ UA_WINDOW_SECS * 2 ≤ now - (t.entry h).firstSecs) := by
  rw [maybeGc]
  split
  case isTrue => exact .inl rfl
  case isFalse =>
    show ((t.byUa.retain _).lookup h).getD _ = _ ∨ (((t.byUa.retain _).lookup h).getD _ = _ ∧ _)
    rw [HashMap.lookup_retain, entry]
    cases t.byUa.lookup h with
    | none => exact .inl rfl
    | some b =>
      rw [Option.filter_some, Option.getD_some]
      split
      case isTrue => exact .inl rfl
      case isFalse hdrop => exact .inr ⟨rfl, Nat.le_of_not_lt fun hlt => hdrop (decide_eq_true hlt)⟩

/-- A bucket whose round is over starts a new one, and so does a new bucket. -/
lemma collect_stale (hover : UA_WINDOW_SECS * 2 ≤ use.2 - b.firstSecs) :
    b.collect use = ({} : UaBucket).collect use := by
  have hwindow : UA_WINDOW_SECS = 60 := rfl
  have hnew : UA_WINDOW_SECS < use.2 - b.firstSecs := by omega
  simp only [UaBucket.collect, hnew, or_true, true_or, if_true]

/-- The buckets of the user agents. -/
def uaBuckets : SweptTable DistributedUa UInt64 Use UaBucket where
  entry := entry
  sweep := maybeGc
  see := see
  fresh := {}
  time := Prod.snd
  step := UaBucket.collect
  Stale b now := UA_WINDOW_SECS * 2 ≤ now - b.firstSecs
  stale_mono hover hnow := by omega
  stale_step := collect_stale
  entry_sweep _ _ _ := maybeGc_bucket
  entry_see _ _ _ _ := see_bucket

/-! ## Rounds -/

/-- The addresses that have used a user agent in its current round, and when the round began. -/
structure Round where
  addresses : Finset IpAddr := ∅
  start : Nat := 0

/-- A request after the window starts a new round. -/
def Round.next (r : Round) (use : Use) : Round :=
  if r.start = 0 ∨ UA_WINDOW_SECS < use.2 - r.start then ⟨{use.1}, use.2⟩
  else { r with addresses := insert use.1 r.addresses }

/-- The round at the end of the requests with a user agent. -/
def round (uses : List Use) : Round := uses.foldl Round.next {}

/-- A bucket has the addresses of a round, up to 256 of them. -/
structure Collects (b : UaBucket) (r : Round) : Prop where
  start : b.firstSecs = r.start
  nodup : b.ips.Nodup
  subset : b.ips.toFinset ⊆ r.addresses
  length : b.ips.length = min 256 r.addresses.card

variable {r : Round} {uses : List Use}

/-- An address more, in a bucket with room or in a full one. -/
lemma Collects.insert (hc : Collects b r) {ip : IpAddr} :
    Collects (if b.ips.length < 256 then { b with ips := b.ips.insert ip } else b)
      { r with addresses := Insert.insert ip r.addresses } := by
  have hcard := Finset.card_le_card (Finset.subset_insert ip r.addresses)
  have hlength := hc.length
  split
  case isTrue hroom =>
    -- the bucket has all of them
    have hall : b.ips.toFinset = r.addresses := by
      refine Finset.eq_of_subset_of_card_le hc.subset ?_
      rw [List.toFinset_card_of_nodup hc.nodup]
      omega
    have hinsert : (b.ips.insert ip).toFinset = Insert.insert ip r.addresses := by
      ext a
      rw [List.mem_toFinset, List.mem_insert_iff, Finset.mem_insert, ← hall, List.mem_toFinset]
    refine ⟨hc.start, hc.nodup.insert, hinsert.subset, ?_⟩
    have hsucc := Finset.card_insert_le ip r.addresses
    show (b.ips.insert ip).length = min 256 (Insert.insert ip r.addresses).card
    rw [← List.toFinset_card_of_nodup hc.nodup.insert, hinsert]
    omega
  case isFalse =>
    refine ⟨hc.start, hc.nodup, hc.subset.trans (Finset.subset_insert _ _), ?_⟩
    show b.ips.length = min 256 (Insert.insert ip r.addresses).card
    omega

/-- One more use keeps the bucket that of the round. -/
lemma Collects.next (hc : Collects b r) : Collects (b.collect use) (r.next use) := by
  rw [UaBucket.collect, Round.next, hc.start]
  split
  case isTrue =>
    have hempty : Collects ⟨[], use.2⟩ ⟨∅, use.2⟩ := ⟨rfl, List.nodup_nil, Finset.Subset.refl _, rfl⟩
    exact hempty.insert
  case isFalse => exact hc.insert

/-- Over a run the bucket is that of the round. -/
lemma collects_foldl : Collects (uses.foldl UaBucket.collect {}) (round uses) := by
  induction uses using List.reverseRecOn with
  | nil => exact ⟨rfl, List.nodup_nil, Finset.Subset.refl _, rfl⟩
  | append_singleton uses use ih =>
    rw [round, List.foldl_concat, List.foldl_concat]
    exact ih.next

lemma round_concat : round (uses ++ [use]) = (round uses).next use := List.foldl_concat ..

/-- The requests with the user agent of a hash. -/
def usesOf (h : UInt64) (seen : List (Str × Use)) : List Use :=
  (seen.filter fun e => e.1 ≠ [] ∧ fnv64 (utf8 e.1) = h).map Prod.snd

/-- The requests that have a user agent, by its hash. -/
def hashed (seen : List (Str × Use)) : List (UInt64 × Use) :=
  (seen.filter fun e => e.1 ≠ []).map fun e => (fnv64 (utf8 e.1), e.2)

variable {seen : List (Str × Use)}

lemma after_eq_run : after {} seen = uaBuckets.run {} (hashed seen) := by
  induction seen using List.reverseRecOn with
  | nil => rfl
  | append_singleton seen e ih =>
    obtain ⟨ua, use⟩ := e
    have hafter : after {} (seen ++ [(ua, use)]) = ((after {} seen).observe use.1 ua use.2).2 :=
      List.foldl_concat ..
    rw [hafter, hashed, List.filter_append, List.map_append, ← hashed]
    cases ua with
    | nil =>
      show after {} seen = uaBuckets.run {} (hashed seen ++ [])
      rw [ih, List.append_nil]
    | cons c ua =>
      have hrun : uaBuckets.run {} (hashed seen ++ [(fnv64 (utf8 (c :: ua)), use)])
          = see (uaBuckets.run {} (hashed seen)) (fnv64 (utf8 (c :: ua)), use) := List.foldl_concat ..
      rw [observe_ua use (List.cons_ne_nil _ _), ih]
      exact hrun.symm

/-- The inputs of a hash are its uses. -/
lemma inputsOf_hashed : inputsOf h (hashed seen) = usesOf h seen := by
  rw [inputsOf, hashed, usesOf, List.filter_map, List.map_map, List.filter_filter]
  refine congrArg (List.map _) (List.filter_congr fun e _ => ?_)
  simp only [Function.comp_apply, Bool.decide_and, Bool.and_comm]

/-- `DIST-UA` fires on a request iff its round has enough addresses. -/
lemma fires_on_round (hua : ua ≠ []) (hclock : ((seen ++ [(ua, use)]).map (·.2.2)).Pairwise (· ≤ ·)) :
    ((after {} seen).observe use.1 ua use.2).1 ≠ []
      ↔ UA_THRESHOLD_IP ≤ (round (usesOf (fnv64 (utf8 ua)) (seen ++ [(ua, use)]))).addresses.card := by
  have hhashed : hashed (seen ++ [(ua, use)]) = hashed seen ++ [(fnv64 (utf8 ua), use)] := by
    have hone : [(ua, use)].filter (fun e => decide (e.1 ≠ [])) = [(ua, use)] := by
      simp [hua]
    rw [hashed, List.filter_append, List.map_append, hone]
    rfl
  have hclocked : uaBuckets.Clocked (hashed seen ++ [(fnv64 (utf8 ua), use)]) := by
    rw [← hhashed, SweptTable.Clocked, hashed, List.map_map]
    exact hclock.sublist (List.filter_sublist.map _)
  obtain ⟨hstep, -⟩ := SweptTable.step_run (M := uaBuckets) (t := {}) rfl hclocked
  have hbucket : ((((after {} seen).maybeGc use.2).entry (fnv64 (utf8 ua))).collect use)
      = (usesOf (fnv64 (utf8 ua)) (seen ++ [(ua, use)])).foldl UaBucket.collect {} := by
    rw [after_eq_run, ← inputsOf_hashed, hhashed]
    exact hstep
  rw [observe_ua use hua, hbucket, fire, collects_foldl.length]
  have hthreshold : UA_THRESHOLD_IP = 8 := rfl
  split
  case isTrue hfires => exact iff_of_true (List.cons_ne_nil _ _) (by simp at hfires; omega)
  case isFalse hfires => exact iff_of_false (fun hnil => hnil rfl) (by simp at hfires; omega)

/-- A round has addresses of the window. -/
lemma round_recent (hclock : ((uses ++ [use]).map Prod.snd).Pairwise (· ≤ ·)) :
    (round (uses ++ [use])).start ≤ use.2 ∧ use.2 ≤ (round (uses ++ [use])).start + UA_WINDOW_SECS
      ∧ ∀ ip ∈ (round (uses ++ [use])).addresses,
        ∃ u ∈ uses ++ [use], u.1 = ip ∧ (round (uses ++ [use])).start ≤ u.2 := by
  induction uses using List.reverseRecOn generalizing use with
  | nil =>
    rw [round_concat, Round.next, if_pos (.inl rfl)]
    refine ⟨le_rfl, Nat.le_add_right _ _, fun ip hip => ⟨use, .head _, ?_, le_rfl⟩⟩
    exact (Finset.mem_singleton.mp hip).symm
  | append_singleton older last ih =>
    have hthis : use ∈ older ++ [last] ++ [use] := List.mem_append_right _ (.head _)
    have hsplit := hclock
    rw [List.map_append] at hsplit
    have hle : last.2 ≤ use.2 := (List.pairwise_append.mp hsplit).2.2 _
      (List.mem_map_of_mem (List.mem_append_right _ (.head _))) _ (.head _)
    obtain ⟨hstart, -, hmem⟩ := ih (List.pairwise_append.mp hsplit).1
    rw [round_concat, Round.next]
    split
    case isTrue =>
      refine ⟨le_rfl, Nat.le_add_right _ _, fun ip hip => ⟨use, hthis, ?_, le_rfl⟩⟩
      exact (Finset.mem_singleton.mp hip).symm
    case isFalse hkeep =>
      have hwindow : use.2 - (round (older ++ [last])).start ≤ UA_WINDOW_SECS :=
        Nat.le_of_not_lt fun hlt => hkeep (.inr hlt)
      refine ⟨hstart.trans hle, Nat.sub_le_iff_le_add'.mp hwindow, fun ip hip => ?_⟩
      rcases Finset.mem_insert.mp hip with rfl | hip
      · exact ⟨use, hthis, rfl, hstart.trans hle⟩
      · obtain ⟨u, hu, hip, hbegun⟩ := hmem ip hip
        exact ⟨u, List.mem_append_left _ hu, hip, hbegun⟩

/-! ## Crowds -/

/-- Requests within the window of the first are those of at most two rounds. -/
lemma two_rounds (uses : List Use) {crowd : List Use} {first : Nat} (hfirst : 0 < first)
    (hcrowd : ∀ use ∈ crowd, first ≤ use.2 ∧ use.2 ≤ first + UA_WINDOW_SECS) :
    ∃ early late, crowd = early ++ late
      ∧ (∀ use ∈ early, use.1 ∈ (round (uses ++ early)).addresses)
      ∧ (∀ use ∈ late, use.1 ∈ (round (uses ++ crowd)).addresses)
      ∧ (late ≠ [] → first ≤ (round (uses ++ crowd)).start) := by
  induction crowd using List.reverseRecOn with
  | nil => exact ⟨[], [], rfl, nofun, nofun, fun h => absurd rfl h⟩
  | append_singleton crowd use ih =>
    obtain ⟨early, late, hsplit, hearly, hlate, hstart⟩ :=
      ih fun use huse => hcrowd use (List.mem_append_left _ huse)
    obtain ⟨hafter, hbefore⟩ := hcrowd use (List.mem_append_right _ (.head _))
    rw [← List.append_assoc, round_concat, Round.next]
    have hwindow : UA_WINDOW_SECS = 60 := rfl
    split
    case isTrue hnew =>
      cases late with
      | nil =>
        -- the first round of the crowd is over
        rw [List.append_nil] at hsplit
        subst hsplit
        refine ⟨crowd, [use], rfl, hearly, fun u hu => ?_, fun _ => hafter⟩
        rw [List.mem_singleton.mp hu]
        exact Finset.mem_singleton_self _
      | cons u late =>
        -- a round that began in the crowd lasts to its end
        have hbegun := hstart (List.cons_ne_nil u late)
        omega
    case isFalse =>
      cases late with
      | nil =>
        rw [List.append_nil] at hsplit
        subst hsplit
        refine ⟨crowd ++ [use], [], (List.append_nil _).symm, fun u hu => ?_, nofun,
          fun h => absurd rfl h⟩
        rw [← List.append_assoc, round_concat, Round.next, if_neg ‹_›]
        rcases List.mem_append.mp hu with hu | hu
        · exact Finset.mem_insert_of_mem (hearly u hu)
        · rw [List.mem_singleton.mp hu]
          exact Finset.mem_insert_self _ _
      | cons u late =>
        refine ⟨early, u :: late ++ [use], by rw [hsplit, List.append_assoc], hearly,
          fun u' hu' => ?_, fun _ => hstart (List.cons_ne_nil u late)⟩
        rcases List.mem_append.mp hu' with hu' | hu'
        · exact Finset.mem_insert_of_mem (hlate u' hu')
        · rw [List.mem_singleton.mp hu']
          exact Finset.mem_insert_self _ _

lemma usesOf_append {older newer : List (Str × Use)} :
    usesOf h (older ++ newer) = usesOf h older ++ usesOf h newer := by
  rw [usesOf, List.filter_append, List.map_append]
  rfl

/-- The last of the first uses of a user agent is a request. -/
lemma usesOf_split {front back : List Use} (hsplit : usesOf h seen = front ++ use :: back) :
    ∃ older ua newer, seen = older ++ (ua, use) :: newer ∧ ua ≠ [] ∧ fnv64 (utf8 ua) = h
      ∧ usesOf h (older ++ [(ua, use)]) = front ++ [use] := by
  obtain ⟨kept, rest, hfilter, hfront, hrest⟩ := List.map_eq_append_iff.mp hsplit
  obtain ⟨e, rest', rfl, rfl, -⟩ := List.map_eq_cons_iff.mp hrest
  obtain ⟨older, tail, rfl, hkept, htail⟩ := List.filter_eq_append_iff.mp hfilter
  obtain ⟨skipped, newer, rfl, hskipped, he, -⟩ := List.filter_eq_cons_iff.mp htail
  obtain ⟨hua, hash⟩ := of_decide_eq_true he
  refine ⟨older ++ skipped, e.1, newer, by rw [List.append_assoc], hua, hash, ?_⟩
  have hnone : skipped.filter (fun e => decide (e.1 ≠ [] ∧ fnv64 (utf8 e.1) = h)) = [] :=
    List.filter_eq_nil_iff.mpr hskipped
  have hone : [e].filter (fun e => decide (e.1 ≠ [] ∧ fnv64 (utf8 e.1) = h)) = [e] :=
    List.filter_eq_self.mpr fun x hx => List.mem_singleton.mp hx ▸ he
  rw [usesOf_append, usesOf_append, usesOf, hkept, hfront, usesOf, hnone, usesOf, hone,
    List.map_nil, List.append_nil]
  rfl

/-- The addresses of some requests. -/
def addressesOf (uses : List Use) : Finset IpAddr := (uses.map Prod.fst).toFinset

lemma mem_addressesOf {ip : IpAddr} : ip ∈ addressesOf uses ↔ ∃ use ∈ uses, use.1 = ip := by
  rw [addressesOf, List.mem_toFinset, List.mem_map]

/-- A round that has the addresses of its last requests fires on the last one of them. -/
lemma fires_of_round {older crowd : List (Str × Use)} {front : List Use} (back : List Use)
    (hclock : ((older ++ crowd).map (·.2.2)).Pairwise (· ≤ ·))
    (hsplit : usesOf h crowd = front ++ back) (hne : front ≠ [])
    (hmany : UA_THRESHOLD_IP ≤ (round (usesOf h older ++ front)).addresses.card) :
    ∃ before ua use behind, crowd = before ++ (ua, use) :: behind ∧ fnv64 (utf8 ua) = h
      ∧ ((after {} (older ++ before)).observe use.1 ua use.2).1 ≠ [] := by
  obtain ⟨init, use, rfl⟩ := List.eq_nil_or_concat front |>.resolve_left hne
  rw [List.concat_eq_append] at hsplit hmany
  rw [List.append_assoc, List.singleton_append] at hsplit
  obtain ⟨before, ua, behind, rfl, hua, hash, huses⟩ := usesOf_split hsplit
  refine ⟨before, ua, use, behind, rfl, hash, ?_⟩
  have hprefix : ((older ++ before ++ [(ua, use)]).map (·.2.2)).Pairwise (· ≤ ·) := by
    refine hclock.sublist (List.Sublist.map _ ?_)
    rw [List.append_assoc]
    exact (List.append_sublist_append_left _).mpr
      ((List.append_sublist_append_left _).mpr (List.singleton_sublist.mpr (.head _)))
  rw [fires_on_round hua hprefix, hash, List.append_assoc, usesOf_append, huses]
  exact hmany

/-- When fifteen addresses use one user agent within the window of sixty seconds, `DIST-UA` fires on
one of these requests, whatever has come before and in between: they are those of at most two rounds,
and one of the two has eight of them. -/
theorem crowd_caught {older crowd : List (Str × Use)} {first : Nat} (hfirst : 0 < first)
    (hclock : ((older ++ crowd).map (·.2.2)).Pairwise (· ≤ ·))
    (hcrowd : ∀ e ∈ crowd, first ≤ e.2.2 ∧ e.2.2 ≤ first + UA_WINDOW_SECS)
    (hmany : 2 * UA_THRESHOLD_IP - 1 ≤ (addressesOf (usesOf h crowd)).card) :
    ∃ before ua use behind, crowd = before ++ (ua, use) :: behind ∧ fnv64 (utf8 ua) = h
      ∧ ((after {} (older ++ before)).observe use.1 ua use.2).1 ≠ [] := by
  have huses : ∀ use ∈ usesOf h crowd, first ≤ use.2 ∧ use.2 ≤ first + UA_WINDOW_SECS := by
    intro use huse
    obtain ⟨e, he, rfl⟩ := List.mem_map.mp huse
    exact hcrowd e (List.mem_of_mem_filter he)
  obtain ⟨early, late, hsplit, hearly, hlate, -⟩ :=
    two_rounds (usesOf h older) hfirst huses
  have hsum : (addressesOf (usesOf h crowd)).card
      ≤ (addressesOf early).card + (addressesOf late).card := by
    rw [hsplit, addressesOf, List.map_append, List.toFinset_append]
    exact Finset.card_union_le _ _
  have hthreshold : UA_THRESHOLD_IP = 8 := rfl
  have nonempty {uses : List Use} (h8 : UA_THRESHOLD_IP ≤ (addressesOf uses).card) : uses ≠ [] := by
    rintro rfl
    exact absurd h8 (by decide)
  by_cases hfew : UA_THRESHOLD_IP ≤ (addressesOf early).card
  case pos =>
    refine fires_of_round late hclock hsplit (nonempty hfew) (hfew.trans (Finset.card_le_card ?_))
    intro ip hip
    obtain ⟨use, huse, rfl⟩ := mem_addressesOf.mp hip
    exact hearly use huse
  case neg =>
    have hmost : UA_THRESHOLD_IP ≤ (addressesOf late).card := by omega
    refine fires_of_round [] hclock (List.append_nil _).symm ?_
      (hmost.trans (Finset.card_le_card ?_))
    · rw [hsplit]
      exact List.append_ne_nil_of_right_ne_nil _ (nonempty hmost)
    · intro ip hip
      obtain ⟨use, huse, rfl⟩ := mem_addressesOf.mp hip
      exact hlate use huse

/-- Addresses that use one user agent. -/
def sampleCrowd (n : Nat) : List (Str × Use) :=
  (List.range n).map fun i => ("a", .v4 (.new 1 2 3 (UInt8.ofNat i)), 1000 + i)

/-- Fifteen addresses, one second after another. -/
theorem crowd_caught_witness : ∃ before ua use behind,
    sampleCrowd 15 = before ++ (ua, use) :: behind ∧ fnv64 (utf8 ua) = fnv64 (utf8 "a")
      ∧ ((after {} ([] ++ before)).observe use.1 ua use.2).1 ≠ [] := by
  have hclock : ((([] : List (Str × Use)) ++ sampleCrowd 15).map fun e => e.2.2).Pairwise (· ≤ ·) := by
    decide
  exact crowd_caught (by decide : 0 < 1000) hclock (by decide) (by decide)

/-- Conversely `DIST-UA` fires on a request only when eight addresses have used the user agent within the
window that ends with it. -/
theorem caught_crowd (hua : ua ≠ [])
    (hclock : ((seen ++ [(ua, use)]).map (·.2.2)).Pairwise (· ≤ ·))
    (hfires : ((after {} seen).observe use.1 ua use.2).1 ≠ []) :
    UA_THRESHOLD_IP ≤ (addressesOf ((usesOf (fnv64 (utf8 ua)) (seen ++ [(ua, use)])).filter
      fun u => use.2 ≤ u.2 + UA_WINDOW_SECS)).card := by
  have huses : usesOf (fnv64 (utf8 ua)) (seen ++ [(ua, use)])
      = usesOf (fnv64 (utf8 ua)) seen ++ [use] := by
    have hone : usesOf (fnv64 (utf8 ua)) [(ua, use)] = [use] := by
      simp [usesOf, hua]
    rw [usesOf_append, hone]
  have hsorted : ((usesOf (fnv64 (utf8 ua)) seen ++ [use]).map Prod.snd).Pairwise (· ≤ ·) := by
    rw [← huses, usesOf, List.map_map]
    exact hclock.sublist (List.filter_sublist.map _)
  obtain ⟨-, hwindow, hmem⟩ := round_recent hsorted
  rw [fires_on_round hua hclock, huses] at hfires
  rw [huses]
  refine hfires.trans (Finset.card_le_card fun ip hip => ?_)
  obtain ⟨u, hu, hip, hbegun⟩ := hmem ip hip
  exact mem_addressesOf.mpr ⟨u, List.mem_filter.mpr ⟨hu, decide_eq_true (by omega)⟩, hip⟩

/-- One more address, a minute after the first. -/
def sampleLast : Str × Use := ("a", .v4 (.new 9 9 9 9), 1060)

/-- Eight addresses within a minute. -/
theorem caught_crowd_witness :
    UA_THRESHOLD_IP ≤ (addressesOf ((usesOf (fnv64 (utf8 "a")) (sampleCrowd 7 ++ [sampleLast])).filter
      fun u => sampleLast.2.2 ≤ u.2 + UA_WINDOW_SECS)).card := by
  have hua : sampleLast.1 ≠ [] := by decide
  have hclock : ((sampleCrowd 7 ++ [sampleLast]).map fun e => e.2.2).Pairwise (· ≤ ·) := by decide
  have hfires : ((after {} (sampleCrowd 7)).observe sampleLast.2.1 sampleLast.1
      sampleLast.2.2).1 ≠ [] := by
    decide
  exact caught_crowd hua hclock hfires

end Signature

end Waf
