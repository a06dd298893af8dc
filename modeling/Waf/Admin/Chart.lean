import Waf.Lib.Ring
import Waf.Decision

/-!
# The live chart

`Metrics` keeps a ring of sixty buckets for the chart of the dashboard, one for each second modulo 60.
Only a request clears buckets, those between the second of the last request and its own, and the
snapshot hands out the ring as it lies. So position `i` of a snapshot counts the requests of whichever
second with that remainder was kept (`Tape`), and not those of `i` seconds after the oldest. The chart
shows the last minute iff these happen to be as many (`chart_iff`).
-/

namespace Waf
open Lib

namespace Metrics

def RING_BUCKETS : Nat := 60

instance : NeZero RING_BUCKETS := ⟨by decide⟩

structure Bucket where
  allowed : Nat := 0
  challenged : Nat := 0
  blocked : Nat := 0
  deriving DecidableEq

/-- The counters of a bucket. -/
inductive Band where
  | allowed
  | challenged
  | blocked
  deriving DecidableEq

def Bucket.band (b : Bucket) : Band → Nat
  | .allowed => b.allowed
  | .challenged => b.challenged
  | .blocked => b.blocked

/-- A tarpit is drawn as a block. -/
def bandOf : Action → Band
  | .allow => .allowed
  | .challenge => .challenged
  | .block | .tarpit => .blocked

def Bucket.count (b : Bucket) : Action → Bucket
  | .allow => { b with allowed := satAdd32 b.allowed 1 }
  | .challenge => { b with challenged := satAdd32 b.challenged 1 }
  | .block | .tarpit => { b with blocked := satAdd32 b.blocked 1 }

/-- The ring of `Metrics`. -/
structure Chart where
  buckets : Vector Bucket RING_BUCKETS
  headSecs : Nat

namespace Chart

def default : Chart := ⟨Vector.replicate RING_BUCKETS {}, 0⟩

/-- Clear the `drift` buckets after the one of second `head`. -/
def clear (v : Vector Bucket RING_BUCKETS) (head drift : Nat) : Vector Bucket RING_BUCKETS :=
  (List.range drift).foldl (fun v i => v.set (Fin.ofNat RING_BUCKETS (head + i + 1)) {}) v

/-- What `record` does to the ring. -/
def record (c : Chart) (action : Action) (now : Nat) : Chart :=
  let head := if c.headSecs = 0 then now else c.headSecs
  let drift := now - head
  let cleared :=
    if drift ≥ RING_BUCKETS then Vector.replicate RING_BUCKETS {} else clear c.buckets head drift
  let idx := Fin.ofNat RING_BUCKETS now
  ⟨cleared.set idx (cleared[idx].count action), now⟩

/-- The ring of a snapshot. -/
def snapshot (c : Chart) : List Bucket := c.buckets.toList

end Chart

/-- A request that was recorded. -/
structure Hit where
  action : Action
  secs : Nat
  deriving DecidableEq

def Hit.band (h : Hit) : Band := bandOf h.action

/-- The chart after some requests. -/
def chart (hits : List Hit) : Chart := hits.foldl (fun c h => c.record h.action h.secs) Chart.default

/-- The second of the last request, and the requests whose buckets have not been cleared. -/
structure Tape where
  head : Nat := 0
  live : List Hit := []

/-- The second after which a request at `now` clears. After requests in second 0 it clears nothing. -/
def Tape.start (tp : Tape) (now : Nat) : Nat := if tp.head = 0 then now else tp.head

def Tape.record (tp : Tape) (h : Hit) : Tape where
  head := h.secs
  live := (tp.live.filter fun u =>
    !decide (Ring.Passes RING_BUCKETS (tp.start h.secs) h.secs u.secs)) ++ [h]

/-- What is kept of some requests. -/
def tape (hits : List Hit) : Tape := hits.foldl Tape.record {}

variable {c : Chart} {tp : Tape} {h : Hit} {hits : List Hit} {band : Band} {now : Nat}

/-! ## The buckets -/

/-- An action counts in its own band. -/
lemma band_count {b : Bucket} {a : Action} :
    (b.count a).band band = if bandOf a = band then satAdd32 (b.band band) 1 else b.band band := by
  cases a <;> cases band <;> rfl

/-- One counter of all buckets. -/
def bandRing (c : Chart) (band : Band) : Ring RING_BUCKETS where
  buckets := c.buckets.map fun b => b.band band
  headSecs := c.headSecs

/-- The requests on the tape that one counter counts. -/
def Tape.slots (tp : Tape) (band : Band) : Ring.Slots RING_BUCKETS where
  head := tp.head
  live := (tp.live.filter fun u => u.band = band).map Hit.secs

/-- A band is cleared as the ring is. -/
lemma map_clear {v : Vector Bucket RING_BUCKETS} {head drift : Nat} :
    (Chart.clear v head drift).map (fun b => b.band band)
      = Ring.clear (v.map fun b => b.band band) head drift := by
  induction drift with
  | zero => rfl
  | succ d ih =>
    have hclear : Chart.clear v head (d + 1)
        = (Chart.clear v head d).set (Fin.ofNat RING_BUCKETS (head + d + 1)) {} := by
      rw [Chart.clear, Chart.clear, List.range_succ, List.foldl_concat]
    have hring : Ring.clear (v.map fun b => b.band band) head (d + 1)
        = (Ring.clear (v.map fun b => b.band band) head d).set
          (Fin.ofNat RING_BUCKETS (head + d + 1)) 0 := by
      rw [Ring.clear, Ring.clear, List.range_succ, List.foldl_concat]
    rw [hclear, hring, Vector.map_set, ih]
    cases band <;> rfl

/-- The chart holds the requests on the tape. -/
def Holds (c : Chart) (tp : Tape) : Prop :=
  c.headSecs = tp.head ∧ ∀ band, Ring.Holds 1 (bandRing c band) (tp.slots band)

/-- A hit is recorded in the slots of its band. -/
lemma record_slots : (tp.record h).slots band = ⟨h.secs,
    ((tp.slots band).live.filter fun x => !decide (Ring.Passes RING_BUCKETS (tp.start h.secs) h.secs x))
      ++ if h.band = band then [h.secs] else []⟩ := by
  have hone : ([h].filter fun u => decide (u.band = band)).map Hit.secs
      = if h.band = band then [h.secs] else [] := by
    by_cases hband : h.band = band
    case pos => simp [hband]
    case neg => simp [hband]
  rw [Tape.slots, Tape.record, List.filter_append, List.map_append, hone, Tape.slots, List.filter_map,
    List.filter_filter, List.filter_filter]
  congr 3
  refine List.filter_congr fun u _ => ?_
  rw [Bool.and_comm]
  rfl

/-- A counter after the clearing step. -/
lemma cleared_band (hc : Holds c tp) (band : Band) {j : Nat} (hj : j < RING_BUCKETS)
    (head now : Nat) :
    ((if now - head ≥ RING_BUCKETS then Vector.replicate RING_BUCKETS {}
        else Chart.clear c.buckets head (now - head))[j]).band band
      = min (((tp.slots band).live.filter fun x =>
          !decide (Ring.Passes RING_BUCKETS head now x)).countP fun x => x % RING_BUCKETS = j)
          u32Max := by
  have hring : Ring.Holds 1 ⟨(bandRing c band).buckets, head⟩ ⟨head, (tp.slots band).live⟩ :=
    ⟨Nat.div_one head, (hc.2 band).slot⟩
  rw [← Ring.cleared_holds hring hj]
  split
  case isTrue =>
    rw [Vector.getElem_replicate, Vector.getElem_replicate]
    cases band <;> rfl
  case isFalse =>
    show _ = (Ring.clear (c.buckets.map fun b => b.band band) head (now - head))[j]
    rw [← map_clear, Vector.getElem_map]

/-- One more request: its bucket counts it, those that it passes are cleared. -/
lemma record_holds (hc : Holds c tp) : Holds (c.record h.action h.secs) (tp.record h) := by
  have hstart : (if c.headSecs = 0 then h.secs else c.headSecs) = tp.start h.secs := by
    rw [hc.1, Tape.start]
  refine ⟨rfl, fun band => ⟨Nat.div_one _, fun j hj => ?_⟩⟩
  have hcleared := cleared_band hc band hj (tp.start h.secs) h.secs
  rw [record_slots, List.countP_append]
  show ((c.record h.action h.secs).buckets.map fun b => b.band band)[j] = _
  rw [Vector.getElem_map]
  simp only [Chart.record, hstart, Vector.getElem_set, Fin.val_ofNat, Fin.getElem_fin]
  by_cases hbucket : h.secs % RING_BUCKETS = j
  case pos =>
    subst hbucket
    rw [if_pos rfl, band_count, hcleared]
    by_cases hband : h.band = band
    case pos =>
      have hbandOf : bandOf h.action = band := hband
      rw [if_pos hbandOf, if_pos hband, List.countP_singleton, decide_eq_true rfl, if_pos rfl, satAdd32]
      omega
    case neg =>
      have hbandOf : bandOf h.action ≠ band := hband
      rw [if_neg hbandOf, if_neg hband, List.countP_nil, Nat.add_zero]
  case neg =>
    rw [if_neg hbucket, hcleared]
    congr 1
    by_cases hband : h.band = band
    case pos =>
      rw [if_pos hband, List.countP_singleton, decide_eq_false hbucket, if_neg Bool.false_ne_true,
        Nat.add_zero]
    case neg => rw [if_neg hband, List.countP_nil, Nat.add_zero]

/-- The chart holds what is on its tapes. -/
lemma chart_holds : Holds (chart hits) (tape hits) := by
  induction hits using List.reverseRecOn with
  | nil =>
    refine ⟨rfl, fun band => ⟨Nat.div_one 0, fun j hj => ?_⟩⟩
    show ((Vector.replicate RING_BUCKETS ({} : Bucket)).map fun b => b.band band)[j] = _
    rw [Vector.getElem_map, Vector.getElem_replicate]
    cases band <;> rfl
  | append_singleton hits h ih =>
    rw [chart, tape, List.foldl_concat, List.foldl_concat]
    exact record_holds ih

lemma snapshot_getD {j : Nat} (hj : j < RING_BUCKETS) : c.snapshot.getD j {} = c.buckets[j] := by
  have hlength : j < c.snapshot.length := by
    rw [Chart.snapshot, Vector.length_toList]
    exact hj
  rw [List.getD_eq_getElem?_getD, List.getElem?_eq_getElem hlength, Option.getD_some]
  exact Vector.getElem_toList ..

/-- What position `j` of a snapshot shows: the requests on the tape with that remainder. -/
lemma snapshot_band {j : Nat} (hj : j < RING_BUCKETS) : ((chart hits).snapshot.getD j {}).band band
    = min ((tape hits).live.countP fun u => u.secs % RING_BUCKETS = j ∧ u.band = band) u32Max := by
  have holds : Holds (chart hits) (tape hits) := chart_holds
  have hslot := (holds.2 band).slot j hj
  rw [bandRing, Vector.getElem_map, Tape.slots, List.countP_map, List.countP_filter] at hslot
  rw [snapshot_getD hj, hslot]
  congr 1
  refine List.countP_congr fun u _ => ?_
  rw [Function.comp_apply, Bool.and_eq_true, decide_eq_true_iff, decide_eq_true_iff,
    decide_eq_true_iff]

/-! ## The last minute -/

/-- A snapshot lists the seconds of the minute up to `t`, and its buckets add up to that minute. -/
structure Shows (ring : List Bucket) (hits : List Hit) (t : Nat) : Prop where
  length : ring.length = RING_BUCKETS
  bucket : ∀ i < RING_BUCKETS, ∀ band, (ring.getD i {}).band band
    = hits.countP fun u => u.secs + 59 = t + i ∧ u.band = band
  total : (ring.map fun b => b.allowed + b.challenged + b.blocked).sum
    = hits.countP fun u => t < u.secs + 60

/-- Every request of the minute is in one of its seconds. -/
lemma sum_seconds {t : Nat} (hlate : ∀ u ∈ hits, u.secs ≤ t) :
    ((List.range RING_BUCKETS).map fun i => hits.countP fun u => u.secs + 59 = t + i).sum
      = hits.countP fun u => t < u.secs + 60 := by
  have hsum := Ring.sum_countP_mod (n := RING_BUCKETS) (fun _ => true)
    ((hits.filter fun u => t < u.secs + 60).map fun u => u.secs + 59 - t)
  simp only [and_true, List.countP_true, List.length_map] at hsum
  rw [List.countP_eq_length_filter, ← hsum]
  refine congrArg List.sum (List.map_congr_left fun i hi => ?_)
  rw [List.countP_map, List.countP_filter]
  refine List.countP_congr fun u hu => ?_
  have hle := hlate u hu
  have hlt := List.mem_range.mp hi
  have hsize : RING_BUCKETS = 60 := rfl
  rw [Function.comp_apply, Bool.and_eq_true, decide_eq_true_iff, decide_eq_true_iff,
    decide_eq_true_iff]
  rw [hsize] at hlt ⊢
  omega

/-- The three bands are all hits. -/
lemma sum_bands {i t : Nat} : hits.countP (fun u => u.secs + 59 = t + i ∧ u.band = .allowed)
      + hits.countP (fun u => u.secs + 59 = t + i ∧ u.band = .challenged)
      + hits.countP (fun u => u.secs + 59 = t + i ∧ u.band = .blocked)
    = hits.countP fun u => u.secs + 59 = t + i := by
  induction hits with
  | nil => rfl
  | cons h hits ih =>
    simp only [List.countP_cons, ← ih]
    cases h.band <;> simp <;> omega

/-- Buckets that show the seconds of a minute add up to it. -/
lemma shows_of_buckets {ring : List Bucket} {t : Nat} (hlength : ring.length = RING_BUCKETS)
    (hlate : ∀ u ∈ hits, u.secs ≤ t)
    (hbucket : ∀ i < RING_BUCKETS, ∀ band, (ring.getD i {}).band band
      = hits.countP fun u => u.secs + 59 = t + i ∧ u.band = band) : Shows ring hits t := by
  refine ⟨hlength, hbucket, ?_⟩
  have hring : ring = (List.range RING_BUCKETS).map fun i => ring.getD i {} := by
    refine List.ext_getElem ?_ fun i hi _ => ?_
    · rw [List.length_map, List.length_range, hlength]
    · rw [List.getElem_map, List.getElem_range, List.getD_eq_getElem?_getD,
        List.getElem?_eq_getElem hi, Option.getD_some]
  rw [hring, List.map_map, ← sum_seconds hlate]
  refine congrArg List.sum (List.map_congr_left fun i hi => ?_)
  have hi' := List.mem_range.mp hi
  have hallowed := hbucket i hi' .allowed
  have hchallenged := hbucket i hi' .challenged
  have hblocked := hbucket i hi' .blocked
  rw [← sum_bands, ← hallowed, ← hchallenged, ← hblocked]
  rfl

/-- The second of the last request. -/
def lastSecs (hits : List Hit) : Nat := (hits.getLast?.map Hit.secs).getD 0

/-- The tapes are at the second of the last hit. -/
lemma tape_head : (tape hits).head = lastSecs hits := by
  cases hits using List.reverseRecOn with
  | nil => rfl
  | append_singleton hits h =>
    rw [tape, List.foldl_concat, lastSecs, List.getLast?_concat]
    rfl

/-- A later request passes the buckets of the requests that are a minute old by then. -/
lemma passes_iff {head x : Nat} (hx : x ≤ head) (hkept : head < x + 60) :
    Ring.Passes RING_BUCKETS head now x ↔ x + 60 ≤ now := by
  have hsize : RING_BUCKETS = 60 := rfl
  rw [Ring.Passes, hsize]
  constructor
  · rintro ⟨i, hi, hmod⟩
    omega
  · intro hold
    exact ⟨x + 60 - head - 1, by omega, by omega⟩

lemma lastSecs_concat : lastSecs (hits ++ [h]) = h.secs := by
  rw [lastSecs, List.getLast?_concat]
  rfl

/-- The last request is the latest one. -/
lemma le_lastSecs (hsorted : (hits.map Hit.secs).Pairwise (· ≤ ·)) {u : Hit} (hu : u ∈ hits) :
    u.secs ≤ lastSecs hits := by
  cases hits using List.reverseRecOn with
  | nil => cases hu
  | append_singleton hits h =>
    rw [lastSecs_concat]
    rw [List.map_append] at hsorted
    rcases List.mem_append.mp hu with hu | hu
    · exact (List.pairwise_append.mp hsorted).2.2 u.secs (List.mem_map_of_mem hu) h.secs (.head _)
    · rw [List.mem_singleton.mp hu]

/-- On a positive clock the tape keeps the minute up to the last request. -/
lemma tape_live (hsorted : (hits.map Hit.secs).Pairwise (· ≤ ·)) (hpos : ∀ u ∈ hits, 0 < u.secs) :
    (tape hits).live = hits.filter fun u => lastSecs hits < u.secs + 60 := by
  induction hits using List.reverseRecOn with
  | nil => rfl
  | append_singleton hits h ih =>
    rw [List.map_append] at hsorted
    obtain ⟨hhits, -, hle⟩ := List.pairwise_append.mp hsorted
    have hlive := ih hhits fun u hu => hpos u (List.mem_append_left _ hu)
    have hone : [h].filter (fun u => decide (h.secs < u.secs + 60)) = [h] :=
      List.filter_eq_self.mpr fun u hu => by
        rw [List.mem_singleton.mp hu]
        exact decide_eq_true (by omega)
    rw [lastSecs_concat, List.filter_append, hone, tape, List.foldl_concat, ← tape, Tape.record]
    show List.filter _ (tape hits).live ++ [h] = _
    rw [hlive, List.filter_filter]
    congr 1
    refine List.filter_congr fun u hu => ?_
    have hule := le_lastSecs hhits hu
    have hupos := hpos u (List.mem_append_left _ hu)
    have hhead : lastSecs hits ≤ h.secs := by
      cases hits using List.reverseRecOn with
      | nil => exact Nat.zero_le _
      | append_singleton hits v =>
        rw [lastSecs_concat]
        exact hle v.secs (List.mem_map_of_mem (List.mem_append_right _ (.head _))) h.secs (.head _)
    have hstart : (tape hits).start h.secs = lastSecs hits := by
      rw [Tape.start, tape_head, if_neg (by omega)]
    rw [hstart, Bool.eq_iff_iff, Bool.and_eq_true, Bool.not_eq_true', decide_eq_false_iff_not,
      decide_eq_true_iff, decide_eq_true_iff]
    constructor
    · rintro ⟨hpass, hkept⟩
      rw [passes_iff hule hkept] at hpass
      omega
    · intro hkept
      have hkept' : lastSecs hits < u.secs + 60 := by omega
      rw [passes_iff hule hkept']
      omega

/-- A snapshot shows the last minute iff for each of its seconds the bucket at that position has kept as
many requests, whichever second they were in. On a positive clock those kept are the requests of the
minute up to the last one. -/
theorem chart_iff {t : Nat} (sorted : (hits.map Hit.secs).Pairwise (· ≤ ·))
    (late : ∀ u ∈ hits, u.secs ≤ t) :
    (Shows (chart hits).snapshot hits t
        ↔ ∀ i < RING_BUCKETS, ∀ band,
          min ((tape hits).live.countP fun u => u.secs % RING_BUCKETS = i ∧ u.band = band) u32Max
            = hits.countP fun u => u.secs + 59 = t + i ∧ u.band = band)
      ∧ ((∀ u ∈ hits, 0 < u.secs) →
        (tape hits).live = hits.filter fun u => lastSecs hits < u.secs + 60) := by
  refine ⟨⟨fun hshows i hi band => ?_, fun hkept => ?_⟩, tape_live sorted⟩
  · rw [← snapshot_band hi]
    exact hshows.bucket i hi band
  · refine shows_of_buckets (Vector.length_toList ..) late fun i hi band => ?_
    rw [snapshot_band hi]
    exact hkept i hi band

/-- Requests of four seconds, of which the first is more than a minute before the last. -/
def minuteHits : List Hit := [⟨.allow, 50⟩, ⟨.block, 61⟩, ⟨.allow, 118⟩, ⟨.allow, 118⟩, ⟨.challenge, 119⟩]

/-- A snapshot in the last second of a minute of the clock shows the others. -/
theorem minute_shown_iff :
    (Shows (chart minuteHits).snapshot minuteHits 119 ↔ ∀ i < RING_BUCKETS, ∀ band,
        min ((tape minuteHits).live.countP fun u => u.secs % RING_BUCKETS = i ∧ u.band = band) u32Max
          = minuteHits.countP fun u => u.secs + 59 = 119 + i ∧ u.band = band)
      ∧ (tape minuteHits).live = minuteHits.filter (fun u => lastSecs minuteHits < u.secs + 60)
      ∧ minuteHits.filter (fun u => lastSecs minuteHits < u.secs + 60) = minuteHits.drop 1 := by
  have h : _ ∧ _ := @chart_iff minuteHits 119 (by decide) (by decide)
  exact ⟨h.1, h.2 (by decide), by decide⟩

/-- A request that is shown at position 40 instead of the last one. -/
theorem hit_misplaced : ¬ ∀ (hits : List Hit) (t : Nat), (hits.map Hit.secs).Pairwise (· ≤ ·) →
    (∀ u ∈ hits, u.secs ≤ t) → Shows (chart hits).snapshot hits t := by
  intro h
  have hshows := h [⟨.allow, 100⟩] 100 (by decide) (by decide)
  have hlast := hshows.bucket 59 (by decide) .allowed
  rw [snapshot_band (by decide)] at hlast
  have hnot : min ((tape [⟨.allow, 100⟩]).live.countP fun u =>
      u.secs % RING_BUCKETS = 59 ∧ u.band = .allowed) u32Max
        ≠ [(⟨.allow, 100⟩ : Hit)].countP fun u => u.secs + 59 = 100 + 59 ∧ u.band = .allowed := by decide
  exact hnot hlast

end Metrics

end Waf
