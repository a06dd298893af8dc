import Waf.Admin
import Waf.Engine.Allow

/-!
# The watchdog

`AutoUamService` of `admin.rs` raises the UAM level while requests are blocked at the threshold or
above, and lowers it at a quarter of the threshold or below, once in 30 seconds at most. The two
bounds only meet for the threshold 0: a rate of 0 is then high enough to raise the level up to 4 and
low enough to lower it from there, so that it swings between 3 and 4 (`steady_iff`).
-/

namespace Waf
open Lib

/-- The state of the loop, with the settings that it reads and writes and their file. -/
structure Watchdog where
  runtime : Runtime
  runtimeDisk : RuntimeDisk
  prevBlocks : Nat
  lastChange : Nat := 0

/-- What a tick of the loop reads: the counter of blocks and the clock, in seconds. -/
structure Tick where
  blocked : Nat
  now : Nat

namespace Watchdog

def level (w : Watchdog) : Nat := w.runtime.uamLevel

/-- The blocks per second that a tick measures. -/
def bps (w : Watchdog) (t : Tick) : Nat := (t.blocked - w.prevBlocks) / 5 % 2 ^ 32

/-- The level that a tick would set. -/
def next (w : Watchdog) (t : Tick) : Nat :=
  Runtime.autoUamNext w.level w.runtime.autoUamThreshold (w.bps t)

def tick (w : Watchdog) (t : Tick) : Watchdog :=
  if w.runtime.autoUamEnabled = false then { w with prevBlocks := t.blocked }
  else if t.now - w.lastChange < 30 then { w with prevBlocks := t.blocked }
  else if w.next t ≠ w.level then
    let rt := w.runtime.autoUam (w.bps t)
    { runtime := rt
      runtimeDisk := rt.persist w.runtimeDisk
      prevBlocks := t.blocked
      lastChange := t.now }
  else { w with prevBlocks := t.blocked }

def run (w : Watchdog) (ts : List Tick) : Watchdog := ts.foldl tick w

/-! ## Steadiness -/

/-- The levels before the first tick and after each one. -/
def levels (w : Watchdog) : List Tick → List Nat
  | [] => [w.level]
  | t :: ts => w.level :: (w.tick t).levels ts

/-- The rates that the ticks measure. -/
def rates (w : Watchdog) : List Tick → List Nat
  | [] => []
  | t :: ts => w.bps t :: (w.tick t).rates ts

/-- The times of the ticks that change the level. -/
def changes (w : Watchdog) : List Tick → List Nat
  | [] => []
  | t :: ts =>
    if (w.tick t).level ≠ w.level then t.now :: (w.tick t).changes ts else (w.tick t).changes ts

/-- The last change of the level is 30 seconds ago. -/
def Due (w : Watchdog) (t : Tick) : Prop := 30 ≤ t.now - w.lastChange

instance {w : Watchdog} {t : Tick} : Decidable (w.Due t) := Nat.decLe _ _

/-- The levels that the ticks find which come 30 seconds after the last change. -/
def dues (w : Watchdog) : List Tick → List Nat
  | [] => []
  | t :: ts => if w.Due t then w.level :: (w.tick t).dues ts else (w.tick t).dues ts

/-- The level stays in its range, moves by one at a time and at most once in 30 seconds, and does not
turn while the same rate is measured. -/
structure Steady (w : Watchdog) (ts : List Tick) : Prop where
  inRange : ∀ l ∈ w.levels ts, l ≤ 4
  byOne : (w.levels ts).IsChain fun a b => b = a ∨ b = a + 1 ∨ a = b + 1
  apart : (w.changes ts).Pairwise fun a b => a + 30 ≤ b
  settles : ∀ pre seg rate, pre ++ seg <+: ts → (∀ r ∈ (w.run pre).rates seg, r = rate) →
    ((w.run pre).levels seg).Pairwise (· ≤ ·) ∨ ((w.run pre).levels seg).Pairwise (· ≥ ·)

/-- With the threshold 0, a tick that finds the level 4 is the only one in any stretch without blocks
that comes 30 seconds after the last change. -/
def Calm (w : Watchdog) (ts : List Tick) : Prop :=
  w.runtime.autoUamThreshold = 0 → ∀ pre seg, pre ++ seg <+: ts →
    (∀ r ∈ (w.run pre).rates seg, r = 0) → 4 ∈ (w.run pre).dues seg → (w.run pre).dues seg = [4]

variable {w : Watchdog} {t : Tick} {ts : List Tick} {thresh rate : Nat}

/-- A loop that is switched on, with a threshold. -/
structure On (w : Watchdog) (thresh : Nat) : Prop where
  enabled : w.runtime.autoUamEnabled = true
  threshold : w.runtime.autoUamThreshold = thresh
  inRange : w.level ≤ 4

lemma next_le (h : w.level ≤ 4) : w.next t ≤ 4 := by
  rw [next, Runtime.autoUamNext]
  split
  case isTrue hup => exact hup.2
  case isFalse =>
    split
    case isTrue => exact (Nat.sub_le _ _).trans h
    case isFalse => exact h

/-- A tick sets the next level when the loop is on and the last change is 30 seconds ago. -/
lemma tick_runtime : (w.tick t).runtime =
    if w.runtime.autoUamEnabled = true ∧ w.Due t then { w.runtime with uamLevel := w.next t }
    else w.runtime := by
  rw [tick]
  by_cases hon : w.runtime.autoUamEnabled = true
  case neg => rw [if_pos (Bool.eq_false_of_not_eq_true hon), if_neg fun h => hon h.1]
  case pos =>
    rw [if_neg (Bool.not_eq_false _ ▸ hon)]
    by_cases hdue : w.Due t
    case neg => rw [if_pos (Nat.not_le.mp hdue), if_neg fun h => hdue h.2]
    case pos =>
      rw [if_neg (Nat.not_lt.mpr hdue)]
      by_cases hmove : w.next t ≠ w.level
      case pos =>
        rw [if_pos hmove, if_pos ⟨hon, hdue⟩]
        rfl
      case neg =>
        rw [if_neg hmove, if_pos ⟨hon, hdue⟩, not_not.mp hmove]
        rfl

/-- A tick notes its time when it changes the level. -/
lemma tick_lastChange : (w.tick t).lastChange =
    if w.runtime.autoUamEnabled = true ∧ w.Due t ∧ w.next t ≠ w.level then t.now
    else w.lastChange := by
  rw [tick]
  by_cases hon : w.runtime.autoUamEnabled = true
  case neg => rw [if_pos (Bool.eq_false_of_not_eq_true hon), if_neg fun h => hon h.1]
  case pos =>
    rw [if_neg (Bool.not_eq_false _ ▸ hon)]
    by_cases hdue : w.Due t
    case neg => rw [if_pos (Nat.not_le.mp hdue), if_neg fun h => hdue h.2.1]
    case pos =>
      rw [if_neg (Nat.not_lt.mpr hdue)]
      by_cases hmove : w.next t ≠ w.level
      case pos => rw [if_pos hmove, if_pos ⟨hon, hdue, hmove⟩]
      case neg => rw [if_neg hmove, if_neg fun h => hmove h.2.2]

/-- What a tick does to a loop that is on. -/
lemma tick_cases (h : w.On thresh) :
    (¬ w.Due t ∧ (w.tick t).level = w.level ∧ (w.tick t).lastChange = w.lastChange) ∨
    (w.Due t ∧ (w.tick t).level = w.next t ∧
      (w.tick t).lastChange = if w.next t ≠ w.level then t.now else w.lastChange) := by
  rw [level, level, tick_runtime, tick_lastChange]
  by_cases hdue : w.Due t
  case neg =>
    rw [if_neg fun h => hdue h.2, if_neg fun h => hdue h.2.1]
    exact .inl ⟨hdue, rfl, rfl⟩
  case pos =>
    rw [if_pos ⟨h.enabled, hdue⟩]
    refine .inr ⟨hdue, rfl, ?_⟩
    exact if_congr ((and_iff_right h.enabled).trans (and_iff_right hdue)) rfl rfl

/-- A tick leaves the controller on. -/
lemma On.tick (h : w.On thresh) : (w.tick t).On thresh := by
  have hrange : (w.tick t).level ≤ 4 := by
    obtain ⟨-, hlevel, -⟩ | ⟨-, hlevel, -⟩ := tick_cases (t := t) h
    · rw [hlevel]
      exact h.inRange
    · rw [hlevel]
      exact next_le h.inRange
  refine ⟨?_, ?_, hrange⟩
  · rw [tick_runtime]
    split
    case isTrue => exact h.enabled
    case isFalse => exact h.enabled
  · rw [tick_runtime]
    split
    case isTrue => exact h.threshold
    case isFalse => exact h.threshold

lemma On.run (h : w.On thresh) : (w.run ts).On thresh := by
  induction ts generalizing w with
  | nil => exact h
  | cons t ts ih => exact ih h.tick

/-- A tick that changes the level comes 30 seconds after the last change. -/
lemma tick_moved (h : w.On thresh) (hmoved : (w.tick t).level ≠ w.level) :
    w.Due t ∧ (w.tick t).lastChange = t.now := by
  obtain ⟨-, hlevel, -⟩ | ⟨hdue, hlevel, hlast⟩ := tick_cases (t := t) h
  · exact absurd hlevel hmoved
  · rw [hlevel] at hmoved
    rw [if_pos hmoved] at hlast
    exact ⟨hdue, hlast⟩

/-- A tick that keeps the level keeps the time of the last change. -/
lemma tick_kept (h : w.On thresh) (hkept : (w.tick t).level = w.level) :
    (w.tick t).lastChange = w.lastChange := by
  obtain ⟨-, -, hlast⟩ | ⟨-, hlevel, hlast⟩ := tick_cases (t := t) h
  · exact hlast
  · rw [hlevel] at hkept
    rw [if_neg (not_not_intro hkept)] at hlast
    exact hlast

/-- A level moves by at most one. -/
lemma next_byOne : w.next t = w.level ∨ w.next t = w.level + 1 ∨ w.level = w.next t + 1 := by
  rw [next, Runtime.autoUamNext]
  split
  case isTrue => exact .inr (.inl rfl)
  case isFalse =>
    split
    case isTrue hdown => exact .inr (.inr (Nat.sub_add_cancel hdown.2).symm)
    case isFalse => exact .inl rfl

lemma isChain_levels_cons {R : Nat → Nat → Prop} : (w.levels (t :: ts)).IsChain R ↔
    R w.level (w.tick t).level ∧ ((w.tick t).levels ts).IsChain R := by
  cases ts with
  | nil => exact List.isChain_cons_cons
  | cons t' ts => exact List.isChain_cons_cons

lemma levels_le (h : w.On thresh) : ∀ l ∈ w.levels ts, l ≤ 4 := by
  induction ts generalizing w with
  | nil =>
    intro l hl
    obtain rfl := List.mem_singleton.mp hl
    exact h.inRange
  | cons t ts ih =>
    intro l hl
    obtain rfl | hl := List.mem_cons.mp hl
    · exact h.inRange
    · exact ih h.tick l hl

/-- The level changes by one at a time. -/
lemma levels_byOne (h : w.On thresh) :
    (w.levels ts).IsChain fun a b => b = a ∨ b = a + 1 ∨ a = b + 1 := by
  induction ts generalizing w with
  | nil => exact .singleton _
  | cons t ts ih =>
    refine isChain_levels_cons.mpr ⟨?_, ih h.tick⟩
    obtain ⟨-, hlevel, -⟩ | ⟨-, hlevel, -⟩ := tick_cases (t := t) h
    · exact .inl hlevel
    · rw [hlevel]
      exact next_byOne

/-- The changes come 30 seconds after the last one. -/
lemma changes_after (h : w.On thresh) : ∀ c ∈ w.changes ts, w.lastChange + 30 ≤ c := by
  induction ts generalizing w with
  | nil => exact fun c hc => absurd hc List.not_mem_nil
  | cons t ts ih =>
    intro c hc
    rw [changes] at hc
    split at hc
    case isTrue hmoved =>
      obtain ⟨hdue, hlast⟩ := tick_moved h hmoved
      have hnow : w.lastChange + 30 ≤ t.now := by
        have := hdue
        rw [Due] at this
        omega
      obtain rfl | hc := List.mem_cons.mp hc
      · exact hnow
      · have hlater := ih h.tick c hc
        rw [hlast] at hlater
        omega
    case isFalse hkept =>
      have hlater := ih h.tick c hc
      rw [tick_kept h (not_not.mp hkept)] at hlater
      exact hlater

/-- Changes are thirty seconds apart. -/
lemma changes_apart (h : w.On thresh) : (w.changes ts).Pairwise fun a b => a + 30 ≤ b := by
  induction ts generalizing w with
  | nil => exact .nil
  | cons t ts ih =>
    rw [changes]
    split
    case isTrue hmoved =>
      refine List.pairwise_cons.mpr ⟨fun c hc => ?_, ih h.tick⟩
      have hlater := changes_after h.tick c hc
      rw [(tick_moved h hmoved).2] at hlater
      exact hlater
    case isFalse => exact ih h.tick

/-! ## Stretches in which one rate is measured -/

lemma rates_cons (hrates : ∀ r ∈ w.rates (t :: ts), r = rate) :
    w.bps t = rate ∧ ∀ r ∈ (w.tick t).rates ts, r = rate :=
  ⟨hrates _ (.head _), fun r hr => hrates r (.tail _ hr)⟩

lemma dues_le (h : w.On thresh) : ∀ l ∈ w.dues ts, l ≤ 4 := by
  induction ts generalizing w with
  | nil => exact fun l hl => absurd hl List.not_mem_nil
  | cons t ts ih =>
    intro l hl
    rw [dues] at hl
    split at hl
    case isTrue =>
      obtain rfl | hl := List.mem_cons.mp hl
      · exact h.inRange
      · exact ih h.tick l hl
    case isFalse => exact ih h.tick l hl

/-- The levels go one way iff the rate leads that way from the levels of all ticks that are due. -/
lemma isChain_levels_iff {R : Nat → Nat → Prop} (hrefl : ∀ l, R l l) (h : w.On thresh)
    (hrates : ∀ r ∈ w.rates ts, r = rate) :
    (w.levels ts).IsChain R ↔ ∀ l ∈ w.dues ts, R l (Runtime.autoUamNext l thresh rate) := by
  induction ts generalizing w with
  | nil => exact iff_of_true (.singleton _) fun l hl => absurd hl List.not_mem_nil
  | cons t ts ih =>
    obtain ⟨hbps, hrates⟩ := rates_cons hrates
    rw [isChain_levels_cons, ih h.tick hrates, dues]
    obtain ⟨hdue, hlevel, -⟩ | ⟨hdue, hlevel, -⟩ := tick_cases (t := t) h
    · rw [if_neg hdue, hlevel]
      exact and_iff_right (hrefl _)
    · rw [if_pos hdue, hlevel, List.forall_mem_cons, next, h.threshold, hbps]

/-- The levels of the ticks that are due follow each other. -/
lemma dues_chain (h : w.On thresh) (hrates : ∀ r ∈ w.rates ts, r = rate) :
    ((w.dues ts).IsChain fun a b => b = Runtime.autoUamNext a thresh rate) ∧
      ∀ l ∈ (w.dues ts).head?, l = w.level := by
  induction ts generalizing w with
  | nil => exact ⟨.nil, nofun⟩
  | cons t ts ih =>
    obtain ⟨hbps, hrates⟩ := rates_cons hrates
    obtain ⟨hchain, hhead⟩ := ih h.tick hrates
    rw [dues]
    obtain ⟨hdue, hlevel, -⟩ | ⟨hdue, hlevel, -⟩ := tick_cases (t := t) h
    · rw [if_neg hdue, ← hlevel]
      exact ⟨hchain, hhead⟩
    · rw [if_pos hdue]
      refine ⟨List.isChain_cons.mpr ⟨fun l hl => ?_, hchain⟩, fun l hl => ?_⟩
      · rw [hhead l hl, hlevel, next, h.threshold, hbps]
      · exact (Option.some.inj hl).symm

/-- Unless the threshold and the rate are 0, the rate leads one way from all levels. -/
lemma next_oneWay (h : ¬ (thresh = 0 ∧ rate = 0)) :
    (∀ l ≤ 4, l ≤ Runtime.autoUamNext l thresh rate) ∨
      ∀ l ≤ 4, Runtime.autoUamNext l thresh rate ≤ l := by
  by_cases hup : thresh ≤ rate
  · refine .inl fun l hl => ?_
    rw [Runtime.autoUamNext]
    split_ifs <;> omega
  · refine .inr fun l hl => ?_
    rw [Runtime.autoUamNext]
    split_ifs <;> omega

lemma next_zero {l : Nat} (h : l ≤ 4) :
    Runtime.autoUamNext l 0 0 = if l = 4 then 3 else l + 1 := by
  rw [Runtime.autoUamNext]
  split_ifs <;> omega

/-- The levels do not turn iff the rate leads one way from the levels of all ticks that are due. -/
lemma settles_iff (h : w.On thresh) (hrates : ∀ r ∈ w.rates ts, r = rate) :
    ((w.levels ts).Pairwise (· ≤ ·) ∨ (w.levels ts).Pairwise (· ≥ ·)) ↔
      (∀ l ∈ w.dues ts, l ≤ Runtime.autoUamNext l thresh rate) ∨
        ∀ l ∈ w.dues ts, Runtime.autoUamNext l thresh rate ≤ l := by
  have hup := isChain_levels_iff (R := (· ≤ ·)) le_refl h hrates
  have hdown := isChain_levels_iff (R := (· ≥ ·)) le_refl h hrates
  rw [List.isChain_iff_pairwise] at hup hdown
  rw [hup, hdown]

/-- The levels turn under the threshold 0 and the rate 0 iff a tick that is due finds the level 4 and
is not alone. -/
lemma settles_zero_iff (h : w.On 0) (hrates : ∀ r ∈ w.rates ts, r = 0) :
    ((w.levels ts).Pairwise (· ≤ ·) ∨ (w.levels ts).Pairwise (· ≥ ·)) ↔
      (4 ∈ w.dues ts → w.dues ts = [4]) := by
  rw [settles_iff h hrates]
  constructor
  · rintro (hall | hall) hfour
    · have hle := hall 4 hfour
      rw [next_zero le_rfl] at hle
      exact absurd hle (by decide)
    · have hfours : ∀ l ∈ w.dues ts, l = 4 := by
        intro l hl
        have hge := hall l hl
        rw [next_zero (dues_le h l hl)] at hge
        by_contra hne
        rw [if_neg hne] at hge
        exact absurd hge (Nat.not_succ_le_self l)
      -- after a level of 4 comes one of 3
      obtain ⟨hchain, -⟩ := dues_chain h hrates
      match hdues : w.dues ts with
      | [] => rw [hdues] at hfour; cases hfour
      | [l] =>
        rw [hfours l (by rw [hdues]; exact .head _)]
      | l :: l' :: ls =>
        rw [hdues] at hfours hchain
        have hnext := (List.isChain_cons_cons.mp hchain).1
        rw [hfours l (.head _), hfours l' (.tail _ (.head _))] at hnext
        cases hnext
  · intro halone
    by_cases hfour : 4 ∈ w.dues ts
    · refine .inr fun l hl => ?_
      rw [halone hfour] at hl
      obtain rfl := List.mem_singleton.mp hl
      decide
    · refine .inl fun l hl => ?_
      have hne : l ≠ 4 := by
        rintro rfl
        exact hfour hl
      rw [next_zero (dues_le h l hl), if_neg hne]
      exact Nat.le_succ l

/-- The levels do not turn while one rate is measured, unless the threshold and the rate are 0. -/
lemma settles_of_ne (h : w.On thresh) (hrates : ∀ r ∈ w.rates ts, r = rate)
    (hne : ¬ (thresh = 0 ∧ rate = 0)) :
    (w.levels ts).Pairwise (· ≤ ·) ∨ (w.levels ts).Pairwise (· ≥ ·) := by
  rw [settles_iff h hrates]
  obtain hway | hway := next_oneWay hne
  · exact .inl fun l hl => hway l (dues_le h l hl)
  · exact .inr fun l hl => hway l (dues_le h l hl)

/-- A loop that is on is steady iff with the threshold 0 no stretch without blocks has two ticks that
are due, one of which finds the level 4. -/
theorem steady_iff (hon : w.runtime.autoUamEnabled = true) (hlevel : w.level ≤ 4) :
    w.Steady ts ↔ w.Calm ts := by
  have h : w.On w.runtime.autoUamThreshold := ⟨hon, rfl, hlevel⟩
  constructor
  · intro hsteady hzero pre seg hpre hrates
    rw [hzero] at h
    exact (settles_zero_iff h.run hrates).mp (hsteady.settles pre seg 0 hpre hrates)
  · intro hcalm
    refine ⟨levels_le h, levels_byOne h, changes_apart h, fun pre seg rate hpre hrates => ?_⟩
    by_cases hzero : w.runtime.autoUamThreshold = 0 ∧ rate = 0
    case pos =>
      obtain ⟨hthresh, rfl⟩ := hzero
      rw [hthresh] at h
      exact (settles_zero_iff h.run hrates).mpr (hcalm hthresh pre seg hpre hrates)
    case neg => exact settles_of_ne h.run hrates hzero

/-- A loop with the threshold 0, at the highest level. -/
def eager : Watchdog where
  runtime := { Runtime.fromConfig Engine.sampleCfg with
    uamLevel := 4
    autoUamEnabled := true
    autoUamThreshold := 0 }
  runtimeDisk := fun _ => none
  prevBlocks := 0

/-- Two ticks without a block, 30 seconds apart. -/
def quiet : List Tick := [⟨0, 1000⟩, ⟨0, 1030⟩]

/-- Without a block the level falls from 4 and rises again. -/
theorem eager_swings : ¬ eager.Steady quiet := by
  intro h
  have hlevels : eager.levels quiet = [4, 3, 4] := by decide
  have hrates : ∀ r ∈ eager.rates quiet, r = 0 := by decide
  have hsettles := h.settles [] quiet 0 List.prefix_rfl hrates
  rw [show (eager.run []).levels quiet = [4, 3, 4] from hlevels] at hsettles
  exact absurd hsettles (by decide)

/-- A threshold of zero. -/
theorem eager_steady_iff : eager.Steady quiet ↔ eager.Calm quiet := steady_iff rfl le_rfl

end Watchdog

end Waf
