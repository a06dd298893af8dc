import Waf.Admin.AutoUam

/-!
# Blocks and tarpits

The proxy records every decision in the counters of `metrics.rs`, and the watchdog reads the one of
the blocks. A tarpit has a counter of its own, which nothing escalates on. So an attack that is
tarpitted instead of blocked keeps the level up iff the watchdog would also have seen it without those
requests (`hardened_iff`).
-/

namespace Waf
open Lib

/-- The counters of `Metrics` that `record` keeps by action. -/
structure ActionCounts where
  allowed : Nat := 0
  challenged : Nat := 0
  blocked : Nat := 0
  tarpit : Nat := 0

def ActionCounts.record (c : ActionCounts) : Action → ActionCounts
  | .allow => { c with allowed := (c.allowed + 1) % 2 ^ 64 }
  | .challenge => { c with challenged := (c.challenged + 1) % 2 ^ 64 }
  | .block => { c with blocked := (c.blocked + 1) % 2 ^ 64 }
  | .tarpit => { c with tarpit := (c.tarpit + 1) % 2 ^ 64 }

/-- A request ends, or the loop of the watchdog ticks. -/
inductive Traffic where
  | request (a : Action)
  | tick (now : Nat)

/-- A request is tarpitted where it was blocked. -/
inductive Hardened : Traffic → Traffic → Prop
  | same (x : Traffic) : Hardened x x
  | tarpit : Hardened (.request .block) (.request .tarpit)

structure Monitor where
  counts : ActionCounts
  watchdog : Watchdog

namespace Monitor

def step (m : Monitor) : Traffic → Monitor
  | .request a => { m with counts := m.counts.record a }
  | .tick now => { m with watchdog := m.watchdog.tick ⟨m.counts.blocked, now⟩ }

def run (m : Monitor) (h : List Traffic) : Monitor := h.foldl step m

def level (m : Monitor) : Nat := m.watchdog.level

/-- The blocks per second since the last tick. -/
def bps (m : Monitor) (now : Nat) : Nat := m.watchdog.bps ⟨m.counts.blocked, now⟩

/-- At every moment the level of the second history is at least that of the first. -/
def Dominated (m : Monitor) (h h' : List Traffic) : Prop :=
  ∀ n, (m.run (h.take n)).level ≤ (m.run (h'.take n)).level

/-- When a tick may change the level, the rates of the two histories are on the same side of the
threshold, unless the level is the highest, and of a quarter of it, unless the level is the lowest or
the threshold is reached. -/
def Agrees (m m' : Monitor) (now : Nat) : Prop :=
  m.watchdog.runtime.autoUamEnabled = true → m.watchdog.Due ⟨m.counts.blocked, now⟩ →
    (m.level < 4 → (m.watchdog.runtime.autoUamThreshold ≤ m.bps now ↔
      m.watchdog.runtime.autoUamThreshold ≤ m'.bps now)) ∧
    (0 < m.level → (m.level < 4 → m.bps now < m.watchdog.runtime.autoUamThreshold) →
      (m.bps now ≤ m.watchdog.runtime.autoUamThreshold / 4 ↔
        m'.bps now ≤ m.watchdog.runtime.autoUamThreshold / 4))

/-- The rates of two histories agree at all ticks. -/
def Unmoved (m : Monitor) (h h' : List Traffic) : Prop :=
  ∀ n now, h[n]? = some (.tick now) → (m.run (h.take n)).Agrees (m.run (h'.take n)) now

variable {m m' : Monitor} {h h' : List Traffic} {now : Nat}

/-- Two loops with the same settings and the same last change. -/
structure Same (m m' : Monitor) : Prop where
  runtime : m'.watchdog.runtime = m.watchdog.runtime
  lastChange : m'.watchdog.lastChange = m.watchdog.lastChange

/-- The same controllers have the same level. -/
lemma Same.level (h : m.Same m') : m'.level = m.level := congrArg Runtime.uamLevel h.runtime

/-- Two rates give the same level iff they fall on the same side of what is asked. -/
lemma next_eq_iff {l thresh b b' : Nat} :
    Runtime.autoUamNext l thresh b = Runtime.autoUamNext l thresh b' ↔
      (l < 4 → (thresh ≤ b ↔ thresh ≤ b')) ∧
      (0 < l → (l < 4 → b < thresh) → (b ≤ thresh / 4 ↔ b' ≤ thresh / 4)) := by
  rw [Runtime.autoUamNext, Runtime.autoUamNext]
  split_ifs <;> omega

/-- The rates agree iff a tick that may change the level sets the same one. -/
lemma agrees_iff (h : m.Same m') : m.Agrees m' now ↔
    (m.watchdog.runtime.autoUamEnabled = true → m.watchdog.Due ⟨m.counts.blocked, now⟩ →
      m'.watchdog.next ⟨m'.counts.blocked, now⟩ = m.watchdog.next ⟨m.counts.blocked, now⟩) := by
  refine forall₂_congr fun _ _ => ?_
  have hlevel : m'.watchdog.level = m.watchdog.level := h.level
  rw [Watchdog.next, Watchdog.next, h.runtime, hlevel]
  exact next_eq_iff.symm.trans eq_comm

/-- Loops that set the same level stay the same. -/
lemma same_tick (h : m.Same m') (hagrees : m.Agrees m' now) :
    (m.step (.tick now)).Same (m'.step (.tick now)) := by
  have hset := (agrees_iff h).mp hagrees
  have hlevel : m'.watchdog.level = m.watchdog.level := h.level
  have hdue : m'.watchdog.Due ⟨m'.counts.blocked, now⟩ ↔
      m.watchdog.Due ⟨m.counts.blocked, now⟩ := by
    rw [Watchdog.Due, Watchdog.Due, h.lastChange]
  constructor
  · show (m'.watchdog.tick _).runtime = (m.watchdog.tick _).runtime
    rw [Watchdog.tick_runtime, Watchdog.tick_runtime, h.runtime]
    by_cases hmay : m.watchdog.runtime.autoUamEnabled = true ∧
        m.watchdog.Due ⟨m.counts.blocked, now⟩
    case pos => rw [if_pos hmay, if_pos ⟨hmay.1, hdue.mpr hmay.2⟩, hset hmay.1 hmay.2]
    case neg => rw [if_neg hmay, if_neg fun hmay' => hmay ⟨hmay'.1, hdue.mp hmay'.2⟩]
  · show (m'.watchdog.tick _).lastChange = (m.watchdog.tick _).lastChange
    rw [Watchdog.tick_lastChange, Watchdog.tick_lastChange, h.runtime, h.lastChange]
    refine if_congr (and_congr_right fun hon => (and_congr_left fun _ => hdue).trans
      (and_congr_right fun hmay => ?_)) rfl rfl
    rw [hset hon hmay, hlevel]

/-- What is recorded does not concern the loop. -/
lemma same_request {a a' : Action} (h : m.Same m') :
    (m.step (.request a)).Same (m'.step (.request a')) := ⟨h.runtime, h.lastChange⟩

lemma dominated_cons {x x' : Traffic} (h₀ : m.level ≤ m'.level) :
    (∀ n, (m.run ((x :: h).take n)).level ≤ (m'.run ((x' :: h').take n)).level) ↔
      ∀ n, ((m.step x).run (h.take n)).level ≤ ((m'.step x').run (h'.take n)).level := by
  constructor
  · exact fun hall n => hall (n + 1)
  · intro hall n
    cases n with
    | zero => exact h₀
    | succ n => exact hall n

/-- Where all ticks agree, hardened traffic keeps the level dominated. -/
lemma dominated_of_unmoved (hrel : List.Forall₂ Hardened h h') (hsame : m.Same m')
    (hagrees : ∀ n now, h[n]? = some (.tick now) →
      (m.run (h.take n)).Agrees (m'.run (h'.take n)) now) :
    ∀ n, (m.run (h.take n)).level ≤ (m'.run (h'.take n)).level := by
  induction hrel generalizing m m' with
  | nil => exact fun n => by rw [List.take_nil]; exact hsame.level.ge
  | @cons x x' h h' hx _ ih =>
    refine (dominated_cons hsame.level.ge).mpr (ih ?_ fun n now hn => hagrees (n + 1) now hn)
    cases hx with
    | tarpit => exact same_request hsame
    | same =>
      cases x with
      | request a => exact same_request hsame
      | tick now => exact same_tick hsame (hagrees 0 now rfl)

/-- The second history has counted no more blocks since the last tick, and no counter wraps in the
next `n` steps. -/
structure Behind (n : Nat) (m m' : Monitor) : Prop extends m.Same m' where
  prev : m.watchdog.prevBlocks ≤ m.counts.blocked
  prev' : m'.watchdog.prevBlocks ≤ m'.counts.blocked
  fewer : m'.counts.blocked - m'.watchdog.prevBlocks ≤ m.counts.blocked - m.watchdog.prevBlocks
  small : m.counts.blocked + n < 2 ^ 32
  small' : m'.counts.blocked + n < 2 ^ 32

/-- A tick that agrees keeps the second controller behind. -/
lemma Behind.tick {n : Nat} (h : Behind (n + 1) m m') (hagrees : m.Agrees m' now) :
    Behind n (m.step (.tick now)) (m'.step (.tick now)) := by
  have hprev : ∀ {m : Monitor}, (m.step (.tick now)).watchdog.prevBlocks = m.counts.blocked := by
    intro m
    show (m.watchdog.tick _).prevBlocks = _
    rw [Watchdog.tick]
    split_ifs <;> rfl
  refine ⟨same_tick h.toSame hagrees, hprev.le, hprev.le, ?_, ?_, ?_⟩
  · rw [hprev]
    exact (Nat.sub_self _).le.trans (Nat.zero_le _)
  · exact (Nat.add_lt_add_left (Nat.lt_succ_self n) _).trans h.small
  · exact (Nat.add_lt_add_left (Nat.lt_succ_self n) _).trans h.small'

/-- A blocked request counts as blocked. -/
lemma blocked_record {c : ActionCounts} {a : Action} (h : c.blocked < 2 ^ 32) :
    (c.record a).blocked = c.blocked + if a = .block then 1 else 0 := by
  cases a with
  | allow => rfl
  | challenge => rfl
  | block =>
    show (c.blocked + 1) % 2 ^ 64 = c.blocked + 1
    exact Nat.mod_eq_of_lt (by omega)
  | tarpit => rfl

/-- A hardened request keeps it behind. -/
lemma Behind.request {n : Nat} {a a' : Action} (h : Behind (n + 1) m m')
    (hx : Hardened (.request a) (.request a')) :
    Behind n (m.step (.request a)) (m'.step (.request a')) := by
  obtain ⟨hsame, hprev, hprev', hfewer, hsmall, hsmall'⟩ := h
  have hle : (if a' = Action.block then 1 else 0) ≤ if a = Action.block then 1 else 0 := by
    cases hx with
    | same => exact le_rfl
    | tarpit => exact Nat.zero_le _
  have hone : (if a = Action.block then 1 else 0) ≤ 1 := by
    split <;> omega
  have hblocked := blocked_record (c := m.counts) (a := a) (by omega)
  have hblocked' := blocked_record (c := m'.counts) (a := a') (by omega)
  refine ⟨same_request hsame, ?_, ?_, ?_, ?_, ?_⟩
  · show m.watchdog.prevBlocks ≤ (m.counts.record a).blocked
    omega
  · show m'.watchdog.prevBlocks ≤ (m'.counts.record a').blocked
    omega
  · show (m'.counts.record a').blocked - m'.watchdog.prevBlocks ≤
      (m.counts.record a).blocked - m.watchdog.prevBlocks
    omega
  · show (m.counts.record a).blocked + n < 2 ^ 32
    omega
  · show (m'.counts.record a').blocked + n < 2 ^ 32
    omega

/-- A rate that was counted without some blocks is no higher. -/
lemma Behind.bps_le {n : Nat} (h : Behind n m m') : m'.bps now ≤ m.bps now := by
  have hfewer := h.fewer
  have hsmall := h.small
  have hle : (m'.counts.blocked - m'.watchdog.prevBlocks) / 5 ≤
      (m.counts.blocked - m.watchdog.prevBlocks) / 5 := Nat.div_le_div_right hfewer
  have hlt : (m.counts.blocked - m.watchdog.prevBlocks) / 5 < 2 ^ 32 := by omega
  rw [bps, bps, Watchdog.bps, Watchdog.bps, Nat.mod_eq_of_lt hlt,
    Nat.mod_eq_of_lt (hle.trans_lt hlt)]
  exact hle

lemma next_mono {l thresh b b' : Nat} (h : b' ≤ b) :
    Runtime.autoUamNext l thresh b' ≤ Runtime.autoUamNext l thresh b := by
  rw [Runtime.autoUamNext, Runtime.autoUamNext]
  split_ifs <;> omega

/-- When the second level does not fall behind at a tick, the rates agree there. -/
lemma Behind.agrees {n : Nat} (h : Behind n m m')
    (hlevel : (m.step (.tick now)).level ≤ (m'.step (.tick now)).level) : m.Agrees m' now := by
  refine (agrees_iff h.toSame).mpr fun hon hdue => ?_
  have hstep : (m.step (.tick now)).level = m.watchdog.next ⟨m.counts.blocked, now⟩ := by
    show (m.watchdog.tick _).runtime.uamLevel = _
    rw [Watchdog.tick_runtime, if_pos ⟨hon, hdue⟩]
  have hstep' : (m'.step (.tick now)).level = m'.watchdog.next ⟨m'.counts.blocked, now⟩ := by
    have hdue' : m'.watchdog.Due ⟨m'.counts.blocked, now⟩ := by
      rw [Watchdog.Due, h.lastChange]
      exact hdue
    show (m'.watchdog.tick _).runtime.uamLevel = _
    rw [Watchdog.tick_runtime, h.runtime, if_pos ⟨hon, hdue'⟩]
  rw [hstep, hstep'] at hlevel
  refine le_antisymm ?_ hlevel
  have hlevel' : m'.watchdog.level = m.watchdog.level := h.toSame.level
  rw [Watchdog.next, Watchdog.next, h.runtime, hlevel']
  exact next_mono h.bps_le

/-- Where the level is dominated throughout, all ticks agree. -/
lemma unmoved_of_dominated (hrel : List.Forall₂ Hardened h h') (hbehind : Behind h.length m m')
    (hdominated : ∀ n, (m.run (h.take n)).level ≤ (m'.run (h'.take n)).level) :
    ∀ n now, h[n]? = some (.tick now) → (m.run (h.take n)).Agrees (m'.run (h'.take n)) now := by
  induction hrel generalizing m m' with
  | nil => exact fun n now hn => by cases hn
  | @cons x x' h h' hx _ ih =>
    have hrest := (dominated_cons hbehind.toSame.level.ge).mp hdominated
    intro n now hn
    cases hx with
    | tarpit =>
      cases n with
      | zero => cases hn
      | succ n => exact ih (hbehind.request .tarpit) hrest n now hn
    | same =>
      cases x with
      | request a =>
        cases n with
        | zero => cases hn
        | succ n => exact ih (hbehind.request (.same _)) hrest n now hn
      | tick t =>
        have hagrees : m.Agrees m' t := hbehind.agrees (hdominated 1)
        cases n with
        | zero =>
          cases hn
          exact hagrees
        | succ n => exact ih (hbehind.tick hagrees) hrest n now hn

/-- When some blocked requests are tarpitted instead, the level stays at least as high if the rates
agree without them, and below 2 ^ 32 requests only if they do. -/
theorem hardened_iff (hrel : List.Forall₂ Hardened h h')
    (hstart : m.watchdog.prevBlocks = m.counts.blocked) :
    (m.Unmoved h h' → m.Dominated h h') ∧
      (m.counts.blocked + h.length < 2 ^ 32 → m.Dominated h h' → m.Unmoved h h') := by
  have hsame : m.Same m := ⟨rfl, rfl⟩
  refine ⟨dominated_of_unmoved hrel hsame, fun hsmall => ?_⟩
  exact unmoved_of_dominated hrel ⟨hsame, hstart.le, hstart.le, le_rfl, hsmall, hsmall⟩

/-- A loop with the threshold 1. -/
def alert : Monitor where
  counts := {}
  watchdog := {
    runtime := { Runtime.fromConfig Engine.sampleCfg with
      autoUamEnabled := true
      autoUamThreshold := 1 }
    runtimeDisk := fun _ => none
    prevBlocks := 0 }

/-- Five requests with the same end, and a tick. -/
def attack (a : Action) : List Traffic := List.replicate 5 (.request a) ++ [.tick 1000]

/-- Tarpits are a hardening of blocks. -/
lemma attack_hardened : List.Forall₂ Hardened (attack .block) (attack .tarpit) :=
  .cons .tarpit (.cons .tarpit (.cons .tarpit (.cons .tarpit (.cons .tarpit
    (.cons (.same _) .nil)))))

/-- The level rises when an attack is blocked, but not when it is tarpitted. -/
theorem tarpits_unseen : List.Forall₂ Hardened (attack .block) (attack .tarpit) ∧
    ¬ alert.Dominated (attack .block) (attack .tarpit) := by
  refine ⟨attack_hardened, fun h => ?_⟩
  have hlevel := h 6
  have hblock : (alert.run ((attack .block).take 6)).level = 1 := by decide
  have htarpit : (alert.run ((attack .tarpit).take 6)).level = 0 := by decide
  rw [hblock, htarpit] at hlevel
  cases hlevel

/-- An attack that is tarpitted. -/
theorem attack_hardened_iff :
    (alert.Unmoved (attack .block) (attack .tarpit) →
        alert.Dominated (attack .block) (attack .tarpit)) ∧
      (alert.counts.blocked + (attack .block).length < 2 ^ 32 →
        alert.Dominated (attack .block) (attack .tarpit) →
        alert.Unmoved (attack .block) (attack .tarpit)) :=
  hardened_iff attack_hardened rfl

end Monitor

end Waf
