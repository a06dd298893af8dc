import Waf.Engine.Allow

/-!
# Raising the UAM level

Two runs of the engine from states that differ only in the UAM level. Each level is at least as strict
as the one below it: it scales the rate limits down, lowers both thresholds, clamps the cap on
requests in flight and never stops forcing a challenge (`UamLevel.params_mono`). So a request that
the higher level allows, the lower one allows as well (`raise_admits_no_more`).

The one step that is not a tightening is from off to low while the legacy flag is on: the flag stands
for medium as long as the level is off, and for nothing once it is low.
-/

namespace Waf
open Lib

namespace UamLevel

def rank : UamLevel → Nat
  | off => 0
  | low => 1
  | medium => 2
  | high => 3
  | extreme => 4

/-- A level above another is at least as strict. -/
lemma params_mono {a b : UamLevel} (h : a.rank ≤ b.rank) :
    (a.params.forceChallenge = true → b.params.forceChallenge = true)
      ∧ b.params.rpmScaleBps ≤ a.params.rpmScaleBps
      ∧ a.params.challengeDrop ≤ b.params.challengeDrop
      ∧ a.params.blockDrop ≤ b.params.blockDrop
      ∧ (0 < a.params.connCapClamp → 0 < b.params.connCapClamp
        ∧ b.params.connCapClamp ≤ a.params.connCapClamp) := by
  cases a <;> cases b <;> first | decide | exact absurd h (by decide)

lemma scale_le {a : UamLevel} : a.params.rpmScaleBps ≤ 10000 := by
  cases a <;> decide

/-- A level above off sets the scale. -/
lemma scale_lt_iff {a : UamLevel} : a.params.rpmScaleBps < 10000 ↔ a ≠ off := by
  cases a <;> decide

end UamLevel

/-! ## The rate limiter -/

/-- The scaled rate is a fraction of the rate. -/
lemma scaleRpm_eq {rpm : UInt32} {scale} (h : scale ≤ 10000) :
    scaleRpm rpm scale = rpm.toNat * scale / 10000 := by
  have hmul : rpm.toNat * scale ≤ rpm.toNat * 10000 := Nat.mul_le_mul_left _ h
  have hlt : rpm.toNat < 2 ^ 32 := rpm.toNat_lt
  exact Nat.mod_eq_of_lt (by omega)

lemma scaleRpm_mono {rpm : UInt32} {s s'} (h : s' ≤ s) (hs : s ≤ 10000) :
    scaleRpm rpm s' ≤ scaleRpm rpm s := by
  rw [scaleRpm_eq (h.trans hs), scaleRpm_eq hs]
  exact Nat.div_le_div_right (Nat.mul_le_mul_left _ h)

lemma exceeds_mono {count rpm rpm' burst} (h : rpm' ≤ rpm) (hx : exceeds count rpm burst = true) :
    exceeds count rpm' burst = true := by
  have hle : satAdd32 rpm' burst ≤ satAdd32 rpm burst :=
    min_le_min_right _ (Nat.add_le_add_right h burst)
  exact decide_eq_true (lt_of_le_of_lt hle (of_decide_eq_true hx))

namespace RateLimiter

variable {rl : RateLimiter} {ip path : Str} {now : Nat}

lemma checkGlobal_mono {s s'} (h : s' ≤ s) (hs : s ≤ 10000)
    (hok : (rl.checkGlobal ip path s' now).1 = .ok ()) :
    (rl.checkGlobal ip path s now).1 = .ok () := by
  simp only [checkGlobal] at hok ⊢
  split at hok
  case isTrue => cases hok
  case isFalse hx =>
    rw [if_neg fun hx' => hx (exceeds_mono (scaleRpm_mono h hs) hx')]

/-- A request that passes under tighter limits passes. -/
lemma checkScaled_mono {s s'} (h : s' ≤ s) (hs : s ≤ 10000)
    (hok : (rl.checkScaled ip path s' now).1 = .ok ()) :
    (rl.checkScaled ip path s now).1 = .ok () := by
  have hmax : max s' 100 ≤ max s 100 := max_le_max_right 100 h
  have hbound : max s 100 ≤ 10000 := max_le hs (by decide)
  unfold checkScaled at hok ⊢
  split
  case isTrue => rfl
  case isFalse hen =>
    rw [if_neg hen] at hok
    simp only at hok ⊢
    cases hr : rl.firstRoute path with
    | none =>
      rw [hr] at hok
      exact checkGlobal_mono hmax hbound hok
    | some r =>
      rw [hr] at hok
      simp only at hok ⊢
      split at hok
      case isTrue => cases hok
      case isFalse hx =>
        rw [if_neg fun hx' => hx (exceeds_mono (scaleRpm_mono hmax hbound) hx')]
        exact checkGlobal_mono hmax hbound hok

end RateLimiter

namespace Engine

/-- The engine at another level. -/
def withLevel (e : Engine) (level : Nat) : Engine :=
  { e with runtime := { e.runtime with uamLevel := level } }

variable {crates : Crates} {e : Engine} {disk : Disk} {ctx : RequestCtx} {nowMs l l' : Nat}

/-- The scale is the one of the level in force, and never above the whole. -/
lemma scaleBps_eq {rt : Runtime} : rt.scaleBps = rt.uamParams.rpmScaleBps := by
  unfold Runtime.scaleBps
  split
  case isTrue => rfl
  case isFalse h =>
    have hoff : rt.effectiveUam = .off := by
      by_contra hne
      exact h (UamLevel.scale_lt_iff.mpr hne)
    -- off is in force only without the flag
    have hflag : ¬ rt.underAttack = true := by
      intro hua
      unfold Runtime.effectiveUam at hoff
      split at hoff
      case isTrue => cases hoff
      case isFalse hn => exact hn ⟨hoff, hua⟩
    rw [if_neg hflag, Runtime.uamParams, hoff]
    rfl

/-- A cap that is on at some level is on, and no higher, at a stricter one. -/
lemma connCap_mono {rt rt' : Runtime} (hmax : rt'.maxConcurrentPerIp = rt.maxConcurrentPerIp)
    (hclamp : 0 < rt.uamParams.connCapClamp → 0 < rt'.uamParams.connCapClamp
      ∧ rt'.uamParams.connCapClamp ≤ rt.uamParams.connCapClamp) (hpos : 0 < rt.connCap) :
    0 < rt'.connCap ∧ rt'.connCap ≤ rt.connCap := by
  simp only [Runtime.connCap, hmax] at hpos ⊢
  split at hpos
  case isTrue hc =>
    obtain ⟨hc', hle⟩ := hclamp hc
    rw [if_pos hc', if_pos hc]
    omega
  case isFalse hc =>
    rw [if_neg hc]
    split
    case isTrue hc' => omega
    case isFalse => omega

/-- Past the limits a request is admitted at a level no stricter. -/
lemma admitted_mono (h : (e.withLevel l).runtime.effectiveUam.rank
      ≤ (e.withLevel l').runtime.effectiveUam.rank)
    (adm : Admitted (e.withLevel l') ctx nowMs) : Admitted (e.withLevel l) ctx nowMs := by
  obtain ⟨-, hscale, -, -, hclamp⟩ := UamLevel.params_mono h
  have un : Unlisted (e.withLevel l) ctx nowMs := ⟨adm.listed, adm.crawler⟩
  refine ⟨un, adm.trapped, ?_, adm.hardLimits, ?_⟩
  · have hcap := overCap_none_iff.mp adm.overCap
    rw [overCap_none_iff]
    intro hpos
    have hcaps : 0 < (e.withLevel l').runtime.connCap
        ∧ (e.withLevel l').runtime.connCap ≤ (e.withLevel l).runtime.connCap :=
      connCap_mono rfl hclamp hpos
    exact (hcap hcaps.1).trans hcaps.2
  · rw [limiterReply_ok_iff]
    intro hon
    have hok := limiterReply_ok_iff.mp adm.limiter hon
    rw [scaleBps_eq] at hok ⊢
    exact RateLimiter.checkScaled_mono hscale UamLevel.scale_le hok

/-- A level no stricter allows what the stricter one allows. -/
lemma allow_mono (h : (e.withLevel l).runtime.effectiveUam.rank
      ≤ (e.withLevel l').runtime.effectiveUam.rank)
    (ha : ((e.withLevel l').evaluate crates disk ctx nowMs).1.action = .allow) :
    ((e.withLevel l).evaluate crates disk ctx nowMs).1.action = .allow := by
  obtain ⟨hforce, -, hchal, hblock, -⟩ := UamLevel.params_mono h
  have hcases := pipeline_allow_iff.mp ha
  apply pipeline_allow_iff.mpr
  rcases hcases with hal | hbot | ⟨adm, hend⟩
  · exact .inl hal
  · exact .inr (.inl hbot)
  · refine .inr (.inr ⟨admitted_mono h adm, ?_⟩)
    rcases hend with hc | ⟨hf, hb, hch⟩
    · exact .inl hc
    · have hfired : (e.withLevel l).fired crates ctx nowMs
          = (e.withLevel l').fired crates ctx nowMs := rfl
      rw [← hfired] at hb hch
      refine .inr ⟨?_, ?_, ?_⟩
      · rw [Bool.eq_false_iff]
        intro hf'
        exact Bool.noConfusion ((hforce hf').symm.trans hf)
      · exact lt_of_lt_of_le hb (Nat.sub_le_sub_left hblock _)
      · exact lt_of_lt_of_le hch (Nat.sub_le_sub_left hchal _)

/-- The level in force grows with the level, but for the step from off to low under the flag. -/
lemma effectiveUam_mono (h : l ≤ l') (h4 : l' ≤ 4)
    (hlegacy : ¬ (e.runtime.underAttack = true ∧ l = 0 ∧ l' = 1)) :
    (e.withLevel l).runtime.effectiveUam.rank ≤ (e.withLevel l').runtime.effectiveUam.rank := by
  have heff : ∀ n, (e.withLevel n).runtime.effectiveUam
      = if UamLevel.fromU8 n = .off ∧ e.runtime.underAttack = true then .medium else .fromU8 n :=
    fun _ => rfl
  rw [heff, heff]
  cases hua : e.runtime.underAttack with
  | false => interval_cases l' <;> interval_cases l <;> decide
  | true =>
    rw [hua] at hlegacy
    interval_cases l' <;> interval_cases l <;> first | decide | exact absurd hlegacy (by decide)

/-- Raising the level admits no more. -/
theorem raise_admits_no_more (h : l ≤ l') (h4 : l' ≤ 4)
    (hlegacy : ¬ (e.runtime.underAttack = true ∧ l = 0 ∧ l' = 1))
    (ha : ((e.withLevel l').evaluate crates disk ctx nowMs).1.action = .allow) :
    ((e.withLevel l).evaluate crates disk ctx nowMs).1.action = .allow :=
  allow_mono (effectiveUam_mono h h4 hlegacy) ha

/-- An engine under the legacy flag. -/
def legacyEngine : Engine :=
  { sampleEngine with runtime := { sampleEngine.runtime with underAttack := true } }

/-- Under the flag, raising the level from off to low lets a request pass that was challenged; and a
level that no writer stores reads as off. -/
theorem raise_admits :
    ((legacyEngine.withLevel 0).evaluate idleCrates (fun _ => none) sampleCtx
          1700000000000).1.action = .challenge
      ∧ ((legacyEngine.withLevel 1).evaluate idleCrates (fun _ => none) sampleCtx
          1700000000000).1.action = .allow
      ∧ ((sampleEngine.withLevel 2).evaluate idleCrates (fun _ => none) sampleCtx
          1700000000000).1.action = .challenge
      ∧ ((sampleEngine.withLevel 5).evaluate idleCrates (fun _ => none) sampleCtx
          1700000000000).1.action = .allow := by
  refine ⟨?_, ?_, ?_, ?_⟩ <;> decide

/-- An ordinary request, at two levels. -/
theorem raise_admits_no_more_witness :
    ((sampleEngine.withLevel 0).evaluate idleCrates (fun _ => none) sampleCtx
      1700000000000).1.action = .allow := by
  have allowed : ((sampleEngine.withLevel 1).evaluate idleCrates (fun _ => none) sampleCtx
      1700000000000).1.action = .allow := by decide
  exact raise_admits_no_more (by decide) (by decide) (by decide) allowed

end Engine

end Waf
