import Waf.Engine

/-!
# The exits of the pipeline

What `pipeline` can do, once and for all: an `Exit` for each place where it returns, with the checks
that were passed before it and the state that is left. `pipeline_exit` says that a run takes one of
them. The checks are those of the state in which the request came in, because what the crawler check
and the rate limiter change is not read by the checks in between.
-/

namespace Waf
open Lib
open Goodbot (Verdict)

namespace Engine

/-- The verdict on a crawler. -/
def verdict (e : Engine) (ctx : RequestCtx) (nowMs : Nat) : Verdict := (e.crawler ctx nowMs).1

/-- The reasons of the signals that fire. -/
def fired (crates : Crates) (e : Engine) (ctx : RequestCtx) (nowMs : Nat) : List DecisionReason :=
  (e.signals crates ctx (e.verdict ctx nowMs) nowMs).1

/-- The engine after the crawler check. -/
def afterCrawler (e : Engine) (ctx : RequestCtx) (nowMs : Nat) : Engine := (e.crawler ctx nowMs).2

/-- The engine after the rate limiter. -/
def afterLimiter (e : Engine) (ctx : RequestCtx) (nowMs : Nat) : Engine :=
  { e.afterCrawler ctx nowMs with rateLimiter := (e.limiterReply ctx nowMs).2 }

/-- The checks before the traps are passed. -/
structure Unlisted (e : Engine) (ctx : RequestCtx) (nowMs : Nat) : Prop where
  listed : e.listed ctx nowMs = none
  crawler : ∀ name, e.verdict ctx nowMs ≠ .goodBotVerified name

/-- The checks before the clearance cookie are passed. -/
structure Admitted (e : Engine) (ctx : RequestCtx) (nowMs : Nat) : Prop
    extends Unlisted e ctx nowMs where
  trapped : e.trapped ctx = none
  overCap : e.overCap ctx = none
  hardLimits : e.hardLimits ctx = none
  limiter : (e.limiterReply ctx nowMs).1 = .ok ()

/-- The decision on the scores. -/
def scored (crates : Crates) (e : Engine) (ctx : RequestCtx) (nowMs : Nat) : Decision :=
  (Decision.allow ctx.requestId).addReasons (e.fired crates ctx nowMs)

/-- The engine after the signals. -/
def afterSignals (crates : Crates) (e : Engine) (ctx : RequestCtx) (nowMs : Nat) : Engine :=
  ((e.afterLimiter ctx nowMs).signals crates ctx (e.verdict ctx nowMs) nowMs).2

/-- The places where the pipeline returns. -/
inductive Exit (crates : Crates) (e : Engine) (disk : Disk) (ctx : RequestCtx) (nowMs : Nat) :
    Decision × Engine × Disk → Prop
  | listed {d} (h : e.listed ctx nowMs = some d) : Exit crates e disk ctx nowMs (d, e, disk)
  | crawler {name} (h : e.listed ctx nowMs = none)
      (hv : e.verdict ctx nowMs = .goodBotVerified name) :
      Exit crates e disk ctx nowMs (.allow ctx.requestId, e.afterCrawler ctx nowMs, disk)
  | trapped {r} (h : Unlisted e ctx nowMs) (hr : e.trapped ctx = some r) :
      Exit crates e disk ctx nowMs
        (.block ctx.requestId 403 r,
          { e.afterCrawler ctx nowMs with reputations := (e.trapBan disk ctx nowMs).2.1 },
          (e.trapBan disk ctx nowMs).2.2)
  | overCap {d} (h : Unlisted e ctx nowMs) (hr : e.trapped ctx = none)
      (hd : e.overCap ctx = some d) :
      Exit crates e disk ctx nowMs (d, e.afterCrawler ctx nowMs, disk)
  | hardLimits {d} (h : Unlisted e ctx nowMs) (hr : e.trapped ctx = none)
      (hc : e.overCap ctx = none) (hd : e.hardLimits ctx = some d) :
      Exit crates e disk ctx nowMs (d, e.afterCrawler ctx nowMs, disk)
  | limited {l} (h : Unlisted e ctx nowMs) (hr : e.trapped ctx = none)
      (hc : e.overCap ctx = none) (hl : e.hardLimits ctx = none)
      (hk : (e.limiterReply ctx nowMs).1 = .error l) :
      Exit crates e disk ctx nowMs
        (limitDecision ctx l, (e.afterLimiter ctx nowMs).countLimited, disk)
  | cleared (h : Admitted e ctx nowMs) (hc : e.cleared crates ctx nowMs = true) :
      Exit crates e disk ctx nowMs (.allow ctx.requestId, e.afterLimiter ctx nowMs, disk)
  | forced {r} (h : Admitted e ctx nowMs) (hc : e.cleared crates ctx nowMs = false)
      (hf : e.runtime.uamParams.forceChallenge = true) :
      Exit crates e disk ctx nowMs
        (.challenge ctx.requestId 100 [r], e.afterLimiter ctx nowMs, disk)
  | scored (h : Admitted e ctx nowMs) (hc : e.cleared crates ctx nowMs = false)
      (hf : e.runtime.uamParams.forceChallenge = false) :
      Exit crates e disk ctx nowMs
        ((e.afterSignals crates ctx nowMs).threshold disk ctx (e.scored crates ctx nowMs) nowMs)

variable {crates : Crates} {e : Engine} {disk : Disk} {ctx : RequestCtx} {nowMs : Nat}

/-- A refusal of the rate limiter decides. -/
lemma rateLimited_error {l} (h : (e.limiterReply ctx nowMs).1 = .error l) :
    (e.afterCrawler ctx nowMs).rateLimited ctx nowMs
      = (some (limitDecision ctx l), (e.afterLimiter ctx nowMs).countLimited) := by
  have hreply : (e.afterCrawler ctx nowMs).limiterReply ctx nowMs = e.limiterReply ctx nowMs := rfl
  simp only [rateLimited, hreply, h]
  rfl

/-- An accepted request leaves the table of the limiter. -/
lemma rateLimited_ok (h : (e.limiterReply ctx nowMs).1 = .ok ()) :
    (e.afterCrawler ctx nowMs).rateLimited ctx nowMs = (none, e.afterLimiter ctx nowMs) := by
  have hreply : (e.afterCrawler ctx nowMs).limiterReply ctx nowMs = e.limiterReply ctx nowMs := rfl
  simp only [rateLimited, hreply, h]
  rfl

/-- What follows the rate limit. -/
lemma pipeline_exit_admitted (h : Admitted e ctx nowMs) :
    Exit crates e disk ctx nowMs
      (if e.cleared crates ctx nowMs then (.allow ctx.requestId, e.afterLimiter ctx nowMs, disk)
       else if e.runtime.uamParams.forceChallenge then
        (.challenge ctx.requestId 100 [⟨"UAM-FORCE", "anti_ddos", 100,
          "uam=" ++ e.runtime.uam.toStr ++ " forcing challenge"⟩], e.afterLimiter ctx nowMs, disk)
       else
        (e.afterSignals crates ctx nowMs).threshold disk ctx (e.scored crates ctx nowMs) nowMs) := by
  cases hc : e.cleared crates ctx nowMs with
  | true => exact .cleared h hc
  | false =>
    cases hf : e.runtime.uamParams.forceChallenge with
    | true => exact .forced h hc hf
    | false => exact .scored h hc hf

/-- The lists decide first. -/
lemma pipeline_listed {d} (h : e.listed ctx nowMs = some d) :
    e.pipeline crates disk ctx nowMs = (d, e, disk) := by
  simp only [pipeline, h]

/-- A verified crawler passes. -/
lemma pipeline_crawler {name} (h : e.listed ctx nowMs = none)
    (hv : e.verdict ctx nowMs = .goodBotVerified name) :
    e.pipeline crates disk ctx nowMs = (.allow ctx.requestId, e.afterCrawler ctx nowMs, disk) := by
  have hv' : (e.crawler ctx nowMs).1 = .goodBotVerified name := hv
  simp only [pipeline, h, hv']
  rfl

/-- A run of the pipeline takes one of the exits. -/
lemma pipeline_exit : Exit crates e disk ctx nowMs (e.pipeline crates disk ctx nowMs) := by
  unfold pipeline
  cases hlisted : e.listed ctx nowMs with
  | some d => exact .listed hlisted
  | none =>
    simp only
    split
    case h_1 name hv => exact .crawler hlisted hv
    case h_2 v hv =>
      have un : Unlisted e ctx nowMs := ⟨hlisted, hv⟩
      -- the checks read nothing that the crawler check has written
      have htrap : (e.crawler ctx nowMs).2.trapped ctx = e.trapped ctx := rfl
      have hover : (e.crawler ctx nowMs).2.overCap ctx = e.overCap ctx := rfl
      have hhard : (e.crawler ctx nowMs).2.hardLimits ctx = e.hardLimits ctx := rfl
      rw [htrap, hover, hhard]
      cases hr : e.trapped ctx with
      | some r => exact .trapped un hr
      | none =>
        cases hc : e.overCap ctx with
        | some d => exact .overCap un hr hc
        | none =>
          cases hl : e.hardLimits ctx with
          | some d => exact .hardLimits un hr hc hl
          | none =>
            cases hk : (e.limiterReply ctx nowMs).1 with
            | error l =>
              have hd : (e.crawler ctx nowMs).2.rateLimited ctx nowMs
                  = (some (limitDecision ctx l), (e.afterLimiter ctx nowMs).countLimited) :=
                rateLimited_error hk
              simp only [hd]
              exact .limited un hr hc hl hk
            | ok =>
              have hd : (e.crawler ctx nowMs).2.rateLimited ctx nowMs
                  = (none, e.afterLimiter ctx nowMs) := rateLimited_ok hk
              simp only [hd]
              exact pipeline_exit_admitted ⟨un, hr, hc, hl, hk⟩

/-! ## Trackers -/

/-- The thresholds leave the trackers as they are. -/
lemma threshold_trackers {d : Decision} :
    (e.threshold disk ctx d nowMs).2.1.conns = e.conns
      ∧ (e.threshold disk ctx d nowMs).2.1.subnets = e.subnets := by
  simp only [threshold]
  split
  case isTrue =>
    split
    case isTrue => exact ⟨rfl, rfl⟩
    case isFalse => exact ⟨rfl, rfl⟩
  case isFalse =>
    split
    case isTrue => exact ⟨rfl, rfl⟩
    case isFalse => exact ⟨rfl, rfl⟩

/-- The signals touch the requests in flight of the subnets only by a sweep. -/
lemma afterSignals_inFlight : (e.afterSignals crates ctx nowMs).subnets.inFlight = e.subnets.inFlight
    ∨ (e.afterSignals crates ctx nowMs).subnets.inFlight
      = (e.subnets.maybeGc (nowMs / 1000)).inFlight := by
  have hsubnets : (e.afterSignals crates ctx nowMs).subnets
      = (if e.runtime.defenses.subnet then e.subnets.observe ctx.clientIp e.runtime.subnetRpm
          e.runtime.subnetConn (nowMs / 1000) else ([], e.subnets)).2 := rfl
  rw [hsubnets]
  split
  case isTrue => exact .inr rfl
  case isFalse => exact .inl rfl

/-- An evaluation leaves the connection tracker as it is, and touches the requests in flight of the
subnets only by a sweep. -/
lemma evaluate_trackers : (e.evaluate crates disk ctx nowMs).2.1.conns = e.conns
    ∧ ((e.evaluate crates disk ctx nowMs).2.1.subnets.inFlight = e.subnets.inFlight
      ∨ (e.evaluate crates disk ctx nowMs).2.1.subnets.inFlight
        = (e.subnets.maybeGc (nowMs / 1000)).inFlight) := by
  show (e.pipeline crates disk ctx nowMs).2.1.conns = e.conns
    ∧ ((e.pipeline crates disk ctx nowMs).2.1.subnets.inFlight = _
      ∨ (e.pipeline crates disk ctx nowMs).2.1.subnets.inFlight = _)
  have hexit := @pipeline_exit crates e disk ctx nowMs
  generalize e.pipeline crates disk ctx nowMs = res at hexit
  cases hexit with
  | listed | crawler | trapped | overCap | hardLimits | limited | cleared | forced =>
    exact ⟨rfl, .inl rfl⟩
  | scored =>
    obtain ⟨hconns, hsubnets⟩ := @threshold_trackers (e.afterSignals crates ctx nowMs) disk ctx
      nowMs (e.scored crates ctx nowMs)
    rw [hconns, hsubnets]
    exact ⟨rfl, afterSignals_inFlight⟩

end Engine

end Waf
