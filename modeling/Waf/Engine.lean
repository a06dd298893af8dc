import Waf.Ban.Reputation
import Waf.Limiter.RateLimiter
import Waf.Token.Bic
import Waf.Runtime
import Waf.Rules
import Waf.Signal.Tracker
import Waf.Signal.Gate
import Waf.Events

/-!
# The engine

`Engine::evaluate` of `engine.rs`: a request passes the lists, the crawler check, the traps, the cap
on requests in flight, the hard limits and the rate limit, in this order, each of which may decide;
then the clearance cookie, the forced challenge of the UAM level and the scores of the signals.
`pipeline` follows the source from exit to exit, and `evaluate` records what it decides.

The state of the process is the engine and the disk that its ban file is on. The clock is an
argument, in milliseconds, and the same for all reads during one evaluation. Waiting for locks is
left out here.
-/

namespace Waf
open Lib
open Behavior (BehaviorTracker)
open Subnet (SubnetTracker)
open Signature (RequestReplay DistributedUa)
open Goodbot (GoodBotVerifier Verdict spoofReason)
open Honeypot (Honeypots)

def W_DATACENTER : Nat := 25

/-- The counter of `Metrics` that the engine writes. -/
structure Metrics where
  rateLimited : Nat := 0

structure Engine where
  cfg : Config
  rateLimiter : RateLimiter
  reputations : Reputations
  challenger : Challenger
  uaScanner : UaScanner
  metrics : Metrics := {}
  runtime : Runtime
  events : EventLog := {}
  conns : ConnTracker := {}
  behavior : BehaviorTracker := {}
  subnets : SubnetTracker := {}
  honeypots : Honeypots := {}
  replay : RequestReplay := {}
  distUa : DistributedUa := {}
  goodbot : GoodBotVerifier := {}
  bic : Bic
  storageSink : Option Sink := none

namespace Engine

def build (crates : Crates) (cfg : Config) : Option Engine := do
  let rateLimiter ← RateLimiter.new crates cfg.rateLimit
  let reputations ← Reputations.new crates cfg.reputation
  let uaScanner ← UaScanner.new crates cfg.detection.suspiciousUserAgents
  return {
    cfg := cfg
    rateLimiter := rateLimiter
    reputations := reputations
    challenger := .new cfg.challenge.hmacSecret cfg.challenge.cookieName
      cfg.challenge.cookieTtlSecs cfg.challenge.powDifficulty
    uaScanner := uaScanner
    runtime := .fromConfig cfg
    bic := .new cfg.challenge.hmacSecret }

/-- Are the requests in flight at the hard ceiling? -/
def atCapacity (e : Engine) : Bool :=
  let cap : Int := e.runtime.globalInflightCap
  if cap = 0 then false else cap ≤ e.conns.total

/-- Does the request carry a clearance cookie that verifies? -/
def cleared (crates : Crates) (e : Engine) (ctx : RequestCtx) (nowMs : Nat) : Bool :=
  (ctx.cookie e.challenger.cookieName).any fun v =>
    e.challenger.verifyClearance crates (nowMs / 1000) v

def repDeny (ctx : RequestCtx) : Decision :=
  .block ctx.requestId 403 ⟨"REP-DENY", "reputation", SCORE_DENY_REPUTATION,
    "ip on deny list or auto-banned"⟩

def repDenyRuntime (ctx : RequestCtx) : Decision :=
  .block ctx.requestId 403 ⟨"REP-DENY-RT", "reputation", SCORE_DENY_REPUTATION,
    "ip on runtime deny list"⟩

/-- 2. The lists of addresses. -/
def listed (e : Engine) (ctx : RequestCtx) (nowMs : Nat) : Option Decision :=
  if inNets e.runtime.allow ctx.clientIp then some (.allow ctx.requestId)
  else
    match e.reputations.classify ctx.clientIp (nowMs / 1000) with
    | .allow => some (.allow ctx.requestId)
    | .deny => some (repDeny ctx)
    | .unknown =>
      if inNets e.runtime.deny ctx.clientIp then some (repDenyRuntime ctx) else none

/-- 2.4 The verdict on a crawler, if the check is on. -/
def crawler (e : Engine) (ctx : RequestCtx) (nowMs : Nat) : Verdict × Engine :=
  let reply :=
    if e.runtime.defenses.goodbot then
      e.goodbot.classify ctx.clientIp ctx.userAgent (nowMs / 1000)
    else (.notABot, e.goodbot)
  (reply.1, { e with goodbot := reply.2 })

/-- 2.5 The reason for a trap, if the path is one. -/
def trapped (e : Engine) (ctx : RequestCtx) : Option DecisionReason :=
  if e.runtime.defenses.honeypots then e.honeypots.check ctx.path else none

/-- The ban that a trap installs. -/
def trapBan (e : Engine) (disk : Disk) (ctx : RequestCtx) (nowMs : Nat) :
    Bool × Reputations × Disk :=
  e.reputations.forceBan disk ctx.clientIp e.cfg.reputation.autoBanDurationSecs (nowMs / 1000)

/-- 3. The cap on requests in flight. -/
def overCap (e : Engine) (ctx : RequestCtx) : Option Decision :=
  let inFlight := e.conns.current ctx.clientIp
  let cap := e.runtime.connCap
  if 0 < cap ∧ cap < inFlight then
    some (.block ctx.requestId 429 ⟨"CONN-CAP", "ddos", SCORE_DENY_REPUTATION,
      decInt inFlight ++ " concurrent > cap " ++ decInt cap⟩)
  else none

/-- 4. `hard_limits`. -/
def hardLimits (e : Engine) (ctx : RequestCtx) : Option Decision :=
  let l := e.cfg.limits
  let block := fun (status : Nat) (ruleId category : Str) (score : Nat) (detail : Str) =>
    some (Decision.block ctx.requestId status ⟨ruleId, category, score, detail⟩)
  if !(l.allowedMethods.any fun m => eqIgnoreCase m ctx.method) then
    block 405 "METHOD-DENIED" "method" SCORE_BAD_METHOD ctx.method
  else if l.maxUriBytes < byteLen ctx.uri then
    block 414 "URI-TOO-LONG" "limit" SCORE_OVERSIZE_URI
      ("uri=" ++ dec (byteLen ctx.uri) ++ "B max=" ++ dec l.maxUriBytes ++ "B")
  else if l.maxHeaders < ctx.headers.size then
    block 431 "TOO-MANY-HEADERS" "limit" SCORE_OVERSIZE_HEAD ("count=" ++ dec ctx.headers.size)
  else
    match ctx.headers.values.find? fun v => l.maxHeaderValueBytes < byteLen v with
    | some tooBig =>
      block 431 "HEADER-TOO-LONG" "limit" SCORE_OVERSIZE_HEAD
        ("len=" ++ dec (byteLen tooBig) ++ "B")
    | none =>
      match ctx.contentLength with
      | some cl =>
        if l.maxBodyBytes < cl then
          block 413 "BODY-TOO-LARGE" "limit" SCORE_OVERSIZE_BODY
            ("len=" ++ dec cl ++ "B max=" ++ dec l.maxBodyBytes ++ "B")
        else none
      | none => none

/-- 5. The reply of the rate limiter, if it is on. -/
def limiterReply (e : Engine) (ctx : RequestCtx) (nowMs : Nat) :
    Except Limited Unit × RateLimiter :=
  if e.runtime.rules.rateLimit then
    e.rateLimiter.checkScaled ctx.clientIp.toStr ctx.path e.runtime.scaleBps (nowMs / 1000)
  else (.ok (), e.rateLimiter)

/-- The decision on a refusal of the rate limiter. -/
def limitDecision (ctx : RequestCtx) (l : Limited) : Decision :=
  .block ctx.requestId 429 ⟨"RL-01", "rate_limit", SCORE_RL_HIT,
    "scope=" ++ l.scope ++ " retry_after=" ++ dec l.retryAfter ++ "s path=" ++ l.path⟩

def countLimited (e : Engine) : Engine :=
  { e with metrics := { rateLimited := (e.metrics.rateLimited + 1) % 2 ^ 64 } }

def rateLimited (e : Engine) (ctx : RequestCtx) (nowMs : Nat) : Option Decision × Engine :=
  let reply := e.limiterReply ctx nowMs
  let e := { e with rateLimiter := reply.2 }
  match reply.1 with
  | .error l => (some (limitDecision ctx l), e.countLimited)
  | .ok () => (none, e)

/-! ## Signals -/

def headerReasons (ctx : RequestCtx) : List DecisionReason :=
  let hasCl := ctx.headers.containsKey "content-length"
  let hasTe := (ctx.headers.get "transfer-encoding").any fun v => contains "chunked" (toAsciiLower v)
  fire ctx.host.isEmpty
      ⟨"HDR-NO-HOST", "headers", SCORE_MISSING_HOST, "Host header missing"⟩
    ++ fire ctx.userAgent.isEmpty
      ⟨"HDR-NO-UA", "headers", SCORE_MISSING_UA, "User-Agent missing"⟩
    ++ fire (ctx.headers.size < 3)
      ⟨"HDR-MINIMAL", "headers", SCORE_HEADERLESS,
        "only " ++ dec ctx.headers.size ++ " headers present"⟩
    ++ fire (hasCl && hasTe)
      ⟨"HDR-CL-TE", "smuggling", SCORE_SUSPICIOUS_HEADER,
        "Content-Length + Transfer-Encoding: chunked"⟩

def geoipReason (e : Engine) (ctx : RequestCtx) : List DecisionReason :=
  match ctx.country with
  | none => []
  | some country =>
    let cc := toAsciiUpper country
    let among := fun cs : List Str => cs.any fun c => eqIgnoreCase c cc
    if among e.runtime.blockedCountries || among e.cfg.geoip.blockCountries then
      [⟨"GEO-BLOCKED", "geoip", SCORE_GEO_BLOCKED, "country=" ++ cc⟩]
    else if among e.cfg.geoip.suspiciousCountries then
      [⟨"GEO-SUSPICIOUS", "geoip", SCORE_GEO_SUSPICIOUS, "country=" ++ cc⟩]
    else []

def hitToReason (crates : Crates) (h : Hit) (score : Nat) : DecisionReason :=
  ⟨h.ruleId, h.category, score,
    "field=" ++ h.matchedField ++ " excerpt=" ++ fmtDebug crates.printable h.matchedExcerpt⟩

/-- The reason of a rule family, if it is on and hits. -/
def ruleReason (crates : Crates) (on : Bool) (hit : Option Hit) (score : Nat) :
    List DecisionReason :=
  if on then (hit.map fun h => hitToReason crates h score).toList else []

/-- Does the request carry a BIC cookie that verifies, with the check on? -/
def hasBic (crates : Crates) (e : Engine) (ctx : RequestCtx) (nowMs : Nat) : Bool :=
  e.runtime.defenses.bic && (ctx.cookie BIC_COOKIE_NAME).any fun v =>
    e.bic.verifyCookie crates (nowMs / 1000) v ctx.clientIp

/-- 7. The reasons of the signals that fire, in order, after the verdict on a crawler. -/
def signals (crates : Crates) (e : Engine) (ctx : RequestCtx) (verdict : Verdict) (nowMs : Nat) :
    List DecisionReason × Engine :=
  let ip := ctx.clientIp
  let rt := e.runtime
  let d := rt.defenses
  let rules := rt.rules
  let surface := Surface.ofCtx crates ctx
  let (behavior, behaviorTracker) :=
    if d.behavior then e.behavior.observe ip ctx.path ctx.method ctx.userAgent nowMs
    else ([], e.behavior)
  let (subnet, subnets) :=
    if d.subnet then e.subnets.observe ip rt.subnetRpm rt.subnetConn (nowMs / 1000)
    else ([], e.subnets)
  let (replay, replays) :=
    if d.replay then e.replay.observe ip ctx.method ctx.path ctx.userAgent (nowMs / 1000)
    else ([], e.replay)
  let (distUa, distUas) :=
    if d.distUa && !ctx.userAgent.isEmpty then e.distUa.observe ip ctx.userAgent (nowMs / 1000)
    else ([], e.distUa)
  let spoof :=
    match verdict with
    | .goodBotSpoofed name => [spoofReason name]
    | _ => []
  let reasons :=
    spoof
      ++ e.geoipReason ctx
      ++ headerReasons ctx
      ++ (if verdict ≠ .goodBotPending ∧ e.hasBic crates ctx nowMs = false ∧ d.botScore then
          BotScore.score ctx else [])
      ++ behavior
      ++ (if d.ddos then Ddos.score ctx else [])
      ++ fire (rt.datacenterBlock && Datacenter.isDatacenter crates ip)
        ⟨"DC-RANGE", "asn", W_DATACENTER, "source ip within hosting/cloud CIDR"⟩
      ++ subnet
      ++ replay
      ++ distUa
      ++ fire (rules.botUa && !ctx.userAgent.isEmpty && e.uaScanner.isSuspicious ctx.userAgent)
        ⟨"UA-SUSPICIOUS", "ua", SCORE_BAD_UA, excerpt ctx.userAgent⟩
      ++ ruleReason crates rules.sqli (Sqli.scan crates surface) SCORE_SQLI_HIGH
      ++ ruleReason crates rules.xss (Xss.scan crates surface) SCORE_XSS_HIGH
      ++ ruleReason crates rules.traversal (Traversal.scan crates surface) SCORE_TRAVERSAL
      ++ ruleReason crates rules.cmdi (Cmdi.scan crates surface) SCORE_CMDI
      ++ ruleReason crates rules.lfi (Lfi.scan crates surface) SCORE_LFI
  (reasons, { e with behavior := behaviorTracker, subnets := subnets, replay := replays,
                     distUa := distUas })

/-- 8. The thresholds. -/
def threshold (e : Engine) (disk : Disk) (ctx : RequestCtx) (decision : Decision) (nowMs : Nat) :
    Decision × Engine × Disk :=
  let tarpitT := e.runtime.tarpitScore
  if e.runtime.effectiveBlock ≤ decision.score then
    let primary := decision.reasons.head?.getD
      ⟨"ANOMALY", "anomaly", decision.score, "score over threshold"⟩
    let offence := e.reputations.recordOffence disk ctx.clientIp (nowMs / 1000)
    let e := { e with reputations := offence.2.1 }
    if 0 < tarpitT ∧ tarpitT ≤ decision.score then
      (.tarpit ctx.requestId decision.score decision.reasons, e, offence.2.2)
    else (.block ctx.requestId 403 primary, e, offence.2.2)
  else if e.runtime.effectiveChallenge ≤ decision.score then
    (.challenge ctx.requestId decision.score decision.reasons, e, disk)
  else (.allow ctx.requestId, e, disk)

/-! ## The pipeline -/

/-- `evaluate` up to the recording of the decision. -/
def pipeline (crates : Crates) (e : Engine) (disk : Disk) (ctx : RequestCtx) (nowMs : Nat) :
    Decision × Engine × Disk :=
  match e.listed ctx nowMs with
  | some d => (d, e, disk)
  | none =>
    let (verdict, e) := e.crawler ctx nowMs
    match verdict with
    | .goodBotVerified _ => (.allow ctx.requestId, e, disk)
    | verdict =>
      match e.trapped ctx with
      | some r =>
        let ban := e.trapBan disk ctx nowMs
        (.block ctx.requestId 403 r, { e with reputations := ban.2.1 }, ban.2.2)
      | none =>
        match e.overCap ctx with
        | some d => (d, e, disk)
        | none =>
          match e.hardLimits ctx with
          | some d => (d, e, disk)
          | none =>
            let (limited, e) := e.rateLimited ctx nowMs
            match limited with
            | some d => (d, e, disk)
            | none =>
              if e.cleared crates ctx nowMs then (.allow ctx.requestId, e, disk)
              else if e.runtime.uamParams.forceChallenge then
                let r : DecisionReason := ⟨"UAM-FORCE", "anti_ddos", 100,
                  "uam=" ++ e.runtime.uam.toStr ++ " forcing challenge"⟩
                (.challenge ctx.requestId 100 [r], e, disk)
              else
                let (reasons, e) := e.signals crates ctx verdict nowMs
                e.threshold disk ctx ((Decision.allow ctx.requestId).addReasons reasons) nowMs

/-- Record a decision, in the ring of events and in the store if one is attached. -/
def finalize (e : Engine) (ctx : RequestCtx) (d : Decision) (nowMs : Nat) : Engine :=
  { e with
    events := e.events.record ctx d nowMs
    storageSink := e.storageSink.map fun s => s.submit (Event.ofDecision ctx d nowMs) }

/-- `Engine::evaluate` at time `nowMs`. -/
def evaluate (crates : Crates) (e : Engine) (disk : Disk) (ctx : RequestCtx) (nowMs : Nat) :
    Decision × Engine × Disk :=
  let (d, e, disk) := e.pipeline crates disk ctx nowMs
  (d, e.finalize ctx d nowMs, disk)

end Engine

end Waf
