import Waf.Engine.Allow

/-!
# The request filter

What `proxy.rs` does with a request before it goes upstream: `request_filter` turns it away at the
ceiling, counts it in the trackers, answers the reserved endpoints itself and leaves the rest to
`evaluate`; `logging` takes it out of the trackers again. A full table of a tracker or of the rate
limiter answers with a count of 999999, meant to refuse. `not_forwards_full` and `checkScaled_full`
say when it does.
-/

namespace Waf
open Lib
open Ratelimit (Counter)

/-- The reserved endpoints. -/
inductive Endpoint where
  | verify
  | bicVerify
  | turnstileVerify
  | healthz
  deriving DecidableEq

/-- The reserved endpoint that a request is for. -/
def internalEndpoint (ctx : RequestCtx) : Option Endpoint :=
  let post := eqIgnoreCase ctx.method "POST"
  if ctx.path == "/__2t1/verify".toList && post then some .verify
  else if ctx.path == "/__2t1/bic-verify".toList && post then some .bicVerify
  else if ctx.path == "/__2t1/turnstile-verify".toList && post then some .turnstileVerify
  else if ctx.path == "/__2t1/healthz".toList then some .healthz
  else none

/-- What becomes of a request: the reply 503 `overloaded`, that of an endpoint, or a decision. -/
inductive Outcome where
  | overloaded
  | answered (endpoint : Endpoint)
  | decided (d : Decision)

namespace Outcome

/-- Does the request go upstream? -/
def Forwards : Outcome → Prop
  | decided d => d.action = .allow
  | _ => False

end Outcome

namespace Engine

/-- The engine with a request of the address in its trackers. -/
def enter (e : Engine) (ip : IpAddr) : Engine :=
  { e with conns := (e.conns.inc ip).2, subnets := e.subnets.incInflight ip }

def requestFilter (crates : Crates) (e : Engine) (disk : Disk) (ctx : RequestCtx) (nowMs : Nat) :
    Outcome × Engine × Disk :=
  if e.atCapacity then (.overloaded, e, disk)
  else
    let e := e.enter ctx.clientIp
    match internalEndpoint ctx with
    | some endpoint => (.answered endpoint, e, disk)
    | none =>
      let res := e.evaluate crates disk ctx nowMs
      (.decided res.1, res.2.1, res.2.2)

/-- `logging` of a request that was counted. -/
def logging (e : Engine) (ip : IpAddr) : Engine :=
  { e with conns := e.conns.dec ip, subnets := e.subnets.decInflight ip }

/-- The checks of `evaluate` after the crawler check are passed, apart from the cap on requests in
flight. -/
structure Welcome (crates : Crates) (e : Engine) (ctx : RequestCtx) (nowMs : Nat) : Prop where
  clean : Clean e ctx.clientIp (nowMs / 1000)
  trap : e.runtime.defenses.honeypots = true → e.honeypots.isTrap ctx.path = false
  limits : WithinLimits e.cfg.limits ctx
  limiter : e.runtime.rules.rateLimit = true → (e.rateLimiter.checkScaled ctx.clientIp.toStr
    ctx.path e.runtime.scaleBps (nowMs / 1000)).1 = .ok ()
  scores : e.cleared crates ctx nowMs = true
    ∨ (e.runtime.uamParams.forceChallenge = false
      ∧ totalScore (e.fired crates ctx nowMs) < e.runtime.effectiveBlock
      ∧ totalScore (e.fired crates ctx nowMs) < e.runtime.effectiveChallenge)

variable {crates : Crates} {e : Engine} {disk : Disk} {ctx : RequestCtx} {nowMs : Nat}

/-- Passing every check is passing the crawler check, the cap and the rest. -/
lemma passes_iff : Passes crates e ctx nowMs
    ↔ (∀ name, e.verdict ctx nowMs ≠ .goodBotVerified name) ∧ e.overCap ctx = none
      ∧ Welcome crates e ctx nowMs := by
  constructor
  · rintro ⟨adm, hend⟩
    exact ⟨adm.crawler, adm.overCap, listed_none_iff.mp adm.listed, trapped_none_iff.mp adm.trapped,
      hardLimits_none_iff.mp adm.hardLimits, limiterReply_ok_iff.mp adm.limiter, hend⟩
  · rintro ⟨hbot, hcap, w⟩
    have un : Unlisted e ctx nowMs := ⟨listed_none_iff.mpr w.clean, hbot⟩
    exact ⟨⟨un, trapped_none_iff.mpr w.trap, hcap, hardLimits_none_iff.mpr w.limits,
      limiterReply_ok_iff.mpr w.limiter⟩, w.scores⟩

/-- A request goes upstream iff it is not turned away at the ceiling, is for no reserved endpoint and
is allowed. -/
lemma forwards_iff : (e.requestFilter crates disk ctx nowMs).1.Forwards
    ↔ e.atCapacity = false ∧ internalEndpoint ctx = none
      ∧ ((e.enter ctx.clientIp).evaluate crates disk ctx nowMs).1.action = .allow := by
  unfold requestFilter
  cases e.atCapacity with
  | true => exact ⟨nofun, nofun⟩
  | false =>
    cases internalEndpoint ctx with
    | some endpoint => exact ⟨nofun, nofun⟩
    | none => exact ⟨fun h => ⟨rfl, rfl, h⟩, fun h => h.2.2⟩

end Engine

namespace ConnTracker

variable {t : ConnTracker} {ip : IpAddr}

/-- A full tracker does not record a new address, whatever it answers. -/
lemma inc_full (hfull : maxEntries < t.inner.size) (hnew : t.inner.lookup ip = none) :
    t.inc ip = (999999, t) := by
  unfold inc
  rw [HashMap.get, hnew]
  exact if_pos hfull

/-- A new address has no requests in flight. -/
lemma current_new (hnew : t.inner.lookup ip = none) : t.current ip = 0 := by
  rw [current, HashMap.get, hnew]
  rfl

end ConnTracker

namespace Engine

variable {crates : Crates} {e : Engine} {disk : Disk} {ctx : RequestCtx} {nowMs : Nat}

/-- The cap lets every new address pass while the tracker is full. -/
lemma overCap_full (hfull : ConnTracker.maxEntries < e.conns.inner.size)
    (hnew : e.conns.inner.lookup ctx.clientIp = none) :
    (e.enter ctx.clientIp).overCap ctx = none := by
  have hcurrent : (e.enter ctx.clientIp).conns.current ctx.clientIp = 0 := by
    show ((e.conns.inc ctx.clientIp).2).current ctx.clientIp = 0
    rw [ConnTracker.inc_full hfull hnew]
    exact ConnTracker.current_new hnew
  rw [overCap_none_iff, hcurrent]
  exact le_of_lt

/-- With a full tracker a request of a new address is refused only where it would be anyway: at the
ceiling, at a reserved endpoint, or by a check other than the cap. -/
lemma not_forwards_full (hfull : ConnTracker.maxEntries < e.conns.inner.size)
    (hnew : e.conns.inner.lookup ctx.clientIp = none) (hlist : ¬ AllowListed e ctx.clientIp)
    (hbot : ∀ name, e.verdict ctx nowMs ≠ .goodBotVerified name) :
    ¬ (e.requestFilter crates disk ctx nowMs).1.Forwards
      ↔ e.atCapacity = true ∨ internalEndpoint ctx ≠ none
        ∨ ¬ Welcome crates (e.enter ctx.clientIp) ctx nowMs := by
  have hallow : ((e.enter ctx.clientIp).evaluate crates disk ctx nowMs).1.action = .allow
      ↔ Welcome crates (e.enter ctx.clientIp) ctx nowMs := by
    refine pipeline_allow_iff.trans ⟨?_, fun w => .inr (.inr ?_)⟩
    · rintro (hal | ⟨-, name, hv⟩ | hp)
      · exact absurd hal hlist
      · exact absurd hv (hbot name)
      · exact (passes_iff.mp hp).2.2
    · exact passes_iff.mpr ⟨hbot, overCap_full hfull hnew, w⟩
  rw [forwards_iff, hallow]
  simp only [not_and_or, Bool.not_eq_false, ne_eq]

end Engine

namespace RateLimiter

variable {rl : RateLimiter} {ip path : Str} {scaleBps now : Nat}

/-- A full limiter counts 999999 for a new key. -/
lemma bump_full {key : Str} (hfull : maxKeys < rl.counters.size)
    (hnew : rl.counters.lookup key = none) : rl.bump key now = (999999, rl) := by
  have hkey : rl.counters.containsKey key = false := by
    rw [HashMap.containsKey, hnew]
    rfl
  have hcond : (!rl.counters.containsKey key && maxKeys < rl.counters.size) = true := by
    rw [hkey, decide_eq_true hfull]
    rfl
  rw [bump, if_pos hcond]

/-- A ceiling is below the count that a full table answers with. -/
def Small (rpm burst : UInt32) (scaleBps : Nat) : Prop :=
  satAdd32 (scaleRpm rpm (max scaleBps 100)) burst.toNat < 999999

/-- A full table exceeds exactly the small ceilings. -/
lemma exceeds_full_iff {rpm burst : UInt32} :
    exceeds 999999 (scaleRpm rpm (max scaleBps 100)) burst.toNat = true
      ↔ Small rpm burst scaleBps := decide_eq_true_iff

lemma checkGlobal_full (hfull : maxKeys < rl.counters.size)
    (hglobal : rl.counters.lookup (globalKey ip) = none) :
    (∃ l, (rl.checkGlobal ip path (max scaleBps 100) now).1 = .error l)
      ↔ Small rl.globalRpm rl.globalBurst scaleBps := by
  simp only [checkGlobal, bump_full hfull hglobal]
  split
  case isTrue h => exact ⟨fun _ => exceeds_full_iff.mp h, fun _ => ⟨_, rfl⟩⟩
  case isFalse h => exact ⟨nofun, fun hs => absurd (exceeds_full_iff.mpr hs) h⟩

/-- With a full table a new address is refused iff the limiter is on and the ceiling of its route or
the global one is below the count that stands for a full table. -/
lemma checkScaled_full (hfull : maxKeys < rl.counters.size)
    (hroute : ∀ idx, rl.counters.lookup (routeKey idx ip) = none)
    (hglobal : rl.counters.lookup (globalKey ip) = none) :
    (∃ l, (rl.checkScaled ip path scaleBps now).1 = .error l)
      ↔ rl.enabled = true
        ∧ ((∃ r idx, rl.firstRoute path = some (r, idx) ∧ Small r.rpm r.burst scaleBps)
          ∨ Small rl.globalRpm rl.globalBurst scaleBps) := by
  unfold checkScaled
  cases rl.enabled with
  | false => exact ⟨nofun, nofun⟩
  | true =>
    simp only [Bool.not_true, Bool.false_eq_true, if_false, true_and]
    cases hr : rl.firstRoute path with
    | none =>
      rw [checkGlobal_full hfull hglobal]
      exact ⟨.inr, fun h => h.resolve_left fun ⟨_, _, hn, _⟩ => nomatch hn⟩
    | some route =>
      obtain ⟨r, idx⟩ := route
      simp only [bump_full hfull (hroute idx)]
      split
      case isTrue h =>
        exact ⟨fun _ => .inl ⟨r, idx, rfl, exceeds_full_iff.mp h⟩, fun _ => ⟨_, rfl⟩⟩
      case isFalse h =>
        rw [checkGlobal_full hfull hglobal]
        refine ⟨.inr, fun hs => hs.resolve_left ?_⟩
        rintro ⟨r', idx', hr', hs'⟩
        cases hr'
        exact h (exceeds_full_iff.mpr hs')

end RateLimiter

/-- What full tables refuse. A request of a new address, neither on an allow list nor of a verified
crawler, is kept from the origin only by the ceiling, a reserved endpoint or a check other than the
cap on requests in flight. A check of the rate limiter for a new address fails iff the limiter is on
and one of the ceilings that apply is below 999999. -/
theorem full_tables_iff {crates : Crates} {e : Engine} {disk : Disk} {ctx : RequestCtx} {nowMs : Nat}
    {rl : RateLimiter} {ip path : Str} {scaleBps now : Nat}
    (hfull : ConnTracker.maxEntries < e.conns.inner.size)
    (hnew : e.conns.inner.lookup ctx.clientIp = none)
    (hlist : ¬ Engine.AllowListed e ctx.clientIp)
    (hbot : ∀ name, e.verdict ctx nowMs ≠ .goodBotVerified name)
    (hkeys : RateLimiter.maxKeys < rl.counters.size)
    (hroute : ∀ idx, rl.counters.lookup (routeKey idx ip) = none)
    (hglobal : rl.counters.lookup (globalKey ip) = none) :
    (¬ (e.requestFilter crates disk ctx nowMs).1.Forwards
      ↔ e.atCapacity = true ∨ internalEndpoint ctx ≠ none
        ∨ ¬ Engine.Welcome crates (e.enter ctx.clientIp) ctx nowMs)
    ∧ ((∃ l, (rl.checkScaled ip path scaleBps now).1 = .error l)
      ↔ rl.enabled = true
        ∧ ((∃ r idx, rl.firstRoute path = some (r, idx) ∧ RateLimiter.Small r.rpm r.burst scaleBps)
          ∨ RateLimiter.Small rl.globalRpm rl.globalBurst scaleBps)) :=
  ⟨Engine.not_forwards_full hfull hnew hlist hbot,
    RateLimiter.checkScaled_full hkeys hroute hglobal⟩

/-- The addresses of a flood. -/
def floodIp (i : Nat) : IpAddr :=
  .v6 ⟨#v[0x2001, 0xdb8, 0, 0, 0, 0, UInt16.ofNat (i / 65536), UInt16.ofNat i]⟩

lemma floodIp_inj (i : Nat) (hi : i < 150001) (j : Nat) (hj : j < 150001)
    (h : floodIp i = floodIp j) : i = j := by
  simp only [floodIp, IpAddr.v6.injEq, Ipv6Addr.mk.injEq, Vector.mk.injEq, Array.mk.injEq,
    List.cons.injEq, and_true, true_and, UInt16.ofNat_eq_iff_mod_eq_toNat, UInt16.toNat_ofNat'] at h
  omega

/-- A tracker after a flood: no request is in flight, and the entries have not been swept yet. -/
def floodedConns : ConnTracker := ⟨.ofKeys floodIp 0 150001 floodIp_inj⟩

lemma floodKey_inj (i : Nat) (_ : i < 150001) (j : Nat) (_ : j < 150001)
    (h : List.replicate i 'x' = List.replicate j 'x') : i = j := by
  have hlen := congrArg List.length h
  rwa [List.length_replicate, List.length_replicate] at hlen

/-- A limiter after a flood, with a ceiling of a million requests a minute. -/
def floodedLimiter : RateLimiter :=
  ⟨true, 1000000, 0, [], .ofKeys (fun i => List.replicate i 'x') Counter.default 150001 floodKey_inj⟩

/-- The engine of a small configuration with the flooded tracker. -/
def floodedEngine : Engine := { Engine.sampleEngine with conns := floodedConns }

lemma floodedConns_size : ConnTracker.maxEntries < floodedConns.inner.size := by
  rw [floodedConns, HashMap.size_ofKeys]
  decide

lemma floodedLimiter_size : RateLimiter.maxKeys < floodedLimiter.counters.size := by
  rw [floodedLimiter, HashMap.size_ofKeys]
  decide

/-- The sample address is new to it. -/
lemma floodedConns_new : floodedConns.inner.lookup Engine.sampleCtx.clientIp = none :=
  HashMap.lookup_ofKeys floodIp_inj fun _ => nofun

/-- A key of the limiter starts with another letter. -/
lemma floodedLimiter_new {c : Char} {rest : Str} (hc : c ≠ 'x') :
    floodedLimiter.counters.lookup (c :: rest) = none := by
  refine HashMap.lookup_ofKeys floodKey_inj fun i h => ?_
  cases i with
  | zero => cases h
  | succ n => exact hc (List.cons.inj h).1.symm

/-- The flooded engine is not at its ceiling. -/
lemma floodedEngine_atCapacity : floodedEngine.atCapacity = false := by
  have htotal : floodedEngine.conns.total = 0 := by
    show (HashMap.values (HashMap.ofKeys floodIp 0 150001 floodIp_inj)).sum = 0
    rw [HashMap.values_ofKeys, List.sum_replicate, smul_zero]
  rw [Engine.atCapacity, htotal]
  rfl

/-- The address is on no allow list. -/
lemma floodedEngine_unlisted : ¬ Engine.AllowListed floodedEngine Engine.sampleCtx.clientIp := by
  rintro (h | h)
  · cases h
  · cases h

/-- The address is no verified crawler. -/
lemma floodedEngine_verdict (name : Str) :
    floodedEngine.verdict Engine.sampleCtx 1700000000000 ≠ .goodBotVerified name := nofun

/-- A plain request passes the other checks. -/
lemma floodedEngine_welcome : Engine.Welcome idleCrates
    (floodedEngine.enter Engine.sampleCtx.clientIp) Engine.sampleCtx 1700000000000 where
  clean := ⟨rfl, rfl, rfl, rfl, rfl⟩
  trap := by decide
  limits := ⟨⟨"GET".toList, by decide, by decide⟩, by decide,
    by decide, by decide, nofun⟩
  limiter _ := rfl
  scores := .inr (by decide)

/-- Full tables, and a new address. -/
theorem full_tables_iff_witness :
    (¬ (floodedEngine.requestFilter idleCrates (fun _ => none) Engine.sampleCtx
          1700000000000).1.Forwards
      ↔ floodedEngine.atCapacity = true ∨ internalEndpoint Engine.sampleCtx ≠ none
        ∨ ¬ Engine.Welcome idleCrates (floodedEngine.enter Engine.sampleCtx.clientIp)
          Engine.sampleCtx 1700000000000)
    ∧ ((∃ l, (floodedLimiter.checkScaled "1.2.3.4" "/x" 10000 1700000000).1 = .error l)
      ↔ floodedLimiter.enabled = true
        ∧ ((∃ r idx, floodedLimiter.firstRoute "/x" = some (r, idx)
            ∧ RateLimiter.Small r.rpm r.burst 10000)
          ∨ RateLimiter.Small floodedLimiter.globalRpm floodedLimiter.globalBurst 10000)) :=
  full_tables_iff floodedConns_size floodedConns_new floodedEngine_unlisted floodedEngine_verdict
    floodedLimiter_size (fun _ => floodedLimiter_new (by decide)) (floodedLimiter_new (by decide))

/-- With the tracker full a request of a new address goes upstream although the cap is positive, and
with the limiter full a check passes. -/
theorem full_tables_pass :
    0 < floodedEngine.runtime.connCap
      ∧ (floodedEngine.requestFilter idleCrates (fun _ => none) Engine.sampleCtx
        1700000000000).1.Forwards
      ∧ ¬ ∃ l, (floodedLimiter.checkScaled "1.2.3.4" "/x" 10000 1700000000).1 = .error l := by
  have cap : 0 < Engine.sampleEngine.runtime.connCap := by decide
  refine ⟨cap, ?_, ?_⟩
  · have hiff := @Engine.not_forwards_full idleCrates floodedEngine (fun _ => none) Engine.sampleCtx
      1700000000000 floodedConns_size floodedConns_new floodedEngine_unlisted floodedEngine_verdict
    have hno : internalEndpoint Engine.sampleCtx = none := by decide
    by_contra hnot
    obtain h | h | h := hiff.mp hnot
    · rw [floodedEngine_atCapacity] at h
      cases h
    · exact h hno
    · exact h floodedEngine_welcome
  · rw [RateLimiter.checkScaled_full floodedLimiter_size (fun _ => floodedLimiter_new (by decide))
      (floodedLimiter_new (by decide))]
    have large : ¬ RateLimiter.Small 1000000 0 10000 := by
      unfold RateLimiter.Small
      decide
    rintro ⟨-, ⟨r, idx, hroute, -⟩ | hsmall⟩
    · cases hroute
    · exact large hsmall

end Waf
