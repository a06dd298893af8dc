import Waf.Admin
import Waf.Engine.Allow
import Waf.Limiter.Admission

/-!
# The rate-limit controls

The dashboard has a toggle for the rate limit, and a number that scales it under attack. The engine
asks the limiter while the toggle is on. But the limiter keeps the `enabled` of the configuration that
it was made from and lets everything through without it. And with `under_attack` the level in force is
medium, which has a scale of its own, so that the number is never used.

`controls_iff` says which requests this changes the decision on, in runs of the requests of one client
without route overrides.
-/

namespace Waf
open Lib
open Goodbot (Verdict)
open RateLimiter (Tracks bump_spec maxKeys checkGlobal_cases coldSecs)

namespace Engine

/-- Does the request reach the rate limit, with the toggle on? -/
def reachesRate (e : Engine) (ctx : RequestCtx) (nowMs : Nat) : Bool :=
  (e.listed ctx nowMs).isNone
    && (match e.verdict ctx nowMs with
      | .goodBotVerified _ => false
      | _ => true)
    && (e.trapped ctx).isNone && (e.overCap ctx).isNone && (e.hardLimits ctx).isNone
    && e.runtime.rules.rateLimit

variable {crates : Crates} {e : Engine} {disk : Disk} {ctx : RequestCtx} {nowMs : Nat}

/-- What `reachesRate` checks. -/
structure ReachesRate (e : Engine) (ctx : RequestCtx) (nowMs : Nat) : Prop
    extends Unlisted e ctx nowMs where
  trapped : e.trapped ctx = none
  overCap : e.overCap ctx = none
  hardLimits : e.hardLimits ctx = none
  toggle : e.runtime.rules.rateLimit = true

/-- What is computed is whether the rate limit is reached. -/
lemma reachesRate_iff : e.reachesRate ctx nowMs = true ↔ ReachesRate e ctx nowMs := by
  have hverdict : (match e.verdict ctx nowMs with
      | .goodBotVerified _ => false
      | _ => true) = true ↔ ∀ name, e.verdict ctx nowMs ≠ .goodBotVerified name := by
    cases e.verdict ctx nowMs with
    | goodBotVerified name => exact iff_of_false Bool.false_ne_true fun h => h name rfl
    | notABot => exact iff_of_true rfl fun _ h => by cases h
    | goodBotPending => exact iff_of_true rfl fun _ h => by cases h
    | goodBotSpoofed => exact iff_of_true rfl fun _ h => by cases h
  simp only [reachesRate, Bool.and_eq_true, hverdict, Option.isNone_iff_eq_none]
  constructor
  · rintro ⟨⟨⟨⟨⟨h1, h2⟩, h3⟩, h4⟩, h5⟩, h6⟩
    exact ⟨⟨h1, h2⟩, h3, h4, h5, h6⟩
  · rintro ⟨⟨h1, h2⟩, h3, h4, h5, h6⟩
    exact ⟨⟨⟨⟨⟨h1, h2⟩, h3⟩, h4⟩, h5⟩, h6⟩

/-- A request that has passed the checks before the rate limit reaches it iff the toggle is on. -/
lemma reachesRate_eq (h : Unlisted e ctx nowMs) (htrap : e.trapped ctx = none)
    (hcap : e.overCap ctx = none) (hlimits : e.hardLimits ctx = none) :
    e.reachesRate ctx nowMs = e.runtime.rules.rateLimit := by
  rw [Bool.eq_iff_iff, reachesRate_iff]
  exact ⟨fun h => h.toggle, fun htoggle => ⟨h, htrap, hcap, hlimits, htoggle⟩⟩

/-- It is computed as not reached when it is not. -/
lemma reachesRate_false (h : ¬ ReachesRate e ctx nowMs) : ¬ e.reachesRate ctx nowMs = true :=
  fun ht => h (reachesRate_iff.mp ht)

/-- The limiter counts exactly the requests that reach it. -/
lemma limiterReply_snd (h : e.reachesRate ctx nowMs = e.runtime.rules.rateLimit) :
    (e.limiterReply ctx nowMs).2 =
      if e.reachesRate ctx nowMs then
        (e.rateLimiter.checkScaled ctx.clientIp.toStr ctx.path e.runtime.scaleBps
          (nowMs / 1000)).2
      else e.rateLimiter := by
  rw [limiterReply, h]
  split
  case isTrue => rfl
  case isFalse => rfl

/-- The threshold does not touch it. -/
lemma threshold_limiter {d : Decision} :
    (e.threshold disk ctx d nowMs).2.1.rateLimiter = e.rateLimiter := by
  simp only [threshold]
  split_ifs
  case _ => rfl
  case _ => rfl
  case _ => rfl
  case _ => rfl

/-- Only a request that reaches the rate limit touches the limiter. -/
lemma evaluate_limiter : (e.evaluate crates disk ctx nowMs).2.1.rateLimiter =
    if e.reachesRate ctx nowMs then
      (e.rateLimiter.checkScaled ctx.clientIp.toStr ctx.path e.runtime.scaleBps (nowMs / 1000)).2
    else e.rateLimiter := by
  show (e.pipeline crates disk ctx nowMs).2.1.rateLimiter = _
  have hexit := @pipeline_exit crates e disk ctx nowMs
  generalize e.pipeline crates disk ctx nowMs = res at hexit
  cases hexit with
  | listed hd =>
    rw [if_neg (reachesRate_false fun h => Option.some_ne_none _ (hd.symm.trans h.listed))]
  | crawler _ hv =>
    rw [if_neg (reachesRate_false fun h => h.crawler _ hv)]
    rfl
  | trapped _ hr =>
    rw [if_neg (reachesRate_false fun h => Option.some_ne_none _ (hr.symm.trans h.trapped))]
    rfl
  | overCap _ _ hd =>
    rw [if_neg (reachesRate_false fun h => Option.some_ne_none _ (hd.symm.trans h.overCap))]
    rfl
  | hardLimits _ _ _ hd =>
    rw [if_neg (reachesRate_false fun h => Option.some_ne_none _ (hd.symm.trans h.hardLimits))]
    rfl
  | limited h hr hc hl => exact limiterReply_snd (reachesRate_eq h hr hc hl)
  | cleared h =>
    exact limiterReply_snd (reachesRate_eq h.toUnlisted h.trapped h.overCap h.hardLimits)
  | forced h =>
    exact limiterReply_snd (reachesRate_eq h.toUnlisted h.trapped h.overCap h.hardLimits)
  | scored h =>
    rw [threshold_limiter]
    exact limiterReply_snd (reachesRate_eq h.toUnlisted h.trapped h.overCap h.hardLimits)

/-- A request that the limiter refuses is refused. -/
lemma evaluate_error {l : Limited} (h : ReachesRate e ctx nowMs)
    (hl : (e.limiterReply ctx nowMs).1 = .error l) :
    (e.evaluate crates disk ctx nowMs).1 = limitDecision ctx l := by
  show (e.pipeline crates disk ctx nowMs).1 = _
  have hexit := @pipeline_exit crates e disk ctx nowMs
  generalize e.pipeline crates disk ctx nowMs = res at hexit
  cases hexit with
  | listed hd => cases hd.symm.trans h.listed
  | crawler _ hv => exact absurd hv (h.crawler _)
  | trapped _ hr => cases hr.symm.trans h.trapped
  | overCap _ _ hd => cases hd.symm.trans h.overCap
  | hardLimits _ _ _ hd => cases hd.symm.trans h.hardLimits
  | limited _ _ _ _ hk =>
    obtain rfl := Except.error.inj (hk.symm.trans hl)
    rfl
  | cleared hadm => cases hadm.limiter.symm.trans hl
  | forced hadm => cases hadm.limiter.symm.trans hl
  | scored hadm => cases hadm.limiter.symm.trans hl

/-- A request that the limiter lets through is not refused with 429. -/
lemma evaluate_ok (h : ReachesRate e ctx nowMs) (hok : (e.limiterReply ctx nowMs).1 = .ok ()) :
    (e.evaluate crates disk ctx nowMs).1.action ≠ .block ∨
      (e.evaluate crates disk ctx nowMs).1.status ≠ 429 := by
  show (e.pipeline crates disk ctx nowMs).1.action ≠ _ ∨ (e.pipeline crates disk ctx nowMs).1.status ≠ _
  have hexit := @pipeline_exit crates e disk ctx nowMs
  generalize e.pipeline crates disk ctx nowMs = res at hexit
  cases hexit with
  | listed hd => cases hd.symm.trans h.listed
  | crawler _ hv => exact absurd hv (h.crawler _)
  | trapped _ hr => cases hr.symm.trans h.trapped
  | overCap _ _ hd => cases hd.symm.trans h.overCap
  | hardLimits _ _ _ hd => cases hd.symm.trans h.hardLimits
  | limited _ _ _ _ hk => cases hk.symm.trans hok
  | cleared => exact .inl fun h => by cases h
  | forced => exact .inl fun h => by cases h
  | scored =>
    simp only [threshold]
    split_ifs
    case _ => exact .inl fun h => by cases h
    case _ => exact .inr (show 403 ≠ 429 by decide)
    case _ => exact .inl fun h => by cases h
    case _ => exact .inl fun h => by cases h

end Engine

/-! ## Runs -/

/-- An engine, the ban file, and the times in seconds at which a request has reached the rate limit
with the toggle on. -/
structure Dials where
  engine : Engine
  disk : Disk
  reached : List Nat := []

namespace Dials

inductive Op where
  | patch (p : Patch)
  | request (ctx : RequestCtx)
  | gc
  /-- Anything else, which leaves the limiter alone. -/
  | elsewhere (rest : Engine) (disk : Disk)

def step (crates : Crates) (s : Dials) (o : Nat × Op) : Dials :=
  match o.2 with
  | .patch p => { s with engine := Process.patchEngine crates s.engine p }
  | .request ctx =>
    let res := s.engine.evaluate crates s.disk ctx o.1
    { engine := res.2.1
      disk := res.2.2
      reached := if s.engine.reachesRate ctx o.1 then s.reached ++ [o.1 / 1000] else s.reached }
  | .gc =>
    { s with engine := { s.engine with
      rateLimiter := s.engine.rateLimiter.gc coldSecs (o.1 / 1000) } }
  | .elsewhere rest disk =>
    { s with engine := { rest with rateLimiter := s.engine.rateLimiter }, disk := disk }

def run (crates : Crates) (s : Dials) (ops : List (Nat × Op)) : Dials := ops.foldl (step crates) s

/-- The requests of a window that have reached the rate limit, with one at time `nowMs`. -/
def rank (s : Dials) (nowMs : Nat) : Nat := recent 10 6 (s.reached ++ [nowMs / 1000]) (nowMs / 1000)

/-- The scale that the controls show. -/
def shownScale (rt : Runtime) : Nat :=
  match rt.uam with
  | .off => if rt.underAttack then max rt.rpmUnderAttackBps 100 else 10000
  | level => level.params.rpmScaleBps

/-- The ceiling of a scale. -/
def ceiling (cfg : Config) (scale : Nat) : Nat :=
  cfg.rateLimit.requestsPerMinute.toNat * scale / 10000 + cfg.rateLimit.burst.toNat

/-- The decision that refuses a request for the limit of its client. -/
def refusal (ctx : RequestCtx) : Decision :=
  Engine.limitDecision ctx ⟨Ratelimit.BUCKET_SECS, "global", ctx.path⟩

/-- A request is refused with 429 above the ceiling that the controls show, and not for the limit of
its client up to it. -/
structure Obeyed (crates : Crates) (cfg : Config) (s : Dials) (ctx : RequestCtx) (nowMs : Nat) :
    Prop where
  above : ceiling cfg (shownScale s.engine.runtime) < s.rank nowMs →
    (s.engine.evaluate crates s.disk ctx nowMs).1.action = .block ∧
      (s.engine.evaluate crates s.disk ctx nowMs).1.status = 429
  within : s.rank nowMs ≤ ceiling cfg (shownScale s.engine.runtime) →
    (s.engine.evaluate crates s.disk ctx nowMs).1 ≠ refusal ctx

/-- The limiter is one that works, or the request is within the ceiling; and when `under_attack` is on
and the level off, the request is on the same side of the ceiling as of that of level medium. -/
structure Effective (cfg : Config) (s : Dials) (nowMs : Nat) : Prop where
  disabled : cfg.rateLimit.enabled = false →
    s.rank nowMs ≤ ceiling cfg (shownScale s.engine.runtime)
  legacy : cfg.rateLimit.enabled = true → s.engine.runtime.uam = .off →
    s.engine.runtime.underAttack = true →
    (ceiling cfg (shownScale s.engine.runtime) < s.rank nowMs ↔ ceiling cfg 5000 < s.rank nowMs)

variable {crates : Crates} {cfg : Config} {e : Engine} {s : Dials} {ip : IpAddr} {ctx : RequestCtx}
  {nowMs clock : Nat} {ops : List (Nat × Op)}

/-- The hits of one client. -/
def history (ip : IpAddr) (ts : List Nat) : Str → List Nat :=
  fun k => if k = globalKey ip.toStr then ts else []

lemma history_self {ts : List Nat} : history ip ts (globalKey ip.toStr) = ts := if_pos rfl

/-- One more hit of its global key is one more of the client. -/
lemma bumped_history {ts : List Nat} {now : Nat} :
    RateLimiter.bumped (history ip ts) (globalKey ip.toStr) now = history ip (ts ++ [now]) := by
  funext k
  rw [RateLimiter.bumped, history, history]
  split
  case isTrue => rfl
  case isFalse => rfl

/-- The limiter of a configuration without routes, which has counted what has reached it. -/
structure Counts (cfg : Config) (ip : IpAddr) (s : Dials) (clock : Nat) : Prop where
  enabled : s.engine.rateLimiter.enabled = cfg.rateLimit.enabled
  rpm : s.engine.rateLimiter.globalRpm = cfg.rateLimit.requestsPerMinute
  burst : s.engine.rateLimiter.globalBurst = cfg.rateLimit.burst
  routes : s.engine.rateLimiter.routes = []
  tracks : cfg.rateLimit.enabled = true →
    Tracks s.engine.rateLimiter (history ip s.reached) clock

/-- The scale is the one that is shown, but for the flag alone. -/
lemma scale_eq : s.engine.runtime.scaleBps =
    if s.engine.runtime.uam = .off ∧ s.engine.runtime.underAttack = true then 5000
    else shownScale s.engine.runtime := by
  rw [Runtime.scaleBps, Runtime.uamParams, Runtime.effectiveUam, shownScale]
  cases s.engine.runtime.uam <;> cases s.engine.runtime.underAttack <;> rfl

lemma scale_le : s.engine.runtime.scaleBps ≤ 10000 ∧ 100 ≤ s.engine.runtime.scaleBps := by
  rw [Runtime.scaleBps, Runtime.uamParams, Runtime.effectiveUam]
  cases s.engine.runtime.uam <;> cases s.engine.runtime.underAttack <;> simp [UamLevel.params]

/-- Up to 2 ^ 32 requests, no ceiling is cut off. -/
lemma exceeds_iff (cfg : Config) {scale count : Nat} (hscale : scale ≤ 10000) (hcount : count < 2 ^ 32) :
    exceeds count (scaleRpm cfg.rateLimit.requestsPerMinute scale) cfg.rateLimit.burst.toNat = true
      ↔ ceiling cfg scale < count := by
  have hrpm : cfg.rateLimit.requestsPerMinute.toNat < 2 ^ 32 := UInt32.toNat_lt _
  have hle : cfg.rateLimit.requestsPerMinute.toNat * scale / 10000
      ≤ cfg.rateLimit.requestsPerMinute.toNat :=
    Nat.div_le_of_le_mul (by rw [Nat.mul_comm]; exact Nat.mul_le_mul_right _ hscale)
  rw [exceeds, scaleRpm, Nat.mod_eq_of_lt (hle.trans_lt hrpm), decide_eq_true_iff, satAdd32, u32Max,
    ceiling]
  omega

lemma rank_lt (h : s.reached.length < u32Max) : s.rank nowMs < 2 ^ 32 := by
  have hle : s.rank nowMs ≤ (s.reached ++ [nowMs / 1000]).length := List.countP_le_length
  rw [List.length_append, List.length_singleton] at hle
  rw [u32Max] at h
  omega

/-- Without routes, a call is counted under the key of its client. -/
lemma checkScaled_unrouted {rl : RateLimiter} {text path : Str} {scaleBps now : Nat}
    (on : rl.enabled = true) (hroutes : rl.routes = []) :
    rl.checkScaled text path scaleBps now = rl.checkGlobal text path (max scaleBps 100) now := by
  have hfirst : rl.firstRoute path = none := by
    rw [RateLimiter.firstRoute, hroutes]
    rfl
  rw [RateLimiter.checkScaled, on]
  simp only [hfirst]
  rfl

/-- What the limiter answers to a request that reaches it, and what it has counted then. -/
lemma Counts.reply (h : Counts cfg ip s clock) (hip : ctx.clientIp = ip)
    (hclock : clock ≤ nowMs / 1000) (on : cfg.rateLimit.enabled = true)
    (room : (s.engine.rateLimiter.checkScaled ctx.clientIp.toStr ctx.path s.engine.runtime.scaleBps
      (nowMs / 1000)).2.counters.size ≤ maxKeys) (len : s.reached.length < u32Max) :
    (s.engine.rateLimiter.checkScaled ctx.clientIp.toStr ctx.path s.engine.runtime.scaleBps
        (nowMs / 1000)).1 =
      (if ceiling cfg s.engine.runtime.scaleBps < s.rank nowMs then
        .error ⟨Ratelimit.BUCKET_SECS, "global", ctx.path⟩ else .ok ()) ∧
    Tracks (s.engine.rateLimiter.checkScaled ctx.clientIp.toStr ctx.path s.engine.runtime.scaleBps
        (nowMs / 1000)).2 (history ip (s.reached ++ [nowMs / 1000])) (nowMs / 1000) := by
  subst hip
  have hon : s.engine.rateLimiter.enabled = true := h.enabled.trans on
  rw [checkScaled_unrouted hon h.routes, max_eq_left scale_le.2] at room ⊢
  have hroom : (s.engine.rateLimiter.bump (globalKey ctx.clientIp.toStr) (nowMs / 1000)).2.counters.size
      ≤ maxKeys := by
    obtain ⟨-, he⟩ | ⟨-, he⟩ := checkGlobal_cases s.engine.rateLimiter ctx.clientIp.toStr ctx.path
      s.engine.runtime.scaleBps (nowMs / 1000)
    · rw [he] at room
      exact room
    · rw [he] at room
      exact room
  obtain ⟨hcount, htracks⟩ := bump_spec (h.tracks on) hclock hroom (by rw [history_self]; exact len)
  rw [history_self] at hcount
  rw [bumped_history] at htracks
  have hrank : s.rank nowMs < 2 ^ 32 := rank_lt len
  have hiff := exceeds_iff cfg (scale_le (s := s)).1 hrank
  obtain ⟨hx, he⟩ | ⟨hx, he⟩ := checkGlobal_cases s.engine.rateLimiter ctx.clientIp.toStr ctx.path
    s.engine.runtime.scaleBps (nowMs / 1000)
  · rw [hcount, h.rpm, h.burst] at hx
    rw [he, if_pos (hiff.mp hx)]
    exact ⟨rfl, htracks⟩
  · rw [hcount, h.rpm, h.burst] at hx
    rw [he, if_neg fun hlt => Bool.eq_false_iff.mp hx (hiff.mpr hlt)]
    exact ⟨rfl, htracks⟩

/-- A configuration without routes makes a limiter without routes and without counters. -/
lemma build_counts (ip : IpAddr) (disk : Disk) (built : Engine.build crates cfg = some e)
    (unrouted : cfg.rateLimit.routes = []) : Counts cfg ip ⟨e, disk, []⟩ 0 := by
  obtain ⟨rl, hrl, built⟩ := Option.bind_eq_some_iff.mp built
  obtain ⟨reps, -, built⟩ := Option.bind_eq_some_iff.mp built
  obtain ⟨ua, -, built⟩ := Option.bind_eq_some_iff.mp built
  obtain rfl := Option.some.inj built
  rw [RateLimiter.new, unrouted] at hrl
  obtain rfl := Option.some.inj hrl
  refine ⟨rfl, rfl, rfl, rfl, fun _ => ?_⟩
  exact (RateLimiter.tracks_empty rfl).congr rfl fun k => ite_self _

/-- What leaves the limiter alone leaves its counts alone. -/
lemma Counts.of_limiter {s' : Dials} (h : Counts cfg ip s clock)
    (hlimiter : s'.engine.rateLimiter = s.engine.rateLimiter) (hreached : s'.reached = s.reached) :
    Counts cfg ip s' clock := by
  obtain ⟨h1, h2, h3, h4, h5⟩ := h
  rw [← hlimiter] at h1 h2 h3 h4 h5
  rw [← hreached] at h5
  exact ⟨h1, h2, h3, h4, h5⟩

/-- A call changes nothing but the table. -/
lemma Counts.of_table {s' : Dials} {clock' : Nat} (h : Counts cfg ip s clock)
    (hrules : s'.engine.rateLimiter =
      { s.engine.rateLimiter with counters := s'.engine.rateLimiter.counters })
    (htracks : cfg.rateLimit.enabled = true →
      Tracks s'.engine.rateLimiter (history ip s'.reached) clock') : Counts cfg ip s' clock' := by
  refine ⟨?_, ?_, ?_, ?_, htracks⟩
  · rw [hrules]
    exact h.enabled
  · rw [hrules]
    exact h.rpm
  · rw [hrules]
    exact h.burst
  · rw [hrules]
    exact h.routes

/-- What is counted is so later. -/
lemma Counts.later {clock' : Nat} (h : Counts cfg ip s clock) (hle : clock ≤ clock') :
    Counts cfg ip s clock' := by
  refine { h with tracks := fun on => ⟨(h.tracks on).sorted, fun k t ht => ?_, fun k => ?_⟩ }
  · exact ((h.tracks on).past k t ht).trans hle
  · obtain ⟨old, fresh, hm, hold, hentry⟩ := (h.tracks on).entry k
    exact ⟨old, fresh, hm, fun t ht => (hold t ht).trans hle, hentry⟩

/-- A step keeps the count. -/
lemma Counts.step {o : Nat × Op} (h : Counts cfg ip s clock) (hclock : clock ≤ o.1 / 1000)
    (client : ∀ ctx, o.2 = .request ctx → ctx.clientIp = ip)
    (room : (s.step crates o).engine.rateLimiter.counters.size ≤ maxKeys)
    (len : (s.step crates o).reached.length ≤ u32Max) :
    Counts cfg ip (s.step crates o) (o.1 / 1000) := by
  obtain ⟨nowMs, op⟩ := o
  cases op with
  | patch p =>
    have hsame : Counts cfg ip (s.step crates (nowMs, .patch p)) clock := h.of_limiter rfl rfl
    exact hsame.later hclock
  | elsewhere rest disk =>
    have hsame : Counts cfg ip (s.step crates (nowMs, .elsewhere rest disk)) clock :=
      h.of_limiter rfl rfl
    exact hsame.later hclock
  | gc => exact h.of_table rfl fun on => RateLimiter.gc_tracks (h.tracks on) hclock
  | request ctx =>
    have hlimiter := @Engine.evaluate_limiter crates s.engine s.disk ctx nowMs
    cases hreach : s.engine.reachesRate ctx nowMs with
    | false =>
      rw [hreach, if_neg Bool.false_ne_true] at hlimiter
      refine (h.of_limiter hlimiter ?_).later hclock
      show (if s.engine.reachesRate ctx nowMs then _ else _) = _
      rw [hreach, if_neg Bool.false_ne_true]
    | true =>
      rw [hreach, if_pos rfl] at hlimiter
      have hreached : (s.step crates (nowMs, .request ctx)).reached =
          s.reached ++ [nowMs / 1000] := by
        show (if s.engine.reachesRate ctx nowMs then _ else _) = _
        rw [hreach, if_pos rfl]
      have htable : (s.step crates (nowMs, .request ctx)).engine.rateLimiter =
        (s.engine.rateLimiter.checkScaled ctx.clientIp.toStr ctx.path s.engine.runtime.scaleBps
          (nowMs / 1000)).2 := hlimiter
      rw [hreached, List.length_append, List.length_singleton] at len
      refine h.of_table ?_ fun on => ?_
      · rw [htable]
        exact RateLimiter.checkScaled_rules
      · rw [htable] at room ⊢
        rw [hreached]
        exact (h.reply (client ctx rfl) hclock on room len).2

lemma reached_le {o : Nat × Op} : s.reached.length ≤ (s.step crates o).reached.length := by
  obtain ⟨nowMs, op⟩ := o
  cases op with
  | patch p => exact le_rfl
  | elsewhere rest disk => exact le_rfl
  | gc => exact le_rfl
  | request ctx =>
    show _ ≤ (if s.engine.reachesRate ctx nowMs then s.reached ++ [nowMs / 1000] else s.reached).length
    split
    case isTrue => exact List.length_append ▸ Nat.le_add_right _ _
    case isFalse => exact le_rfl

/-- At every moment of a run the limiter has counted what has reached it. -/
lemma run_counts (h : Counts cfg ip s 0) (clock : (ops.map Prod.fst).Pairwise (· ≤ ·))
    (client : ∀ o ∈ ops, ∀ ctx, o.2 = .request ctx → ctx.clientIp = ip)
    (room : ∀ pre, pre <+: ops → (s.run crates pre).engine.rateLimiter.counters.size ≤ maxKeys)
    (len : (s.run crates ops).reached.length ≤ u32Max) :
    ∃ last, Counts cfg ip (s.run crates ops) last ∧
      ∀ t, (∀ o ∈ ops, o.1 ≤ t) → last ≤ t / 1000 := by
  induction ops using List.reverseRecOn with
  | nil => exact ⟨0, h, fun t _ => Nat.zero_le _⟩
  | append_singleton ops o ih =>
    have hrun : s.run crates (ops ++ [o]) = (s.run crates ops).step crates o :=
      List.foldl_concat ..
    have hroom := room _ List.prefix_rfl
    rw [hrun] at hroom len ⊢
    rw [List.map_append, List.pairwise_append] at clock
    obtain ⟨last, hcounts, hlast⟩ := ih clock.1
      (fun o' ho' => client o' (List.mem_append_left _ ho'))
      (fun pre hp => room pre (hp.trans (List.prefix_append _ _))) (reached_le.trans len)
    have hnow : last ≤ o.1 / 1000 := hlast o.1 fun o' ho' =>
      clock.2.2 _ (List.mem_map_of_mem ho') _ (List.mem_singleton_self _)
    refine ⟨o.1 / 1000, hcounts.step hnow ?_ hroom len, fun t ht => ?_⟩
    · exact client o (List.mem_append_right _ (List.mem_singleton_self _))
    · exact Nat.div_le_div_right (ht o (List.mem_append_right _ (List.mem_singleton_self _)))

/-- Which side of its ceiling the limiter finds a request on. -/
lemma refused_iff (hcounts : Counts cfg ip s clock) (hip : ctx.clientIp = ip)
    (hclock : clock ≤ nowMs / 1000) (hreach : Engine.ReachesRate s.engine ctx nowMs)
    (room : (s.step crates (nowMs, .request ctx)).engine.rateLimiter.counters.size ≤ maxKeys)
    (len : s.reached.length < u32Max) :
    (cfg.rateLimit.enabled = true ∧ ceiling cfg s.engine.runtime.scaleBps < s.rank nowMs →
      (s.engine.evaluate crates s.disk ctx nowMs).1 = refusal ctx) ∧
    (¬ (cfg.rateLimit.enabled = true ∧ ceiling cfg s.engine.runtime.scaleBps < s.rank nowMs) →
      (s.engine.evaluate crates s.disk ctx nowMs).1.action ≠ .block ∨
        (s.engine.evaluate crates s.disk ctx nowMs).1.status ≠ 429) := by
  have hreply : s.engine.limiterReply ctx nowMs =
      s.engine.rateLimiter.checkScaled ctx.clientIp.toStr ctx.path s.engine.runtime.scaleBps
        (nowMs / 1000) := if_pos hreach.toggle
  have htable : (s.step crates (nowMs, .request ctx)).engine.rateLimiter =
      (s.engine.rateLimiter.checkScaled ctx.clientIp.toStr ctx.path s.engine.runtime.scaleBps
        (nowMs / 1000)).2 := by
    have hlimiter := @Engine.evaluate_limiter crates s.engine s.disk ctx nowMs
    rwa [if_pos (Engine.reachesRate_iff.mpr hreach)] at hlimiter
  rw [htable] at room
  constructor
  · rintro ⟨on, habove⟩
    refine Engine.evaluate_error hreach ?_
    rw [hreply, (hcounts.reply hip hclock on room len).1, if_pos habove]
  · intro hnot
    refine Engine.evaluate_ok hreach ?_
    rw [hreply]
    cases on : cfg.rateLimit.enabled with
    | true =>
      rw [(hcounts.reply hip hclock on room len).1, if_neg fun habove => hnot ⟨on, habove⟩]
    | false =>
      rw [RateLimiter.checkScaled, hcounts.enabled, on]
      rfl

/-- A refusal blocks with 429. -/
lemma refusal_eq : (refusal ctx).action = .block ∧ (refusal ctx).status = 429 := ⟨rfl, rfl⟩

/-- A request is decided on as the controls show iff they have their effect on it. -/
lemma obeyed_iff (hcounts : Counts cfg ip s clock) (hip : ctx.clientIp = ip)
    (hclock : clock ≤ nowMs / 1000) (hreach : Engine.ReachesRate s.engine ctx nowMs)
    (room : (s.step crates (nowMs, .request ctx)).engine.rateLimiter.counters.size ≤ maxKeys)
    (len : s.reached.length < u32Max) :
    Obeyed crates cfg s ctx nowMs ↔ Effective cfg s nowMs := by
  obtain ⟨hrefused, hpassed⟩ := refused_iff hcounts hip hclock hreach room len
  -- the decision is the refusal above the ceiling of the scale in force
  have hobeyed : Obeyed crates cfg s ctx nowMs ↔
      (ceiling cfg (shownScale s.engine.runtime) < s.rank nowMs ↔
        cfg.rateLimit.enabled = true ∧ ceiling cfg s.engine.runtime.scaleBps < s.rank nowMs) := by
    constructor
    · intro h
      refine ⟨fun habove => by_contra fun hnot => ?_, fun hlimited => by_contra fun hnot => ?_⟩
      · obtain ⟨haction, hstatus⟩ := h.above habove
        exact (hpassed hnot).elim (fun hne => hne haction) fun hne => hne hstatus
      · exact h.within (Nat.not_lt.mp hnot) (hrefused hlimited)
    · intro hiff
      constructor
      · intro habove
        rw [hrefused (hiff.mp habove)]
        exact refusal_eq
      · intro hwithin heq
        have hnot := hpassed fun hlimited => absurd (hiff.mpr hlimited) (Nat.not_lt.mpr hwithin)
        rw [heq] at hnot
        exact hnot.elim (fun hne => hne rfl) fun hne => hne rfl
  rw [hobeyed, scale_eq]
  cases on : cfg.rateLimit.enabled with
  | false =>
    constructor
    · intro hiff
      exact ⟨fun _ => Nat.not_lt.mp fun habove => Bool.false_ne_true (hiff.mp habove).1,
        fun hon => absurd (on.symm.trans hon) Bool.false_ne_true⟩
    · intro h
      exact ⟨fun habove => absurd habove (Nat.not_lt.mpr (h.disabled on)),
        fun hlimited => absurd hlimited.1 Bool.false_ne_true⟩
  | true =>
    rw [and_iff_right rfl]
    split
    case isTrue hlegacy =>
      constructor
      · exact fun hiff =>
          ⟨fun hoff => absurd (hoff.symm.trans on) Bool.false_ne_true, fun _ _ _ => hiff⟩
      · exact fun h => h.legacy on hlegacy.1 hlegacy.2
    case isFalse hlegacy =>
      refine iff_of_true Iff.rfl ⟨fun hoff => absurd (hoff.symm.trans on) Bool.false_ne_true, ?_⟩
      exact fun _ hoff hattack => absurd ⟨hoff, hattack⟩ hlegacy

/-- In a run of the requests of one client without route overrides, of which fewer than 2 ^ 32 - 1 have
reached the rate limit, one that reaches it is decided on as the controls show iff they have their
effect on it. -/
theorem controls_iff (disk : Disk) (built : Engine.build crates cfg = some e)
    (unrouted : cfg.rateLimit.routes = []) (clock : (ops.map Prod.fst).Pairwise (· ≤ ·))
    (client : ∀ o ∈ ops, ∀ ctx, o.2 = .request ctx → ctx.clientIp = ip)
    (room : ∀ pre, pre <+: ops →
      ((⟨e, disk, []⟩ : Dials).run crates pre).engine.rateLimiter.counters.size ≤ maxKeys)
    {pre : List (Nat × Op)} (call : pre ++ [(nowMs, .request ctx)] <+: ops)
    (len : ((⟨e, disk, []⟩ : Dials).run crates pre).reached.length < u32Max)
    (reaches : ((⟨e, disk, []⟩ : Dials).run crates pre).engine.reachesRate ctx nowMs = true) :
    Obeyed crates cfg ((⟨e, disk, []⟩ : Dials).run crates pre) ctx nowMs ↔
      Effective cfg ((⟨e, disk, []⟩ : Dials).run crates pre) nowMs := by
  have hpre : pre <+: ops := (List.prefix_append _ _).trans call
  have hsorted := clock.sublist (call.map Prod.fst).sublist
  rw [List.map_append, List.pairwise_append] at hsorted
  obtain ⟨last, hcounts, hlast⟩ := run_counts (build_counts ip disk built unrouted) hsorted.1
    (fun o ho => client o (hpre.subset ho)) (fun pre' hp => room pre' (hp.trans hpre)) len.le
  have hnow : last ≤ nowMs / 1000 := hlast nowMs fun o ho =>
    hsorted.2.2 _ (List.mem_map_of_mem ho) _ (List.mem_singleton_self _)
  have hroom := room _ call
  rw [run, List.foldl_concat] at hroom
  refine obeyed_iff hcounts ?_ hnow (Engine.reachesRate_iff.mp reaches) hroom len
  exact client _ (call.subset (List.mem_append_right _ (List.mem_singleton_self _))) ctx rfl

/-- A configuration without the rate limit. -/
def offCfg : Config :=
  { Engine.sampleCfg with rateLimit := { enabled := false, requestsPerMinute := 1 } }

def offEngine : Engine := (Engine.build idleCrates offCfg).get (by decide)

def offDials : Dials := ⟨offEngine, fun _ => none, []⟩

/-- The toggle is switched on, and a request comes. -/
def switchedOn : List (Nat × Op) :=
  [(1700000000000, .patch { rules := some { rateLimit := some true } }),
    (1700000001000, .request Engine.sampleCtx)]

/-- A configuration with two requests per minute. -/
def twoCfg : Config := { Engine.sampleCfg with rateLimit := { requestsPerMinute := 2 } }

def twoDials : Dials :=
  ⟨(Engine.build idleCrates twoCfg).get (by decide), fun _ => none, []⟩

/-- The mode is switched on with a scale of 100 %, and a request comes. -/
def attacked : List (Nat × Op) :=
  [(1700000000000, .patch { underAttack := some true, rpmUnderAttackBps := some 10000 }),
    (1700000001000, .request Engine.sampleCtx)]

/-- The toggled limiter counts the requests and passes the second one. -/
lemma switchedOn_run :
    (offDials.run idleCrates switchedOn).engine.reachesRate Engine.sampleCtx 1700000002000 = true ∧
      ceiling offCfg (shownScale (offDials.run idleCrates switchedOn).engine.runtime) <
        (offDials.run idleCrates switchedOn).rank 1700000002000 ∧
      ((offDials.run idleCrates switchedOn).engine.evaluate idleCrates
        (offDials.run idleCrates switchedOn).disk Engine.sampleCtx 1700000002000).1.status ≠ 429 ∧
      (offDials.run idleCrates switchedOn).reached.length < u32Max ∧
      ∀ pre ∈ (switchedOn ++ [(1700000002000, Op.request Engine.sampleCtx)]).inits,
        (offDials.run idleCrates pre).engine.rateLimiter.counters.size ≤ maxKeys := by
  decide

/-- The limiter of the mode refuses the second request. -/
lemma attacked_run :
    (twoDials.run idleCrates attacked).engine.reachesRate Engine.sampleCtx 1700000002000 = true ∧
      (twoDials.run idleCrates attacked).rank 1700000002000 ≤
        ceiling twoCfg (shownScale (twoDials.run idleCrates attacked).engine.runtime) ∧
      ((twoDials.run idleCrates attacked).engine.evaluate idleCrates
        (twoDials.run idleCrates attacked).disk Engine.sampleCtx 1700000002000).1 =
        refusal Engine.sampleCtx := by
  decide

/-- The second request passes a ceiling of one when the configuration has the limit off, and it is
refused within a ceiling of two when the mode is on. -/
theorem controls_ignored :
    ((offDials.run idleCrates switchedOn).engine.reachesRate Engine.sampleCtx 1700000002000 = true ∧
      ¬ Obeyed idleCrates offCfg (offDials.run idleCrates switchedOn) Engine.sampleCtx
        1700000002000) ∧
    (twoDials.run idleCrates attacked).engine.reachesRate Engine.sampleCtx 1700000002000 = true ∧
      ¬ Obeyed idleCrates twoCfg (twoDials.run idleCrates attacked) Engine.sampleCtx
        1700000002000 := by
  obtain ⟨hreaches, hover, hstatus, -, -⟩ := switchedOn_run
  obtain ⟨hreaches', hwithin, hrefused⟩ := attacked_run
  exact ⟨⟨hreaches, fun h => hstatus (h.above hover).2⟩, hreaches',
    fun h => h.within hwithin hrefused⟩

/-- A limiter that was off when it was built. -/
theorem switchedOn_controls_iff :
    Obeyed idleCrates offCfg (offDials.run idleCrates switchedOn) Engine.sampleCtx 1700000002000 ↔
      Effective offCfg (offDials.run idleCrates switchedOn) 1700000002000 := by
  have built : Engine.build idleCrates offCfg = some offEngine := (Option.some_get _).symm
  obtain ⟨hreaches, -, -, hlen, room⟩ := switchedOn_run
  have client : ∀ o ∈ switchedOn ++ [(1700000002000, Op.request Engine.sampleCtx)], ∀ ctx,
      o.2 = .request ctx → ctx.clientIp = Engine.sampleCtx.clientIp := by
    intro o ho ctx hctx
    rw [switchedOn] at ho
    cases ho with
    | head => cases hctx
    | tail _ ho =>
      cases ho with
      | head =>
        cases hctx
        rfl
      | tail _ ho =>
        obtain rfl := List.mem_singleton.mp ho
        cases hctx
        rfl
  exact controls_iff _ built rfl (by decide) client
    (fun pre hp => room pre ((List.mem_inits _ _).mpr hp)) List.prefix_rfl hlen hreaches

end Dials

end Waf
