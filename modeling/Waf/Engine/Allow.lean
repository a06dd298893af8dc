import Waf.Engine.Exits

/-!
# When a request is allowed

The exits that allow a request, with what has been checked before each: `pipeline_allow_iff` says when
the pipeline allows, in terms of its checks, and `allow_sound` spells out what that means for the
lists, the ban table, the limits and the scores. Nothing that a client sends lets a denied or banned
address pass, since the lists come first.
-/

namespace Waf
open Lib
open Goodbot (Verdict)

namespace Engine

/-- The address is on no list and not banned. -/
structure Clean (e : Engine) (ip : IpAddr) (now : Nat) : Prop where
  allowRuntime : inNets e.runtime.allow ip = false
  allow : inNets e.reputations.allow ip = false
  deny : inNets e.reputations.deny ip = false
  banned : e.reputations.isBanned ip now = false
  denyRuntime : inNets e.runtime.deny ip = false

/-- The request meets every hard limit. -/
structure WithinLimits (l : LimitsCfg) (ctx : RequestCtx) : Prop where
  method : ∃ m ∈ l.allowedMethods, eqIgnoreCase m ctx.method = true
  uri : byteLen ctx.uri ≤ l.maxUriBytes
  headers : ctx.headers.size ≤ l.maxHeaders
  values : ∀ v ∈ ctx.headers.values, byteLen v ≤ l.maxHeaderValueBytes
  body : ∀ cl, ctx.contentLength = some cl → cl ≤ l.maxBodyBytes

variable {crates : Crates} {e : Engine} {disk : Disk} {ctx : RequestCtx} {nowMs : Nat}

/-- A store allows exactly the addresses on its list. -/
lemma classify_allow_iff {r : Reputations} {ip : IpAddr} {now : Nat} :
    r.classify ip now = .allow ↔ inNets r.allow ip = true := by
  unfold Reputations.classify
  cases inNets r.allow ip with
  | true => simp
  | false => cases inNets r.deny ip <;> cases r.isBanned ip now <;> simp

/-- It knows nothing of those on no list that are not banned. -/
lemma classify_unknown_iff {r : Reputations} {ip : IpAddr} {now : Nat} :
    r.classify ip now = .unknown
      ↔ inNets r.allow ip = false ∧ inNets r.deny ip = false ∧ r.isBanned ip now = false := by
  unfold Reputations.classify
  cases inNets r.allow ip with
  | true => simp
  | false => cases inNets r.deny ip <;> cases r.isBanned ip now <;> simp

/-- The lists decide nothing iff the address is clean. -/
lemma listed_none_iff : e.listed ctx nowMs = none ↔ Clean e ctx.clientIp (nowMs / 1000) := by
  have key : e.listed ctx nowMs = none ↔ inNets e.runtime.allow ctx.clientIp = false
      ∧ e.reputations.classify ctx.clientIp (nowMs / 1000) = .unknown
      ∧ inNets e.runtime.deny ctx.clientIp = false := by
    simp only [listed]
    cases inNets e.runtime.allow ctx.clientIp with
    | true => exact ⟨nofun, nofun⟩
    | false =>
      cases e.reputations.classify ctx.clientIp (nowMs / 1000) with
      | allow => exact ⟨nofun, nofun⟩
      | deny => exact ⟨nofun, nofun⟩
      | unknown =>
        cases inNets e.runtime.deny ctx.clientIp with
        | true => exact ⟨nofun, nofun⟩
        | false => exact ⟨fun _ => ⟨rfl, rfl, rfl⟩, fun _ => rfl⟩
  rw [key, classify_unknown_iff]
  constructor
  · rintro ⟨h1, ⟨h2, h3, h4⟩, h5⟩
    exact ⟨h1, h2, h3, h4, h5⟩
  · rintro ⟨h1, h2, h3, h4, h5⟩
    exact ⟨h1, ⟨h2, h3, h4⟩, h5⟩

/-- The lists allow only the addresses of an allow list. -/
lemma listed_allow_iff {d} (h : e.listed ctx nowMs = some d) :
    d.action = .allow ↔ inNets e.runtime.allow ctx.clientIp = true
      ∨ inNets e.reputations.allow ctx.clientIp = true := by
  simp only [listed] at h
  have hallow := @classify_allow_iff e.reputations ctx.clientIp (nowMs / 1000)
  rw [← hallow]
  cases hrt : inNets e.runtime.allow ctx.clientIp with
  | true =>
    rw [hrt] at h
    obtain rfl := Option.some.inj h
    exact ⟨fun _ => .inl rfl, fun _ => rfl⟩
  | false =>
    rw [hrt] at h
    cases hc : e.reputations.classify ctx.clientIp (nowMs / 1000) with
    | allow =>
      rw [hc] at h
      obtain rfl := Option.some.inj h
      exact ⟨fun _ => .inr rfl, fun _ => rfl⟩
    | deny =>
      rw [hc] at h
      obtain rfl := Option.some.inj h
      exact ⟨nofun, by rintro (h | h) <;> cases h⟩
    | unknown =>
      rw [hc] at h
      cases hd : inNets e.runtime.deny ctx.clientIp with
      | true =>
        rw [hd] at h
        obtain rfl := Option.some.inj h
        exact ⟨nofun, by rintro (h | h) <;> cases h⟩
      | false =>
        rw [hd] at h
        cases h

/-- The lists allow or block. -/
lemma listed_cases {d} (h : e.listed ctx nowMs = some d) :
    d.action = .allow ∨ d.action = .block := by
  simp only [listed] at h
  cases hrt : inNets e.runtime.allow ctx.clientIp with
  | true =>
    rw [hrt] at h
    obtain rfl := Option.some.inj h
    exact .inl rfl
  | false =>
    rw [hrt] at h
    cases hc : e.reputations.classify ctx.clientIp (nowMs / 1000) with
    | allow =>
      rw [hc] at h
      obtain rfl := Option.some.inj h
      exact .inl rfl
    | deny =>
      rw [hc] at h
      obtain rfl := Option.some.inj h
      exact .inr rfl
    | unknown =>
      rw [hc] at h
      cases hd : inNets e.runtime.deny ctx.clientIp with
      | true =>
        rw [hd] at h
        obtain rfl := Option.some.inj h
        exact .inr rfl
      | false =>
        rw [hd] at h
        cases h

/-- What the thresholds allow. -/
lemma threshold_allow_iff {d : Decision} :
    (e.threshold disk ctx d nowMs).1.action = .allow
      ↔ d.score < e.runtime.effectiveBlock ∧ d.score < e.runtime.effectiveChallenge := by
  simp only [threshold]
  split
  case isTrue hb =>
    have hlt : ¬ d.score < e.runtime.effectiveBlock := by omega
    split
    case isTrue =>
      refine ⟨fun h => ?_, fun h => absurd h.1 hlt⟩
      cases h
    case isFalse =>
      refine ⟨fun h => ?_, fun h => absurd h.1 hlt⟩
      cases h
  case isFalse hb =>
    split
    case isTrue hc =>
      refine ⟨fun h => ?_, fun h => absurd h.2 (by omega)⟩
      cases h
    case isFalse hc => exact ⟨fun _ => ⟨by omega, by omega⟩, fun _ => rfl⟩

/-- A request is not over the cap iff there is none or it has room. -/
lemma overCap_none_iff : e.overCap ctx = none
    ↔ (0 < e.runtime.connCap → e.conns.current ctx.clientIp ≤ e.runtime.connCap) := by
  simp only [overCap]
  split
  case isTrue h => exact ⟨nofun, fun hle => absurd (hle h.1) (not_le.mpr h.2)⟩
  case isFalse h => exact ⟨fun _ hpos => not_lt.mp fun hlt => h ⟨hpos, hlt⟩, fun _ => rfl⟩

/-- The hard limits are checked in order; none decides exactly when all are met. -/
lemma hardLimits_none_iff : e.hardLimits ctx = none ↔ WithinLimits e.cfg.limits ctx := by
  simp only [hardLimits]
  split
  case isTrue hm =>
    refine ⟨nofun, fun h => ?_⟩
    rw [List.any_eq_true.mpr h.method] at hm
    cases hm
  case isFalse hm =>
    split
    case isTrue hu => exact ⟨nofun, fun h => absurd h.uri (not_le.mpr hu)⟩
    case isFalse hu =>
      split
      case isTrue hs => exact ⟨nofun, fun h => absurd h.headers (not_le.mpr hs)⟩
      case isFalse hs =>
        split
        case h_1 v hv =>
          have hlong : e.cfg.limits.maxHeaderValueBytes < byteLen v := by
            simpa using List.find?_some hv
          exact ⟨nofun, fun h => absurd (h.values v (List.mem_of_find?_eq_some hv))
            (not_le.mpr hlong)⟩
        case h_2 hv =>
          have hmethod : ∃ m ∈ e.cfg.limits.allowedMethods, eqIgnoreCase m ctx.method = true := by
            simpa using hm
          have hvalues : ∀ v ∈ ctx.headers.values, byteLen v ≤ e.cfg.limits.maxHeaderValueBytes := by
            simpa using hv
          split
          case h_1 cl hcl =>
            split
            case isTrue hb => exact ⟨nofun, fun h => absurd (h.body cl hcl) (not_le.mpr hb)⟩
            case isFalse hb =>
              refine ⟨fun _ => ⟨hmethod, not_lt.mp hu, not_lt.mp hs, hvalues, ?_⟩, fun _ => rfl⟩
              intro cl' hcl'
              rw [hcl] at hcl'
              obtain rfl := Option.some.inj hcl'
              exact not_lt.mp hb
          case h_2 hcl =>
            refine ⟨fun _ => ⟨hmethod, not_lt.mp hu, not_lt.mp hs, hvalues, ?_⟩, fun _ => rfl⟩
            intro cl' hcl'
            rw [hcl] at hcl'
            cases hcl'

/-- The cap only blocks, with the status of the rate limit. -/
lemma overCap_block {d} (h : e.overCap ctx = some d) : d.action = .block ∧ d.status = 429 := by
  simp only [overCap] at h
  split at h
  case isTrue =>
    obtain rfl := Option.some.inj h
    exact ⟨rfl, rfl⟩
  case isFalse => cases h

/-- The hard limits only block. -/
lemma hardLimits_block {d} (h : e.hardLimits ctx = some d) : d.action = .block := by
  have hblock : ∀ {status r}, some (Decision.block ctx.requestId status r) = some d →
      d.action = .block := by
    intro status r hd
    obtain rfl := Option.some.inj hd
    rfl
  simp only [hardLimits] at h
  split at h
  case isTrue => exact hblock h
  case isFalse =>
    split at h
    case isTrue => exact hblock h
    case isFalse =>
      split at h
      case isTrue => exact hblock h
      case isFalse =>
        split at h
        case h_1 => exact hblock h
        case h_2 =>
          split at h
          case h_1 =>
            split at h
            case isTrue => exact hblock h
            case isFalse => cases h
          case h_2 => cases h

/-- A request is in no trap iff there are none or its path is none. -/
lemma trapped_none_iff : e.trapped ctx = none
    ↔ (e.runtime.defenses.honeypots = true → e.honeypots.isTrap ctx.path = false) := by
  simp only [trapped, Honeypot.Honeypots.check]
  cases e.runtime.defenses.honeypots with
  | false => exact ⟨fun _ => nofun, fun _ => rfl⟩
  | true =>
    cases e.honeypots.isTrap ctx.path with
    | false => exact ⟨fun _ _ => rfl, fun _ => rfl⟩
    | true => exact ⟨nofun, fun h => absurd (h rfl) nofun⟩

/-- A request passes the limiter iff that is off or lets it pass. -/
lemma limiterReply_ok_iff : (e.limiterReply ctx nowMs).1 = .ok ()
    ↔ (e.runtime.rules.rateLimit = true → (e.rateLimiter.checkScaled ctx.clientIp.toStr ctx.path
        e.runtime.scaleBps (nowMs / 1000)).1 = .ok ()) := by
  unfold limiterReply
  cases e.runtime.rules.rateLimit with
  | false => exact ⟨fun _ => nofun, fun _ => rfl⟩
  | true => exact ⟨fun h _ => h, fun h => h rfl⟩

/-- What an allowed request has met after the crawler check. -/
def Passes (crates : Crates) (e : Engine) (ctx : RequestCtx) (nowMs : Nat) : Prop :=
  Admitted e ctx nowMs ∧ (e.cleared crates ctx nowMs = true
    ∨ (e.runtime.uamParams.forceChallenge = false
      ∧ totalScore (e.fired crates ctx nowMs) < e.runtime.effectiveBlock
      ∧ totalScore (e.fired crates ctx nowMs) < e.runtime.effectiveChallenge))

/-- Is the address on an allow list? -/
def AllowListed (e : Engine) (ip : IpAddr) : Prop :=
  inNets e.runtime.allow ip = true ∨ inNets e.reputations.allow ip = true

/-- If the lists decide nothing the address is on no allow list. -/
lemma not_allowListed (h : e.listed ctx nowMs = none) : ¬ AllowListed e ctx.clientIp := by
  have clean := listed_none_iff.mp h
  rintro (hrt | hst)
  · exact absurd hrt (by simp [clean.allowRuntime])
  · exact absurd hst (by simp [clean.allow])

/-- The pipeline allows the addresses of an allow list, verified crawlers, and requests that pass
every check and either carry a clearance or stay below the thresholds. -/
theorem pipeline_allow_iff : (e.pipeline crates disk ctx nowMs).1.action = .allow
    ↔ AllowListed e ctx.clientIp
      ∨ (e.listed ctx nowMs = none ∧ ∃ name, e.verdict ctx nowMs = .goodBotVerified name)
      ∨ Passes crates e ctx nowMs := by
  have hexit := @pipeline_exit crates e disk ctx nowMs
  generalize e.pipeline crates disk ctx nowMs = r at hexit
  -- past the crawler check only the last case is left
  have past : Unlisted e ctx nowMs → (AllowListed e ctx.clientIp
      ∨ (e.listed ctx nowMs = none ∧ ∃ name, e.verdict ctx nowMs = .goodBotVerified name)
      ∨ Passes crates e ctx nowMs → Passes crates e ctx nowMs) := by
    rintro un (hal | ⟨-, name, hv⟩ | hp)
    · exact absurd hal (not_allowListed un.listed)
    · exact absurd hv (un.crawler name)
    · exact hp
  cases hexit with
  | listed h =>
    refine (listed_allow_iff h).trans ⟨.inl, ?_⟩
    rintro (hal | ⟨hn, -⟩ | hp)
    · exact hal
    · rw [h] at hn
      cases hn
    · have hn := hp.1.listed
      rw [h] at hn
      cases hn
  | crawler h hv => exact ⟨fun _ => .inr (.inl ⟨h, _, hv⟩), fun _ => rfl⟩
  | trapped h hr =>
    refine ⟨nofun, fun hp => ?_⟩
    have htrap := (past h hp).1.trapped
    rw [hr] at htrap
    cases htrap
  | overCap h hr hd =>
    refine ⟨fun ha => ?_, fun hp => ?_⟩
    · rw [(overCap_block hd).1] at ha
      cases ha
    · have hcap := (past h hp).1.overCap
      rw [hd] at hcap
      cases hcap
  | hardLimits h hr hc hd =>
    refine ⟨fun ha => ?_, fun hp => ?_⟩
    · rw [hardLimits_block hd] at ha
      cases ha
    · have hlimits := (past h hp).1.hardLimits
      rw [hd] at hlimits
      cases hlimits
  | limited h hr hc hl hk =>
    refine ⟨nofun, fun hp => ?_⟩
    have hok := (past h hp).1.limiter
    rw [hk] at hok
    cases hok
  | cleared h hc => exact ⟨fun _ => .inr (.inr ⟨h, .inl hc⟩), fun _ => rfl⟩
  | forced h hc hf =>
    refine ⟨nofun, fun hp => ?_⟩
    rcases (past h.toUnlisted hp).2 with hc' | ⟨hf', -⟩
    · rw [hc] at hc'
      cases hc'
    · rw [hf] at hf'
      cases hf'
  | scored h hc hf =>
    -- the decision starts as an admission of score 0
    have hscore : (e.scored crates ctx nowMs).score = totalScore (e.fired crates ctx nowMs) :=
      Decision.addReasons_allow_score
    have hrt : (e.afterSignals crates ctx nowMs).runtime = e.runtime := rfl
    rw [threshold_allow_iff, hscore, hrt]
    refine ⟨fun hlt => .inr (.inr ⟨h, .inr ⟨hf, hlt⟩⟩), fun hp => ?_⟩
    rcases (past h.toUnlisted hp).2 with hc' | ⟨-, hlt⟩
    · rw [hc] at hc'
      cases hc'
    · exact hlt

/-- Only the crawler check verifies a crawler. -/
lemma verdict_verified {name} (h : e.verdict ctx nowMs = .goodBotVerified name) :
    e.runtime.defenses.goodbot = true
      ∧ (e.goodbot.classify ctx.clientIp ctx.userAgent (nowMs / 1000)).1
        = .goodBotVerified name := by
  simp only [verdict, crawler] at h
  split at h
  case isTrue hon => exact ⟨hon, h⟩
  case isFalse => cases h

/-- Allow is sound: the address is on an allow list; or it is on no list and not banned and belongs
to a verified crawler; or it is on no list and not banned, every check is passed, and the request
carries a clearance or, with no challenge forced, stays below both thresholds. A denied or banned
address passes only from an allow list. -/
theorem allow_sound (h : (e.evaluate crates disk ctx nowMs).1.action = .allow) :
    ((inNets e.runtime.allow ctx.clientIp = true ∨ inNets e.reputations.allow ctx.clientIp = true)
      ∨ (Clean e ctx.clientIp (nowMs / 1000) ∧ e.runtime.defenses.goodbot = true
        ∧ ∃ name, (e.goodbot.classify ctx.clientIp ctx.userAgent (nowMs / 1000)).1
          = .goodBotVerified name)
      ∨ (Clean e ctx.clientIp (nowMs / 1000)
        ∧ (e.runtime.defenses.honeypots = true → e.honeypots.isTrap ctx.path = false)
        ∧ (0 < e.runtime.connCap → e.conns.current ctx.clientIp ≤ e.runtime.connCap)
        ∧ WithinLimits e.cfg.limits ctx
        ∧ (e.runtime.rules.rateLimit = true → (e.rateLimiter.checkScaled ctx.clientIp.toStr
            ctx.path e.runtime.scaleBps (nowMs / 1000)).1 = .ok ())
        ∧ (e.cleared crates ctx nowMs = true
          ∨ (e.runtime.uamParams.forceChallenge = false
            ∧ totalScore (e.fired crates ctx nowMs) < e.runtime.effectiveBlock
            ∧ totalScore (e.fired crates ctx nowMs) < e.runtime.effectiveChallenge))))
    ∧ ((inNets e.reputations.deny ctx.clientIp = true ∨ inNets e.runtime.deny ctx.clientIp = true
          ∨ e.reputations.isBanned ctx.clientIp (nowMs / 1000) = true) →
        inNets e.runtime.allow ctx.clientIp = true
          ∨ inNets e.reputations.allow ctx.clientIp = true) := by
  have hcases := pipeline_allow_iff.mp h
  -- past the lists the address is clean, which no denied or banned one is
  have denied : Clean e ctx.clientIp (nowMs / 1000) → ¬ (inNets e.reputations.deny ctx.clientIp = true
      ∨ inNets e.runtime.deny ctx.clientIp = true
      ∨ e.reputations.isBanned ctx.clientIp (nowMs / 1000) = true) := by
    rintro clean (hd | hd | hd)
    · exact absurd hd (by simp [clean.deny])
    · exact absurd hd (by simp [clean.denyRuntime])
    · exact absurd hd (by simp [clean.banned])
  rcases hcases with hal | ⟨hn, name, hv⟩ | ⟨adm, hend⟩
  · exact ⟨.inl hal, fun _ => hal⟩
  · have clean := listed_none_iff.mp hn
    obtain ⟨hon, hclass⟩ := verdict_verified hv
    exact ⟨.inr (.inl ⟨clean, hon, name, hclass⟩), fun hd => absurd hd (denied clean)⟩
  · have clean := listed_none_iff.mp adm.listed
    refine ⟨.inr (.inr ⟨clean, ?_, ?_, ?_, ?_, hend⟩), fun hd => absurd hd (denied clean)⟩
    · exact trapped_none_iff.mp adm.trapped
    · exact overCap_none_iff.mp adm.overCap
    · exact hardLimits_none_iff.mp adm.hardLimits
    · exact limiterReply_ok_iff.mp adm.limiter

/-- A small configuration. -/
def sampleCfg : Config where
  rateLimit := { requestsPerMinute := 9999 }
  challenge := { hmacSecret := "a-very-secret-key-of-some-length" }

/-- An engine that has just started, with the heuristics on the request and the behaviour off. -/
def sampleEngine : Engine where
  cfg := sampleCfg
  rateLimiter := ⟨true, 9999, 0, [], ∅⟩
  reputations := ⟨[], [], 5, 60, 3600, ∅, none⟩
  challenger := .new sampleCfg.challenge.hmacSecret "__2t1_clearance" 1800 4
  uaScanner := ⟨none⟩
  runtime := { Runtime.fromConfig sampleCfg with
    defenses := { botScore := false, behavior := false, ddos := false } }
  honeypots := ⟨["/.env", "/pma/"]⟩
  bic := .new sampleCfg.challenge.hmacSecret

/-- A plain request. -/
def sampleCtx : RequestCtx where
  requestId := "t"
  clientIp := .v4 (.new 1 2 3 4)
  method := "GET"
  uri := "/x"
  path := "/x"
  host := "h"
  userAgent := "Mozilla/5.0"
  headers := (((∅ : HashMap Str Str).insert "host".toList "h".toList).insert "user-agent".toList
    "Mozilla/5.0".toList).insert "accept".toList "*/*".toList

/-- An ordinary request. -/
theorem allow_sound_witness :
    ((inNets sampleEngine.runtime.allow sampleCtx.clientIp = true
        ∨ inNets sampleEngine.reputations.allow sampleCtx.clientIp = true)
      ∨ (Clean sampleEngine sampleCtx.clientIp (1700000000000 / 1000)
        ∧ sampleEngine.runtime.defenses.goodbot = true
        ∧ ∃ name, (sampleEngine.goodbot.classify sampleCtx.clientIp sampleCtx.userAgent
            (1700000000000 / 1000)).1 = .goodBotVerified name)
      ∨ (Clean sampleEngine sampleCtx.clientIp (1700000000000 / 1000)
        ∧ (sampleEngine.runtime.defenses.honeypots = true →
            sampleEngine.honeypots.isTrap sampleCtx.path = false)
        ∧ (0 < sampleEngine.runtime.connCap →
            sampleEngine.conns.current sampleCtx.clientIp ≤ sampleEngine.runtime.connCap)
        ∧ WithinLimits sampleEngine.cfg.limits sampleCtx
        ∧ (sampleEngine.runtime.rules.rateLimit = true →
            (sampleEngine.rateLimiter.checkScaled sampleCtx.clientIp.toStr sampleCtx.path
              sampleEngine.runtime.scaleBps (1700000000000 / 1000)).1 = .ok ())
        ∧ (sampleEngine.cleared idleCrates sampleCtx 1700000000000 = true
          ∨ (sampleEngine.runtime.uamParams.forceChallenge = false
            ∧ totalScore (sampleEngine.fired idleCrates sampleCtx 1700000000000)
              < sampleEngine.runtime.effectiveBlock
            ∧ totalScore (sampleEngine.fired idleCrates sampleCtx 1700000000000)
              < sampleEngine.runtime.effectiveChallenge))))
    ∧ ((inNets sampleEngine.reputations.deny sampleCtx.clientIp = true
          ∨ inNets sampleEngine.runtime.deny sampleCtx.clientIp = true
          ∨ sampleEngine.reputations.isBanned sampleCtx.clientIp (1700000000000 / 1000) = true) →
        inNets sampleEngine.runtime.allow sampleCtx.clientIp = true
          ∨ inNets sampleEngine.reputations.allow sampleCtx.clientIp = true) := by
  have allowed : (sampleEngine.evaluate idleCrates (fun _ => none) sampleCtx 1700000000000).1.action
      = .allow := by decide
  exact allow_sound allowed

end Engine

end Waf
