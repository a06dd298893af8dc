import Waf.Engine.Refusal
import Waf.Runtime.Lists

/-!
# Tighter settings

Two runs of the engine from states that differ only in the settings, those of the second being tighter in
any of the ways that the dashboard offers: detections switched on, thresholds and caps lowered, a level
raised, networks denied or no longer allowed, countries blocked. Every signal that fires with the looser
settings then scores as much with the tighter ones (`weight_fired_le`), and every check that stops the
request stops it.

So what the tighter settings let through the looser ones do, and what the looser ones refuse the tighter
ones refuse (`tighter_never_softer`), unless the level that they raise starts to force challenges. The
crawler check is left as it is: it lets requests pass that would be stopped.
-/

namespace Waf
open Lib

/-! ## Settings -/

/-- A cap, which zero turns off, is on if the other is, and no higher. -/
def LowerCap (cap cap' : Nat) : Prop := 0 < cap → 0 < cap' ∧ cap' ≤ cap

structure RuleToggles.Tighter (r r' : RuleToggles) : Prop where
  sqli : r.sqli = true → r'.sqli = true
  xss : r.xss = true → r'.xss = true
  traversal : r.traversal = true → r'.traversal = true
  cmdi : r.cmdi = true → r'.cmdi = true
  lfi : r.lfi = true → r'.lfi = true
  botUa : r.botUa = true → r'.botUa = true
  rateLimit : r.rateLimit = true → r'.rateLimit = true

/-- A browser check that was passed takes a signal away, so the check itself may only be turned off. -/
structure DefenseToggles.Tighter (d d' : DefenseToggles) : Prop where
  botScore : d.botScore = true → d'.botScore = true
  behavior : d.behavior = true → d'.behavior = true
  ddos : d.ddos = true → d'.ddos = true
  honeypots : d.honeypots = true → d'.honeypots = true
  subnet : d.subnet = true → d'.subnet = true
  replay : d.replay = true → d'.replay = true
  distUa : d.distUa = true → d'.distUa = true
  goodbot : d'.goodbot = d.goodbot
  bic : d'.bic = true → d.bic = true

structure Runtime.Tighter (rt rt' : Runtime) : Prop where
  level : rt.effectiveUam.rank ≤ rt'.effectiveUam.rank
  challenge : rt'.challengeThreshold ≤ rt.challengeThreshold
  block : rt'.blockThreshold ≤ rt.blockThreshold
  concurrent : LowerCap rt.maxConcurrentPerIp rt'.maxConcurrentPerIp
  subnetRpm : LowerCap rt.subnetRpm rt'.subnetRpm
  subnetConn : LowerCap rt.subnetConn rt'.subnetConn
  rules : rt.rules.Tighter rt'.rules
  defenses : rt.defenses.Tighter rt'.defenses
  datacenter : rt.datacenterBlock = true → rt'.datacenterBlock = true
  allow : ∀ ip, inNets rt'.allow ip = true → inNets rt.allow ip = true
  deny : ∀ ip, inNets rt.deny ip = true → inNets rt'.deny ip = true
  countries : ∀ c ∈ rt.blockedCountries, c ∈ rt'.blockedCountries

namespace Runtime.Tighter

variable {crates : Crates} {rt rt' rt'' : Runtime} {disk disk' : RuntimeDisk} {cidr : Str}

lemma refl : rt.Tighter rt where
  level := le_rfl
  challenge := le_rfl
  block := le_rfl
  concurrent h := ⟨h, le_rfl⟩
  subnetRpm h := ⟨h, le_rfl⟩
  subnetConn h := ⟨h, le_rfl⟩
  rules := ⟨id, id, id, id, id, id, id⟩
  defenses := ⟨id, id, id, id, id, id, id, rfl, id⟩
  datacenter := id
  allow _ := id
  deny _ := id
  countries _ := id

/-- A network that is added to the deny list tightens the settings. -/
lemma addDeny (h : rt.addDeny crates disk cidr = some (rt', disk')) : rt.Tighter rt' := by
  obtain ⟨net, -, hedit⟩ := Option.map_eq_some_iff.mp h
  obtain ⟨rfl, -⟩ := Prod.mk.inj hedit
  refine { (refl : rt.Tighter rt) with deny := fun ip hip => ?_ }
  obtain ⟨n, hn, hc⟩ := List.any_eq_true.mp hip
  exact List.any_eq_true.mpr ⟨n, mem_addNet.mpr (.inl hn), hc⟩

end Runtime.Tighter

/-! ## Scores -/

/-- The sum of the scores. -/
def weight (rs : List DecisionReason) : Nat := (rs.map (·.score)).sum

lemma weight_append {rs rs' : List DecisionReason} : weight (rs ++ rs') = weight rs + weight rs' := by
  rw [weight, List.map_append, List.sum_append]
  rfl

lemma foldl_score {rs : List DecisionReason} {n : Nat} :
    rs.foldl (fun n r => satAdd32 n r.score) (min n u32Max) = min (n + weight rs) u32Max := by
  induction rs generalizing n with
  | nil => rfl
  | cons r rs ih =>
    have hstep : satAdd32 (min n u32Max) r.score = min (n + r.score) u32Max := by
      rw [satAdd32]
      omega
    rw [List.foldl_cons, hstep, ih, Nat.add_assoc]
    rfl

/-- The total score is the weight cut off. -/
lemma totalScore_eq {rs : List DecisionReason} : totalScore rs = min (weight rs) u32Max := by
  have hfold := @foldl_score rs 0
  rwa [Nat.zero_min, Nat.zero_add] at hfold

lemma totalScore_le {rs rs' : List DecisionReason} (h : weight rs ≤ weight rs') :
    totalScore rs ≤ totalScore rs' := by
  rw [totalScore_eq, totalScore_eq]
  exact min_le_min_right _ h

lemma weight_fire_le {c c' : Bool} {r r' : DecisionReason} (h : c = true → c' = true)
    (hr : r.score = r'.score) : weight (fire c r) ≤ weight (fire c' r') := by
  cases c with
  | false => exact Nat.zero_le _
  | true =>
    rw [h rfl, fire, fire, if_pos rfl, if_pos rfl]
    exact (congrArg (· + 0) hr).le

lemma weight_ite_le {p p' : Prop} [Decidable p] [Decidable p'] {rs : List DecisionReason}
    (h : p → p') : weight (if p then rs else []) ≤ weight (if p' then rs else []) := by
  by_cases hp : p
  case pos => rw [if_pos hp, if_pos (h hp)]
  case neg =>
    rw [if_neg hp]
    exact Nat.zero_le _

/-- What a tracker reports, if it is asked. -/
lemma weight_ask_le {T : Type} {c c' : Bool} {x x' : List DecisionReason × T} {t t' : T}
    (h : c = true → c' = true) (hx : weight x.1 ≤ weight x'.1) :
    weight (if c then x else ([], t)).1 ≤ weight (if c' then x' else ([], t')).1 := by
  cases c with
  | false => exact Nat.zero_le _
  | true =>
    rw [h rfl]
    exact hx

lemma weight_rule_le {crates : Crates} {on on' : Bool} {hit : Option Hit} {score : Nat}
    (h : on = true → on' = true) :
    weight (Engine.ruleReason crates on hit score) ≤ weight (Engine.ruleReason crates on' hit score) :=
  weight_ite_le h

namespace Subnet.SubnetTracker

variable {t : SubnetTracker} {ip : IpAddr} {rpm rpm' conn conn' now : Nat}

lemma weight_observe_le (hrpm : LowerCap rpm rpm') (hconn : LowerCap conn conn') :
    weight (t.observe ip rpm conn now).1 ≤ weight (t.observe ip rpm' conn' now).1 := by
  simp only [observe, weight_append]
  refine Nat.add_le_add (weight_fire_le ?_ rfl) (weight_fire_le ?_ rfl)
  · simp only [Bool.and_eq_true, decide_eq_true_eq]
    rintro ⟨hpos, hlt⟩
    obtain ⟨hpos', hle⟩ := hrpm hpos
    exact ⟨hpos', lt_of_le_of_lt hle hlt⟩
  · simp only [Bool.and_eq_true, decide_eq_true_eq]
    rintro ⟨hpos, hlt⟩
    obtain ⟨hpos', hle⟩ := hconn (by omega)
    exact ⟨by omega, by omega⟩

end Subnet.SubnetTracker

namespace Engine

/-- The engine with other settings. -/
def withRuntime (e : Engine) (rt : Runtime) : Engine := { e with runtime := rt }

variable {crates : Crates} {e : Engine} {rt rt' : Runtime} {disk : Disk} {ctx : RequestCtx} {nowMs : Nat}

lemma weight_geoip_le (h : ∀ c ∈ rt.blockedCountries, c ∈ rt'.blockedCountries) :
    weight ((e.withRuntime rt).geoipReason ctx) ≤ weight ((e.withRuntime rt').geoipReason ctx) := by
  unfold geoipReason
  cases ctx.country with
  | none => exact le_rfl
  | some country =>
    have hblocked : ∀ p : Str → Bool, rt.blockedCountries.any p = true →
        rt'.blockedCountries.any p = true := by
      intro p hp
      obtain ⟨c, hc, hpc⟩ := List.any_eq_true.mp hp
      exact List.any_eq_true.mpr ⟨c, h c hc, hpc⟩
    have hstep : ∀ b b' t : Bool, (b = true → b' = true) → ∀ r r' : DecisionReason,
        r'.score ≤ r.score → weight (if b then [r] else if t then [r'] else [])
          ≤ weight (if b' then [r] else if t then [r'] else []) := by
      intro b b' t hb r r' hr
      cases b with
      | true => rw [hb rfl]
      | false =>
        -- a country that has become blocked scores more than a suspicious one
        cases b' with
        | false => exact le_rfl
        | true =>
          cases t with
          | false => exact Nat.zero_le _
          | true => exact Nat.add_le_add_right hr 0
    refine hstep _ _ _ (fun hb => ?_) _ _ (by decide : SCORE_GEO_SUSPICIOUS ≤ SCORE_GEO_BLOCKED)
    rcases Bool.or_eq_true_iff.mp hb with hb | hb
    · exact Bool.or_eq_true_iff.mpr (.inl (hblocked _ hb))
    · exact Bool.or_eq_true_iff.mpr (.inr hb)

lemma hasBic_le (h : rt'.defenses.bic = true → rt.defenses.bic = true)
    (hno : (e.withRuntime rt).hasBic crates ctx nowMs = false) :
    (e.withRuntime rt').hasBic crates ctx nowMs = false := by
  rw [hasBic, Bool.and_eq_false_iff] at hno ⊢
  rcases hno with hoff | hcookie
  · left
    exact Bool.eq_false_iff.mpr fun hon => Bool.eq_false_iff.mp hoff (h hon)
  · exact .inr hcookie

/-- The crawler check is the same. -/
lemma verdict_withRuntime (h : rt.Tighter rt') :
    (e.withRuntime rt').verdict ctx nowMs = (e.withRuntime rt).verdict ctx nowMs := by
  rw [verdict, verdict, crawler, crawler]
  show (if rt'.defenses.goodbot then _ else _ : _ × _).1 = _
  rw [h.defenses.goodbot]
  rfl

lemma and_imp_and {a a' b : Bool} (h : a = true → a' = true) : (a && b) = true → (a' && b) = true := by
  intro hab
  obtain ⟨ha, hb⟩ := Bool.and_eq_true_iff.mp hab
  exact Bool.and_eq_true_iff.mpr ⟨h ha, hb⟩

/-- What fires with the looser settings scores as much with the tighter ones. -/
lemma weight_fired_le (h : rt.Tighter rt') :
    weight ((e.withRuntime rt).fired crates ctx nowMs)
      ≤ weight ((e.withRuntime rt').fired crates ctx nowMs) := by
  have hd := h.defenses
  have hr := h.rules
  rw [fired, fired, verdict_withRuntime h]
  simp only [signals, weight_append]
  gcongr ?_ + ?_ + ?_ + ?_ + ?_ + ?_ + ?_ + ?_ + ?_ + ?_ + ?_ + ?_ + ?_ + ?_ + ?_ + ?_
  · exact le_rfl
  · exact weight_geoip_le h.countries
  · exact le_rfl
  · exact weight_ite_le fun hon => ⟨hon.1, hasBic_le hd.bic hon.2.1, hd.botScore hon.2.2⟩
  · exact weight_ask_le hd.behavior le_rfl
  · exact weight_ite_le hd.ddos
  · exact weight_fire_le (and_imp_and h.datacenter) rfl
  · exact weight_ask_le hd.subnet (Subnet.SubnetTracker.weight_observe_le h.subnetRpm h.subnetConn)
  · exact weight_ask_le hd.replay le_rfl
  · exact weight_ask_le (and_imp_and hd.distUa) le_rfl
  · exact weight_fire_le (and_imp_and (and_imp_and hr.botUa)) rfl
  · exact weight_rule_le hr.sqli
  · exact weight_rule_le hr.xss
  · exact weight_rule_le hr.traversal
  · exact weight_rule_le hr.cmdi
  · exact weight_rule_le hr.lfi

/-! ## Checks -/

lemma connCap_le (h : rt.Tighter rt') (hpos : 0 < rt.connCap) :
    0 < rt'.connCap ∧ rt'.connCap ≤ rt.connCap := by
  obtain ⟨-, -, -, -, hclamp⟩ := UamLevel.params_mono h.level
  have hmax : 0 < rt.maxConcurrentPerIp := by
    unfold Runtime.connCap at hpos
    split at hpos
    case isTrue => omega
    case isFalse => omega
  obtain ⟨hmax', hle⟩ := h.concurrent hmax
  unfold Runtime.connCap
  split
  case isTrue hc' =>
    split
    case isTrue hc =>
      have hle' : rt'.uamParams.connCapClamp ≤ rt.uamParams.connCapClamp := (hclamp hc).2
      omega
    case isFalse => omega
  case isFalse hc' =>
    split
    case isTrue hc => exact absurd (hclamp hc).1 hc'
    case isFalse => omega

lemma effectiveBlock_le (h : rt.Tighter rt') : rt'.effectiveBlock ≤ rt.effectiveBlock := by
  obtain ⟨-, -, -, hdrop, -⟩ := UamLevel.params_mono h.level
  have hle : rt'.blockThreshold ≤ rt.blockThreshold := h.block
  have hdrops : rt.uamParams.blockDrop ≤ rt'.uamParams.blockDrop := hdrop
  unfold Runtime.effectiveBlock
  omega

lemma effectiveChallenge_le (h : rt.Tighter rt') : rt'.effectiveChallenge ≤ rt.effectiveChallenge := by
  obtain ⟨-, -, hdrop, -, -⟩ := UamLevel.params_mono h.level
  have hle : rt'.challengeThreshold ≤ rt.challengeThreshold := h.challenge
  have hdrops : rt.uamParams.challengeDrop ≤ rt'.uamParams.challengeDrop := hdrop
  unfold Runtime.effectiveChallenge
  omega

/-- What the tighter lists pass over, the looser ones do or allow. -/
lemma listed_of_tighter (h : rt.Tighter rt') (hno : (e.withRuntime rt').listed ctx nowMs = none) :
    (e.withRuntime rt).listed ctx nowMs = none ∨ AllowListed (e.withRuntime rt) ctx.clientIp := by
  have clean := listed_none_iff.mp hno
  cases hallow : inNets rt.allow ctx.clientIp with
  | true => exact .inr (.inl hallow)
  | false =>
    have hdeny : inNets rt.deny ctx.clientIp = false := Bool.eq_false_iff.mpr fun hd =>
      Bool.eq_false_iff.mp clean.denyRuntime (h.deny _ hd)
    exact .inl (listed_none_iff.mpr ⟨hallow, clean.allow, clean.deny, clean.banned, hdeny⟩)

/-- No one is newly allow-listed. -/
lemma allowListed_of_tighter (h : rt.Tighter rt')
    (hal : AllowListed (e.withRuntime rt') ctx.clientIp) :
    AllowListed (e.withRuntime rt) ctx.clientIp := by
  rcases hal with hal | hal
  · exact .inl (h.allow _ hal)
  · exact .inr hal

/-- What passes the tighter checks passes the looser ones. -/
lemma admitted_of_tighter (h : rt.Tighter rt') (adm : Admitted (e.withRuntime rt') ctx nowMs)
    (hno : (e.withRuntime rt).listed ctx nowMs = none) : Admitted (e.withRuntime rt) ctx nowMs := by
  have hbot : ∀ name, (e.withRuntime rt).verdict ctx nowMs ≠ .goodBotVerified name := by
    intro name hv
    exact adm.crawler name ((verdict_withRuntime h).trans hv)
  refine ⟨⟨hno, hbot⟩, ?_, ?_, adm.hardLimits, ?_⟩
  · rw [trapped_none_iff]
    intro hon
    exact (trapped_none_iff (e := e.withRuntime rt')).mp adm.trapped (h.defenses.honeypots hon)
  · rw [overCap_none_iff]
    intro hpos
    obtain ⟨hpos', hle⟩ := connCap_le h hpos
    exact (overCap_none_iff.mp adm.overCap hpos').trans hle
  · rw [limiterReply_ok_iff]
    intro hon
    have hok := limiterReply_ok_iff.mp adm.limiter (h.rules.rateLimit hon)
    obtain ⟨-, hscale, -, -, -⟩ := UamLevel.params_mono h.level
    rw [scaleBps_eq] at hok ⊢
    exact RateLimiter.checkScaled_mono hscale UamLevel.scale_le hok

/-! ## Decisions -/

/-- What the tighter settings allow, the looser ones do. -/
lemma allow_of_tighter (h : rt.Tighter rt')
    (ha : ((e.withRuntime rt').pipeline crates disk ctx nowMs).1.action = .allow) :
    ((e.withRuntime rt).pipeline crates disk ctx nowMs).1.action = .allow := by
  apply pipeline_allow_iff.mpr
  rcases pipeline_allow_iff.mp ha with hal | ⟨hno, name, hv⟩ | ⟨adm, hend⟩
  · exact .inl (allowListed_of_tighter h hal)
  · rcases listed_of_tighter h hno with hno' | hal
    · exact .inr (.inl ⟨hno', name, (verdict_withRuntime h).symm.trans hv⟩)
    · exact .inl hal
  · rcases listed_of_tighter h adm.listed with hno' | hal
    · refine .inr (.inr ⟨admitted_of_tighter h adm hno', ?_⟩)
      rcases hend with hc | ⟨hforce, hb, hch⟩
      · exact .inl hc
      · obtain ⟨hforced, -⟩ := UamLevel.params_mono h.level
        have htotal : totalScore ((e.withRuntime rt).fired crates ctx nowMs)
            ≤ totalScore ((e.withRuntime rt').fired crates ctx nowMs) :=
          totalScore_le (weight_fired_le h)
        refine .inr ⟨Bool.eq_false_iff.mpr fun hf => ?_, ?_, ?_⟩
        · exact Bool.eq_false_iff.mp hforce (hforced hf)
        · exact lt_of_le_of_lt htotal (lt_of_lt_of_le hb (effectiveBlock_le h))
        · exact lt_of_le_of_lt htotal (lt_of_lt_of_le hch (effectiveChallenge_le h))
    · exact .inl hal

/-- What is allowed is not refused. -/
lemma not_refuses_of_allow {d : Decision} (h : d.action = .allow) : ¬ d.Refuses := by
  rintro (hr | hr)
  · exact nomatch h.symm.trans hr
  · exact nomatch h.symm.trans hr

/-- What the looser settings refuse, the tighter ones do, unless they force a challenge. -/
lemma refuses_of_looser (h : rt.Tighter rt')
    (hforce : rt'.uamParams.forceChallenge = true → rt.uamParams.forceChallenge = true)
    (hr : ((e.withRuntime rt).pipeline crates disk ctx nowMs).1.Refuses) :
    ((e.withRuntime rt').pipeline crates disk ctx nowMs).1.Refuses := by
  by_contra hno
  have hallowed : ((e.withRuntime rt').pipeline crates disk ctx nowMs).1.action ≠ .allow := by
    intro ha
    exact not_refuses_of_allow (allow_of_tighter h ha) hr
  have hexit := @pipeline_exit crates (e.withRuntime rt') disk ctx nowMs
  generalize (e.withRuntime rt').pipeline crates disk ctx nowMs = r at hexit hno hallowed
  -- past the limits the looser settings decide on the score
  have hoffends : Admitted (e.withRuntime rt') ctx nowMs →
      Offends crates (e.withRuntime rt) ctx nowMs := by
    intro adm
    rcases listed_of_tighter h adm.listed with hlist | hal
    · exact (admitted_refuses_iff (admitted_of_tighter h adm hlist)).mp hr
    · exact absurd hr (not_refuses_of_allow (pipeline_allow_iff.mpr (.inl hal)))
  cases hexit with
  | listed hd =>
    rcases listed_cases hd with ha | hblock
    · exact hallowed ha
    · exact hno (.inl hblock)
  | crawler hlist hv => exact hallowed rfl
  | trapped => exact hno block_refuses
  | overCap _ _ hd => exact hno (.inl (overCap_block hd).1)
  | hardLimits _ _ _ hd => exact hno (.inl (hardLimits_block hd))
  | limited => exact hno block_refuses
  | cleared => exact hallowed rfl
  | forced adm hc hf =>
    exact Bool.eq_false_iff.mp (hoffends adm).unforced (hforce hf)
  | scored adm hc hf =>
    apply hno
    rw [threshold_refuses_iff, scored, Decision.addReasons_allow_score]
    have htotal := totalScore_le (@weight_fired_le crates e rt rt' ctx nowMs h)
    exact (effectiveBlock_le h).trans ((hoffends adm).score.trans htotal)

/-- Tighter settings never let through what the looser ones stop, nor soften what they refuse unless they
force a challenge that the looser ones do not. -/
theorem tighter_never_softer (h : rt.Tighter rt') :
    (((e.withRuntime rt').evaluate crates disk ctx nowMs).1.action = .allow →
        ((e.withRuntime rt).evaluate crates disk ctx nowMs).1.action = .allow)
      ∧ ((rt'.uamParams.forceChallenge = true → rt.uamParams.forceChallenge = true) →
        ((e.withRuntime rt).evaluate crates disk ctx nowMs).1.Refuses →
          ((e.withRuntime rt').evaluate crates disk ctx nowMs).1.Refuses) :=
  ⟨allow_of_tighter h, refuses_of_looser h⟩

/-- The settings after `10.0.0.0/8` has been denied. -/
def deniedSettings : Runtime :=
  { sampleEngine.runtime with deny := Runtime.addNet sampleEngine.runtime.deny Runtime.ten }

/-- A network that is denied. -/
theorem tighter_never_softer_witness :
    ((sampleEngine.withRuntime sampleEngine.runtime).evaluate idleCrates (fun _ => none) sampleCtx
        1700000000000).1.action = .allow
      ∧ ((sampleEngine.withRuntime deniedSettings).evaluate idleCrates (fun _ => none)
        { sampleCtx with method := "BREW" } 1700000000000).1.Refuses := by
  have hedit : sampleEngine.runtime.addDeny Runtime.netCrates (fun _ => none) "10.0.0.0/8"
      = some (deniedSettings, deniedSettings.persist fun _ => none) :=
    Runtime.addDeny_eq Runtime.parse_ten
  have htighter : sampleEngine.runtime.Tighter deniedSettings := .addDeny hedit
  have allowed : ((sampleEngine.withRuntime deniedSettings).evaluate idleCrates (fun _ => none)
      sampleCtx 1700000000000).1.action = .allow := by decide
  have refused : ((sampleEngine.withRuntime sampleEngine.runtime).evaluate idleCrates (fun _ => none)
      { sampleCtx with method := "BREW" } 1700000000000).1.action = .block := by decide
  exact ⟨(tighter_never_softer htighter).1 allowed,
    (tighter_never_softer htighter).2 (by decide) (.inl refused)⟩

end Engine

end Waf
