import Waf.Engine.Refusal

/-!
# What the log tells

The event of a scored request against the signals that fired on it. Challenge and tarpit carry all of
them, with their total. A block keeps the first alone and an allow none, so that the log tells the
whole story only where there is no more to tell (`tells_iff`).
-/

namespace Waf
open Lib

/-! ## Scores of the signals -/

/-- Reasons are added behind those that are there. -/
lemma Decision.addReasons_reasons {d : Decision} {rs} :
    (d.addReasons rs).reasons = d.reasons ++ rs := by
  induction rs generalizing d with
  | nil => exact (List.append_nil _).symm
  | cons r rs ih =>
    show ((d.addReason r).addReasons rs).reasons = d.reasons ++ (r :: rs)
    rw [ih, List.append_cons]
    rfl

/-- The rules that search the texts of a request. -/
def SEARCH_RULES : List Str := ["SQLI-01", "XSS-01", "TRAV-01", "CMDI-01", "LFI-01"]

/-- The reasons are those of other signals, none of which scores more than 100. -/
def Plain (rs : List DecisionReason) : Prop := ∀ r ∈ rs, r.score ≤ 100 ∧ r.ruleId ∉ SEARCH_RULES

variable {rs rs' : List DecisionReason} {r : DecisionReason} {cond : Bool} {n : Nat}
  {id category detail : Str}

lemma plain_nil : Plain [] := fun _ hr => absurd hr List.not_mem_nil

/-- One reason is plain if it has a small score and no rule's name. -/
lemma plain_single (h : n ≤ 100 ∧ id ∉ SEARCH_RULES) : Plain [⟨id, category, n, detail⟩] := by
  intro r hr
  obtain rfl := List.mem_singleton.mp hr
  exact h

lemma plain_fire (h : n ≤ 100 ∧ id ∉ SEARCH_RULES) :
    Plain (fire cond ⟨id, category, n, detail⟩) := by
  cases cond with
  | true => exact plain_single h
  | false => exact plain_nil

lemma plain_append : Plain (rs ++ rs') ↔ Plain rs ∧ Plain rs' := List.forall_mem_append

lemma Plain.ite {p : Prop} [Decidable p] (h : Plain rs) : Plain (if p then rs else []) := by
  split
  case isTrue => exact h
  case isFalse => exact plain_nil

variable {crates : Crates} {e : Engine} {disk : Disk} {ctx : RequestCtx} {nowMs : Nat}

lemma BotScore.score_plain : Plain (BotScore.score ctx) := by
  simp only [BotScore.score, plain_append]
  and_intros
  all_goals exact plain_fire (by decide)

lemma Ddos.score_plain : Plain (Ddos.score ctx) := by
  simp only [Ddos.score, plain_append]
  and_intros
  all_goals exact plain_fire (by decide)

lemma Behavior.score_plain {s : Behavior.State} : Plain s.score := by
  simp only [Behavior.State.score, plain_append]
  and_intros
  all_goals exact plain_fire (by decide)

lemma Subnet.observe_plain {t : Subnet.SubnetTracker} {ip rpmCap connCap now} :
    Plain (t.observe ip rpmCap connCap now).1 := by
  simp only [Subnet.SubnetTracker.observe, plain_append]
  and_intros
  all_goals exact plain_fire (by decide)

lemma Signature.replay_plain {t : Signature.RequestReplay} {ip method path ua now} :
    Plain (t.observe ip method path ua now).1 := by
  simp only [Signature.RequestReplay.observe]
  split
  case isTrue => exact plain_nil
  case isFalse => exact plain_fire (by decide)

lemma Signature.distUa_plain {t : Signature.DistributedUa} {ip ua now} :
    Plain (t.observe ip ua now).1 := by
  simp only [Signature.DistributedUa.observe]
  split
  case isTrue => exact plain_nil
  case isFalse => exact plain_fire (by decide)

namespace Engine
open Goodbot (Verdict spoofReason)

lemma headerReasons_plain : Plain (headerReasons ctx) := by
  simp only [headerReasons, plain_append]
  and_intros
  all_goals exact plain_fire (by decide)

lemma geoipReason_plain : Plain (e.geoipReason ctx) := by
  unfold geoipReason
  cases ctx.country with
  | none => exact plain_nil
  | some country =>
    simp only
    split
    case isTrue => exact plain_single (by decide)
    case isFalse => exact (plain_single (by decide)).ite

lemma spoof_plain {v : Verdict} : Plain (match v with
    | .goodBotSpoofed name => [spoofReason name]
    | _ => []) := by
  cases v with
  | goodBotSpoofed name => exact plain_single (by decide)
  | notABot | goodBotVerified | goodBotPending => exact plain_nil

/-- The reasons of a tracker that may be off. -/
lemma tracked_plain {α : Type} {p : Prop} [Decidable p] {a : List DecisionReason × α} {b : α}
    (h : Plain a.1) : Plain (if p then a else ([], b)).1 := by
  split
  case isTrue => exact h
  case isFalse => exact plain_nil

/-- The engine with the rules off that search the texts. -/
def unruled (e : Engine) : Engine :=
  { e with runtime := { e.runtime with
      rules := ⟨false, false, false, false, false, e.runtime.rules.botUa,
        e.runtime.rules.rateLimit⟩ } }

lemma unruled_plain : Plain (e.unruled.fired crates ctx nowMs) := by
  simp only [fired, signals, plain_append]
  and_intros
  · exact spoof_plain
  · exact geoipReason_plain
  · exact headerReasons_plain
  · exact BotScore.score_plain.ite
  · exact tracked_plain Behavior.score_plain
  · exact Ddos.score_plain.ite
  · exact plain_fire (by decide)
  · exact tracked_plain Subnet.observe_plain
  · exact tracked_plain Signature.replay_plain
  · exact tracked_plain Signature.distUa_plain
  · exact plain_fire (by decide)
  all_goals exact plain_nil

/-! ## Rules that search the texts -/

/-- A rule that searches the texts of a request: whether it is on, its scan and its score. -/
structure SearchRule where
  id : Str
  on : Bool
  scan : Surface → Option Hit
  score : Nat

/-- The reason of the rule on a surface. -/
def SearchRule.reason (crates : Crates) (f : SearchRule) (s : Surface) : List DecisionReason :=
  ruleReason crates f.on (f.scan s) f.score

/-- The rules that search the texts, in their order. -/
def searchRules (crates : Crates) (e : Engine) : List SearchRule :=
  [⟨"SQLI-01", e.runtime.rules.sqli, Sqli.scan crates, SCORE_SQLI_HIGH⟩,
    ⟨"XSS-01", e.runtime.rules.xss, Xss.scan crates, SCORE_XSS_HIGH⟩,
    ⟨"TRAV-01", e.runtime.rules.traversal, Traversal.scan crates, SCORE_TRAVERSAL⟩,
    ⟨"CMDI-01", e.runtime.rules.cmdi, Cmdi.scan crates, SCORE_CMDI⟩,
    ⟨"LFI-01", e.runtime.rules.lfi, Lfi.scan crates, SCORE_LFI⟩]

/-- The reasons that fire are those of the other signals and then those of the searches. -/
lemma fired_eq : e.fired crates ctx nowMs = e.unruled.fired crates ctx nowMs
    ++ (e.searchRules crates).flatMap fun f => f.reason crates (Surface.ofCtx crates ctx) := by
  have hplain : ∀ {xs : List DecisionReason},
      xs ++ [] ++ [] ++ [] ++ [] ++ [] = xs := by
    intro xs
    simp only [List.append_nil]
  have hon : e.unruled.fired crates ctx nowMs = _ ++ [] ++ [] ++ [] ++ [] ++ [] := rfl
  rw [hon, hplain]
  simp only [searchRules, List.flatMap_cons, List.flatMap_nil, List.append_nil,
    ← List.append_assoc]
  rfl

lemma searchRules_score {f : SearchRule} (hf : f ∈ e.searchRules crates) : f.score ≤ 100 := by
  have key : ∀ f ∈ e.searchRules crates, f.score ≤ 100 := by
    simp only [searchRules, List.forall_mem_cons]
    and_intros
    all_goals decide
  exact key f hf

/-- No signal scores more than 100. -/
lemma fired_score_le (hr : r ∈ e.fired crates ctx nowMs) : r.score ≤ 100 := by
  rw [fired_eq] at hr
  obtain hr | hr := List.mem_append.mp hr
  · exact (unruled_plain r hr).1
  · obtain ⟨f, hf, hr⟩ := List.mem_flatMap.mp hr
    rw [SearchRule.reason, ruleReason] at hr
    split at hr
    case isTrue =>
      obtain ⟨h, -, rfl⟩ := Option.map_eq_some_iff.mp (Option.mem_toList.mp hr)
      exact searchRules_score hf
    case isFalse => exact absurd hr List.not_mem_nil

/-- A single score is its own total. -/
lemma totalScore_single (h : r.score ≤ 100) : totalScore [r] = r.score := by
  show min (0 + r.score) u32Max = r.score
  rw [Nat.zero_add]
  exact Nat.min_eq_left (h.trans (by decide))

/-! ## The scoring stage -/

/-- The request reaches the scores. -/
structure ReachesScores (crates : Crates) (e : Engine) (ctx : RequestCtx) (nowMs : Nat) : Prop where
  admitted : Admitted e ctx nowMs
  cleared : e.cleared crates ctx nowMs = false
  unforced : e.runtime.uamParams.forceChallenge = false

/-- A request that reaches the scores is decided by the thresholds. -/
lemma pipeline_scored (h : ReachesScores crates e ctx nowMs) :
    e.pipeline crates disk ctx nowMs
      = (e.afterSignals crates ctx nowMs).threshold disk ctx (e.scored crates ctx nowMs) nowMs := by
  have hexit := @pipeline_exit crates e disk ctx nowMs
  generalize e.pipeline crates disk ctx nowMs = res at hexit
  cases hexit with
  | listed hd => exact absurd (hd.symm.trans h.admitted.listed) nofun
  | crawler _ hv => exact absurd hv (h.admitted.crawler _)
  | trapped _ hr => exact absurd (hr.symm.trans h.admitted.trapped) nofun
  | overCap _ _ hd => exact absurd (hd.symm.trans h.admitted.overCap) nofun
  | hardLimits _ _ _ hd => exact absurd (hd.symm.trans h.admitted.hardLimits) nofun
  | limited _ _ _ _ hk => exact absurd (hk.symm.trans h.admitted.limiter) nofun
  | cleared _ hc => exact absurd (hc.symm.trans h.cleared) nofun
  | forced _ _ hf => exact absurd (hf.symm.trans h.unforced) nofun
  | scored => rfl

/-- What an evaluation adds to the ring of events. -/
def logged (crates : Crates) (e : Engine) (disk : Disk) (ctx : RequestCtx) (nowMs : Nat) :
    Option Event :=
  (e.evaluate crates disk ctx nowMs).2.1.events.inner.getLast?

/-- What is logged is the decision of the pipeline. -/
lemma logged_eq : e.logged crates disk ctx nowMs
    = some (Event.ofDecision ctx (e.pipeline crates disk ctx nowMs).1 nowMs) :=
  List.getLast?_concat

/-- The event tells every reason that fired, in order, with their total, and a block shows a score
that reaches the threshold. -/
structure Tells (crates : Crates) (e : Engine) (ctx : RequestCtx) (nowMs : Nat) (ev : Event) :
    Prop where
  reasons : ev.reasons = e.fired crates ctx nowMs
  score : ev.score = totalScore (e.fired crates ctx nowMs)
  blocked : ev.action = .block → e.runtime.effectiveBlock ≤ ev.score

/-- Nothing is left out: what is refused is held in the tarpit or has a single reason, and what is
not even challenged has none. -/
def Told (crates : Crates) (e : Engine) (ctx : RequestCtx) (nowMs : Nat) : Prop :=
  if e.runtime.effectiveBlock ≤ totalScore (e.fired crates ctx nowMs) then
    (0 < e.runtime.tarpitScore ∧ e.runtime.tarpitScore ≤ totalScore (e.fired crates ctx nowMs))
      ∨ (e.fired crates ctx nowMs).length = 1
  else
    e.runtime.effectiveChallenge ≤ totalScore (e.fired crates ctx nowMs)
      ∨ e.fired crates ctx nowMs = []

/-- The decision on a scored request. -/
def thresholdDecision (e : Engine) (ctx : RequestCtx) (fired : List DecisionReason) : Decision :=
  if e.runtime.effectiveBlock ≤ totalScore fired then
    if 0 < e.runtime.tarpitScore ∧ e.runtime.tarpitScore ≤ totalScore fired then
      .tarpit ctx.requestId (totalScore fired) fired
    else
      .block ctx.requestId 403
        (fired.head?.getD ⟨"ANOMALY", "anomaly", totalScore fired, "score over threshold"⟩)
  else if e.runtime.effectiveChallenge ≤ totalScore fired then
    .challenge ctx.requestId (totalScore fired) fired
  else .allow ctx.requestId

/-- When the scores are reached, the threshold decides. -/
lemma pipeline_decision (h : ReachesScores crates e ctx nowMs) :
    (e.pipeline crates disk ctx nowMs).1 = e.thresholdDecision ctx (e.fired crates ctx nowMs) := by
  have hreasons : (e.scored crates ctx nowMs).reasons = e.fired crates ctx nowMs := by
    rw [scored, Decision.addReasons_reasons]
    exact List.nil_append _
  have hscore : (e.scored crates ctx nowMs).score = totalScore (e.fired crates ctx nowMs) :=
    Decision.addReasons_allow_score
  have hrt : (e.afterSignals crates ctx nowMs).runtime = e.runtime := rfl
  rw [pipeline_scored h, threshold, hrt, hreasons, hscore, thresholdDecision]
  split
  case isTrue =>
    split
    case isTrue => rfl
    case isFalse => rfl
  case isFalse =>
    split
    case isTrue => rfl
    case isFalse => rfl

/-- What the log tells is what the decision carries. -/
lemma tells_decision_iff (h : ReachesScores crates e ctx nowMs) {d : Decision}
    (hd : e.thresholdDecision ctx (e.fired crates ctx nowMs) = d) :
    (∃ ev ∈ e.logged crates disk ctx nowMs, Tells crates e ctx nowMs ev)
      ↔ d.reasons = e.fired crates ctx nowMs ∧ d.score = totalScore (e.fired crates ctx nowMs)
        ∧ (d.action = .block → e.runtime.effectiveBlock ≤ d.score) := by
  rw [logged_eq, pipeline_decision h, hd]
  constructor
  · rintro ⟨ev, hev, htells⟩
    obtain rfl := Option.some.inj hev
    exact ⟨htells.reasons, htells.score, htells.blocked⟩
  · rintro ⟨hreasons, hscore, hblock⟩
    exact ⟨_, rfl, hreasons, hscore, hblock⟩

/-- A block tells everything iff there is one reason. -/
lemma block_told {requestId status} {first : DecisionReason} (hm : ∀ r ∈ rs, r.score ≤ 100)
    (hb : e.runtime.effectiveBlock ≤ totalScore rs) :
    ((Decision.block requestId status (rs.head?.getD first)).reasons = rs
        ∧ (Decision.block requestId status (rs.head?.getD first)).score = totalScore rs
        ∧ ((Decision.block requestId status (rs.head?.getD first)).action = .block →
          e.runtime.effectiveBlock ≤ (Decision.block requestId status (rs.head?.getD first)).score))
      ↔ rs.length = 1 := by
  constructor
  · rintro ⟨hreasons, -, -⟩
    exact (congrArg List.length hreasons).symm
  · intro hlen
    obtain ⟨r, rfl⟩ := List.length_eq_one_iff.mp hlen
    have hscore : r.score = totalScore [r] := (totalScore_single (hm r (.head _))).symm
    exact ⟨rfl, hscore, fun _ => hb.trans hscore.ge⟩

/-- The event of a scored request tells the whole story iff nothing is left out. -/
theorem tells_iff (h : ReachesScores crates e ctx nowMs) :
    (∃ ev ∈ e.logged crates disk ctx nowMs, Tells crates e ctx nowMs ev)
      ↔ Told crates e ctx nowMs := by
  rw [tells_decision_iff h rfl, thresholdDecision, Told]
  have hscore : ∀ r ∈ e.fired crates ctx nowMs, r.score ≤ 100 := fun _ => fired_score_le
  generalize e.fired crates ctx nowMs = rs at hscore
  by_cases hb : e.runtime.effectiveBlock ≤ totalScore rs
  case pos =>
    rw [if_pos hb, if_pos hb]
    by_cases ht : 0 < e.runtime.tarpitScore ∧ e.runtime.tarpitScore ≤ totalScore rs
    case pos =>
      rw [if_pos ht]
      exact iff_of_true ⟨rfl, rfl, nofun⟩ (.inl ht)
    case neg =>
      rw [if_neg ht, or_iff_right ht]
      exact block_told hscore hb
  case neg =>
    rw [if_neg hb, if_neg hb]
    by_cases hc : e.runtime.effectiveChallenge ≤ totalScore rs
    case pos =>
      rw [if_pos hc]
      exact iff_of_true ⟨rfl, rfl, nofun⟩ (.inl hc)
    case neg =>
      rw [if_neg hc, or_iff_right hc]
      constructor
      · rintro ⟨hreasons, -, -⟩
        exact hreasons.symm
      · rintro rfl
        exact ⟨rfl, rfl, nofun⟩

/-- A request without a host and a user agent. -/
def bareCtx : RequestCtx := { sampleCtx with host := [], userAgent := [] }

/-- A check that is passed has no other result. -/
lemma ok_of_isOk {ε : Type} {x : Except ε Unit} (h : x.isOk = true) : x = .ok () := by
  cases x with
  | ok => rfl
  | error => cases h

/-- The sample request gets to the scores. -/
lemma bareCtx_reaches : ReachesScores idleCrates sampleEngine bareCtx 1700000000000 where
  admitted := by
    refine ⟨⟨by decide, fun name => ?_⟩, by decide, by decide,
      by decide, ?_⟩
    · have hv : sampleEngine.verdict bareCtx 1700000000000 = .notABot := by decide
      rw [hv]
      exact nofun
    · exact ok_of_isOk (by decide)
  cleared := by decide
  unforced := by decide

/-- The request is blocked for two reasons, and the log shows the first. -/
theorem bareCtx_not_told : ReachesScores idleCrates sampleEngine bareCtx 1700000000000
    ∧ ¬ ∃ ev ∈ sampleEngine.logged idleCrates (fun _ => none) bareCtx 1700000000000,
      Tells idleCrates sampleEngine bareCtx 1700000000000 ev := by
  refine ⟨bareCtx_reaches, ?_⟩
  rintro ⟨ev, hev, htells⟩
  have hreasons := congrArg (·.map Event.reasons)
    (show sampleEngine.logged idleCrates (fun _ => none) bareCtx 1700000000000 = some ev from hev)
  have hne : (sampleEngine.logged idleCrates (fun _ => none) bareCtx 1700000000000).map Event.reasons
      ≠ some (sampleEngine.fired idleCrates bareCtx 1700000000000) := by
    decide
  exact hne (hreasons.trans (congrArg some htells.reasons))

/-- A request without host and user agent. -/
theorem bareCtx_tells_iff :
    (∃ ev ∈ sampleEngine.logged idleCrates (fun _ => none) bareCtx 1700000000000,
        Tells idleCrates sampleEngine bareCtx 1700000000000 ev)
      ↔ Told idleCrates sampleEngine bareCtx 1700000000000 :=
  tells_iff bareCtx_reaches

end Engine

end Waf
