import Waf.Admin.Restart

/-!
# The challenge band

`validate` only accepts a configuration whose threshold for a challenge is below the one for blocking,
and no level, no list and no loaded file changes this. A patch sets each of the two without a look at
the other. So all states of a history have scores that lead to a challenge iff every accepted patch
leaves the thresholds in order (`banded_iff`).
-/

namespace Waf
open Lib

/-- The patch of an accepted call. -/
def ParsedReq.patch (json : List UInt8 → Except Str Patch) (req : ParsedReq) : Option Patch :=
  match String.ofList req.method, String.ofList req.path with
  | "POST", "/api/runtime" => (json req.body).toOption
  | _, _ => none

/-- The threshold for a challenge is below the one for blocking, so that without a reduction of the
UAM level some score leads to a challenge. -/
structure Runtime.Banded (rt : Runtime) : Prop where
  below : rt.challengeThreshold < rt.blockThreshold
  score : rt.effectiveUam = .off → ∃ score, ∀ (e : Engine) (disk : Disk) (ctx : RequestCtx)
    (d : Decision) (nowMs : Nat), e.runtime = rt → d.score = score →
      (e.threshold disk ctx d nowMs).1.action = .challenge

/-- A patch leaves the thresholds of a state in order. -/
def Patch.Keeps (patch : Patch) (rt : Runtime) : Prop :=
  patch.challengeThreshold.getD rt.challengeThreshold < patch.blockThreshold.getD rt.blockThreshold

variable {crates : Crates} {json : List UInt8 → Except Str Patch} {p : Process} {req : ParsedReq}
  {rt rt' : Runtime}

/-- The thresholds are the same. -/
structure Runtime.SameThresholds (rt rt' : Runtime) : Prop where
  challenge : rt'.challengeThreshold = rt.challengeThreshold
  block : rt'.blockThreshold = rt.blockThreshold

lemma banded_of_lt (h : rt.challengeThreshold < rt.blockThreshold) : rt.Banded where
  below := h
  score := by
    intro hoff
    refine ⟨rt.challengeThreshold, fun e disk ctx d nowMs he hd => ?_⟩
    have hblock : e.runtime.effectiveBlock = rt.blockThreshold := by
      rw [he, Runtime.effectiveBlock, Runtime.uamParams, hoff]
      rfl
    have hchallenge : e.runtime.effectiveChallenge = rt.challengeThreshold := by
      rw [he, Runtime.effectiveChallenge, Runtime.uamParams, hoff]
      rfl
    rw [Engine.threshold, hblock, hchallenge, hd, if_neg (Nat.not_le.mpr h), if_pos le_rfl]
    rfl

namespace Process

/-- An edit of a list leaves the thresholds alone. -/
lemma withCidr_thresholds {edit : IpNet → Runtime}
    (hedit : ∀ net, p.engine.runtime.SameThresholds (edit net)) :
    p.engine.runtime.SameThresholds
      (p.withCidr crates req (Runtime.editNet crates edit)).2.engine.runtime := by
  unfold withCidr
  split
  case h_1 => exact ⟨rfl, rfl⟩
  case h_2 cidr _ =>
    split
    case h_1 rt disk h =>
      obtain ⟨net, -, heq⟩ := Option.map_eq_some_iff.mp h
      obtain rfl : edit net = rt := congrArg Prod.fst heq
      exact hedit net
    case h_2 => exact ⟨rfl, rfl⟩

/-- A call applies the patch it carries, or leaves the thresholds alone. -/
lemma routeApi_thresholds :
    (∃ patch, req.patch json = some patch
        ∧ (p.routeApi crates json req).2.engine.runtime = p.engine.runtime.applyPatch crates patch)
      ∨ (req.patch json = none
        ∧ p.engine.runtime.SameThresholds (p.routeApi crates json req).2.engine.runtime) := by
  have other : ∀ {path : String}, String.ofList req.path = path → path ≠ "/api/runtime" →
      req.patch json = none := by
    intro path hp hne
    unfold ParsedReq.patch
    split
    case h_1 _ hp' => exact absurd (hp.symm.trans hp') hne
    case h_2 => rfl
  unfold routeApi
  split
  case h_1 _ _ _ hp | h_2 _ _ _ hp | h_3 _ _ _ hp | h_4 _ _ _ hp | h_6 _ _ _ hp | h_7 _ _ _ hp =>
    exact .inr ⟨other hp (by decide), rfl, rfl⟩
  case h_5 _ _ hm hp =>
    have hpatch : req.patch json = (json req.body).toOption := by
      simp only [ParsedReq.patch, hm, hp]
    simp only
    split
    case h_1 e hj =>
      rw [hj] at hpatch
      exact .inr ⟨hpatch, rfl, rfl⟩
    case h_2 patch hj =>
      rw [hj] at hpatch
      exact .inl ⟨patch, hpatch, rfl⟩
  case h_8 _ _ _ hp | h_9 _ _ _ hp | h_10 _ _ _ hp | h_11 _ _ _ hp =>
    exact .inr ⟨other hp (by decide), withCidr_thresholds fun _ => ⟨rfl, rfl⟩⟩
  case h_12 _ _ hm hp =>
    refine .inr ⟨other hp (by decide), ?_⟩
    split
    case h_1 => exact ⟨rfl, rfl⟩
    case h_2 => exact ⟨rfl, rfl⟩
  case h_13 hruntime _ _ _ _ _ _ _ =>
    refine .inr ⟨?_, rfl, rfl⟩
    unfold ParsedReq.patch
    split
    case h_1 hm hp => exact (hruntime hm hp).elim
    case h_2 => rfl

end Process

/-! ## Histories -/

/-- A history of runtime states, with the accepted patches and the states they met. A process starts
from a configuration that was checked, and every state can go on by loading a file that some state has
saved, by a call of the API or by a step of the watchdog. -/
inductive History (crates : Crates) (json : List UInt8 → Except Str Patch) :
    List Runtime → List (Runtime × Patch) → Prop
  | nil : History crates json [] []
  | start {rts ps cfg token} (h : History crates json rts ps) (hv : cfg.validate = .ok ()) :
    History crates json (rts ++ [.fromConfig cfg token]) ps
  | load {rts ps rt rt' disk path} (h : History crates json rts ps) (hrt : rt ∈ rts)
    (hfile : ∀ file, disk path = some file → ∃ w ∈ rts, file = some w.saved)
    (hl : rt.bindPersistFile crates disk path = some rt') : History crates json (rts ++ [rt']) ps
  | call {rts ps} {p : Process} {req} (h : History crates json rts ps)
    (hrt : p.engine.runtime ∈ rts) :
    History crates json (rts ++ [(p.routeApi crates json req).2.engine.runtime])
      (ps ++ (req.patch json).toList.map fun patch => (p.engine.runtime, patch))
  | autoUam {rts ps rt bps} (h : History crates json rts ps) (hrt : rt ∈ rts) :
    History crates json (rts ++ [rt.autoUam bps]) ps

lemma validate_lt {cfg : Config} (h : cfg.validate = .ok ()) :
    cfg.detection.challengeThreshold < cfg.detection.blockThreshold := by
  unfold Config.validate at h
  split_ifs at h with _ hlt
  exact Nat.not_le.mp hlt

/-- A loaded file restores the thresholds of the state that saved it. -/
lemma load_thresholds {disk path} {rts : List Runtime} (hrt : rt ∈ rts)
    (hfile : ∀ file, disk path = some file → ∃ w ∈ rts, file = some w.saved)
    (hl : rt.bindPersistFile crates disk path = some rt') : ∃ w ∈ rts, w.SameThresholds rt' := by
  unfold Runtime.bindPersistFile at hl
  split at hl
  case h_1 =>
    obtain rfl := Option.some.inj hl
    exact ⟨rt, hrt, rfl, rfl⟩
  case h_2 => cases hl
  case h_3 file hd =>
    obtain rfl := Option.some.inj hl
    obtain ⟨w, hw, hsaved⟩ := hfile _ hd
    obtain rfl : file = w.saved := Option.some.inj hsaved
    refine ⟨w, hw, ?_⟩
    rw [Runtime.saved_eq]
    exact ⟨rfl, rfl⟩

/-- The thresholds of a state are in order. -/
abbrev Ordered (rt : Runtime) : Prop := rt.challengeThreshold < rt.blockThreshold

/-- The same thresholds are in the same order. -/
lemma Runtime.SameThresholds.ordered (h : rt.SameThresholds rt') (ho : Ordered rt) : Ordered rt' := by
  rw [Ordered, h.challenge, h.block]
  exact ho

/-- The thresholds are in order in every state of a history iff every patch leaves them so. -/
lemma History.ordered_iff {rts ps} (h : History crates json rts ps) :
    (∀ rt ∈ rts, Ordered rt) ↔ ∀ x ∈ ps, x.2.Keeps x.1 := by
  induction h with
  | nil => exact iff_of_true (fun _ h => absurd h List.not_mem_nil) fun _ h => absurd h List.not_mem_nil
  | start _ hv ih =>
    rw [List.forall_mem_append, ih, List.forall_mem_singleton]
    exact and_iff_left (validate_lt hv)
  | load _ hrt hfile hl ih =>
    rw [List.forall_mem_append, List.forall_mem_singleton, and_iff_left_of_imp, ih]
    intro hall
    obtain ⟨w, hw, hsame⟩ := load_thresholds hrt hfile hl
    exact hsame.ordered (hall w hw)
  | @call rts ps p req _ hrt ih =>
    rw [List.forall_mem_append, List.forall_mem_singleton, List.forall_mem_append, ih]
    obtain ⟨patch, hpatch, heq⟩ | ⟨hnone, hsame⟩ := @Process.routeApi_thresholds crates json p req
    · rw [hpatch, heq]
      refine and_congr_right fun _ => ?_
      show _ ↔ ∀ x ∈ [(p.engine.runtime, patch)], x.2.Keeps x.1
      rw [List.forall_mem_singleton]
      rfl
    · rw [hnone]
      refine and_congr_right fun hall => iff_of_true ?_ fun _ h => absurd h List.not_mem_nil
      exact hsame.ordered (ih.mpr hall _ hrt)
  | @autoUam rts ps rt bps _ hrt ih =>
    rw [List.forall_mem_append, List.forall_mem_singleton, and_iff_left_of_imp, ih]
    intro hall
    have hsame : rt.SameThresholds (rt.autoUam bps) := ⟨rfl, rfl⟩
    exact hsame.ordered (hall rt hrt)

/-- Every state of a history has a band of scores that lead to a challenge iff every accepted patch
leaves the thresholds in order. -/
theorem History.banded_iff {rts ps} (h : History crates json rts ps) :
    (∀ rt ∈ rts, rt.Banded) ↔ ∀ x ∈ ps, x.2.Keeps x.1 := by
  rw [← h.ordered_iff]
  exact forall₂_congr fun rt _ => ⟨fun hb => hb.below, banded_of_lt⟩

/-- A configuration that `validate` accepts. -/
def checkedCfg : Config := { Engine.sampleCfg with server := { listen := "0.0.0.0:80" } }

/-- A patch that sets the threshold for a challenge alone. -/
def raiseChallenge : Patch := { challengeThreshold := some 90 }

/-- A process on the configuration. -/
def checkedProcess : Process where
  engine := { Engine.sampleEngine with runtime := .fromConfig checkedCfg }
  banDisk := fun _ => none
  runtimeDisk := fun _ => none

/-- A call of `POST /api/runtime`. -/
def patchCall : ParsedReq where
  method := "POST"
  path := "/api/runtime"

/-- The settings after the call. -/
def patchedRuntime : Runtime :=
  (checkedProcess.routeApi idleCrates (fun _ => .ok raiseChallenge) patchCall).2.engine.runtime

/-- One patch. -/
lemma patched_history : History idleCrates (fun _ => .ok raiseChallenge)
    [.fromConfig checkedCfg, patchedRuntime] [(.fromConfig checkedCfg, raiseChallenge)] := by
  have valid : checkedCfg.validate = .ok () := by
    unfold Config.validate
    rw [if_neg (by decide), if_neg (by decide), if_neg (by decide),
      if_neg (by decide)]
  exact @History.call _ _ _ _ checkedProcess patchCall (.start .nil valid) (.head _)

/-- The patch leaves no score that leads to a challenge. -/
theorem patched_not_banded : History idleCrates (fun _ => .ok raiseChallenge)
      [.fromConfig checkedCfg, patchedRuntime] [(.fromConfig checkedCfg, raiseChallenge)]
    ∧ ¬ patchedRuntime.Banded := by
  refine ⟨patched_history, fun h => absurd h.below ?_⟩
  decide

/-- A challenge threshold above the other. -/
theorem patched_banded_iff : (∀ rt ∈ [.fromConfig checkedCfg, patchedRuntime], rt.Banded)
    ↔ ∀ x ∈ [((.fromConfig checkedCfg : Runtime), raiseChallenge)], x.2.Keeps x.1 :=
  patched_history.banded_iff

end Waf
