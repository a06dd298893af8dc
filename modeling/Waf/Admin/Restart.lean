import Waf.Admin
import Waf.Engine.Allow

/-!
# Restarts

What of the dashboard's changes a restart brings back. The runtime settings all come back
(`persist_roundtrip`), because every way to change them keeps them in the range that
`apply_persisted` restores. The traps and the bans that were lifted are not part of the settings and
do not (`survives_iff`).
-/

namespace Waf
open Lib

/-! ## What a call does -/

namespace ParsedReq

/-- The traps that an accepted call sets. -/
def traps (json : List UInt8 → Except Str Patch) (req : ParsedReq) : Option (List Str) :=
  match String.ofList req.method, String.ofList req.path with
  | "POST", "/api/runtime" =>
    match json req.body with
    | .ok patch => patch.honeypotPaths
    | .error _ => none
  | _, _ => none

/-- The address that an accepted call lifts the ban of. -/
def unbans (req : ParsedReq) : Option IpAddr :=
  match String.ofList req.method, String.ofList req.path with
  | "POST", "/api/unban" => req.unbanIp
  | _, _ => none

variable {json : List UInt8 → Except Str Patch} {req : ParsedReq}

/-- Other calls set no traps. -/
lemma traps_none
    (h : String.ofList req.method = "POST" → String.ofList req.path = "/api/runtime" → False) :
    req.traps json = none := by
  unfold traps
  split
  case h_1 hm hp => exact (h hm hp).elim
  case h_2 => rfl

/-- A patch sets the traps that it names. -/
lemma traps_runtime {patch} (hm : String.ofList req.method = "POST")
    (hp : String.ofList req.path = "/api/runtime") (hj : json req.body = .ok patch) :
    req.traps json = patch.honeypotPaths := by
  simp only [traps, hm, hp, hj]

/-- A body that cannot be read sets none. -/
lemma traps_error {e} (hj : json req.body = .error e) : req.traps json = none := by
  unfold traps
  split
  case h_1 => rw [hj]
  case h_2 => rfl

/-- Other calls lift no ban. -/
lemma unbans_none
    (h : String.ofList req.method = "POST" → String.ofList req.path = "/api/unban" → False) :
    req.unbans = none := by
  unfold unbans
  split
  case h_1 hm hp => exact (h hm hp).elim
  case h_2 => rfl

/-- An unban lifts the ban of its address. -/
lemma unbans_eq (hm : String.ofList req.method = "POST")
    (hp : String.ofList req.path = "/api/unban") : req.unbans = req.unbanIp := by
  simp only [unbans, hm, hp]

end ParsedReq

namespace Process

/-- The effects of a call: none, the settings of a patch, another edit of the settings, or a lifted
ban. -/
inductive Effect (crates : Crates) (json : List UInt8 → Except Str Patch) (p : Process)
    (req : ParsedReq) : Process → Prop
  | none (ht : req.traps json = .none) (hu : req.unbans = .none) : Effect crates json p req p
  | patch {patch : Patch} {disk} (ht : req.traps json = patch.honeypotPaths)
    (hu : req.unbans = .none) :
    Effect crates json p req
      { p with engine := patchEngine crates p.engine patch, runtimeDisk := disk }
  | settings {rt : Runtime} {disk} (hv : p.engine.runtime.Valid → rt.Valid)
    (ht : req.traps json = .none) (hu : req.unbans = .none) :
    Effect crates json p req { p with engine := { p.engine with runtime := rt }, runtimeDisk := disk }
  | unban {addr} (ht : req.traps json = .none) (hu : req.unbans = some addr) :
    Effect crates json p req
      { p with engine := { p.engine with reputations := p.engine.reputations.unban addr } }

variable {crates : Crates} {json : List UInt8 → Except Str Patch} {p : Process} {req : ParsedReq}

/-- A call that edits a list keeps the settings valid. -/
lemma editNet_valid {edit : IpNet → Runtime} {disk cidr res}
    (hedit : ∀ net, p.engine.runtime.Valid → (edit net).Valid)
    (h : Runtime.editNet crates edit disk cidr = some res) :
    p.engine.runtime.Valid → res.1.Valid := by
  obtain ⟨net, -, rfl⟩ := Option.map_eq_some_iff.mp h
  exact hedit net

/-- An edit of a list changes the settings or nothing. -/
lemma withCidr_effect {edit : IpNet → Runtime} (ht : req.traps json = .none)
    (hu : req.unbans = .none) (hedit : ∀ net, p.engine.runtime.Valid → (edit net).Valid) :
    Effect crates json p req (p.withCidr crates req (Runtime.editNet crates edit)).2 := by
  unfold withCidr
  split
  case h_1 => exact .none ht hu
  case h_2 cidr _ =>
    split
    case h_1 rt disk h => exact .settings (editNet_valid hedit h) ht hu
    case h_2 => exact .none ht hu

/-- A call to another path sets no traps and lifts no ban. -/
lemma quiet {path : String} (hp : String.ofList req.path = path) (ht : path ≠ "/api/runtime")
    (hu : path ≠ "/api/unban") : req.traps json = .none ∧ req.unbans = .none :=
  ⟨ParsedReq.traps_none fun _ h => ht (hp.symm.trans h),
    ParsedReq.unbans_none fun _ h => hu (hp.symm.trans h)⟩

lemma uamLevel_le : req.uamLevel ≤ 4 := by
  unfold ParsedReq.uamLevel
  split
  case isTrue => exact le_rfl
  case isFalse => exact min_le_right _ _

/-- A call has one of the effects. -/
lemma routeApi_effect : Effect crates json p req (p.routeApi crates json req).2 := by
  unfold routeApi
  split
  case h_1 _ _ _ hp | h_2 _ _ _ hp | h_3 _ _ _ hp | h_4 _ _ _ hp =>
    obtain ⟨ht, hu⟩ := @quiet json req _ hp (by decide) (by decide)
    exact .none ht hu
  case h_5 _ _ hm hp =>
    have hu : req.unbans = .none := ParsedReq.unbans_none fun _ h => absurd (hp.symm.trans h) (by decide)
    simp only
    split
    case h_1 e hj => exact .none (ParsedReq.traps_error hj) hu
    case h_2 patch hj => exact .patch (ParsedReq.traps_runtime hm hp hj) hu
  case h_6 _ _ _ hp =>
    obtain ⟨ht, hu⟩ := @quiet json req _ hp (by decide) (by decide)
    exact .settings (fun hv => ⟨uamLevel_le, hv.mode, hv.token⟩) ht hu
  case h_7 _ _ _ hp =>
    obtain ⟨ht, hu⟩ := @quiet json req _ hp (by decide) (by decide)
    exact .settings (fun hv => ⟨hv.uam, hv.mode, hv.token⟩) ht hu
  case h_8 _ _ _ hp | h_9 _ _ _ hp | h_10 _ _ _ hp | h_11 _ _ _ hp =>
    obtain ⟨ht, hu⟩ := @quiet json req _ hp (by decide) (by decide)
    exact withCidr_effect ht hu fun _ hv => ⟨hv.uam, hv.mode, hv.token⟩
  case h_12 _ _ hm hp =>
    have ht : req.traps json = .none :=
      ParsedReq.traps_none fun _ h => absurd (hp.symm.trans h) (by decide)
    simp only
    split
    case h_1 addr hip => exact .unban ht ((ParsedReq.unbans_eq hm hp).trans hip)
    case h_2 hip => exact .none ht ((ParsedReq.unbans_eq hm hp).trans hip)
  case h_13 hruntime _ _ _ _ _ _ hunban =>
    exact .none (ParsedReq.traps_none hruntime) (ParsedReq.unbans_none hunban)

end Process

/-! ## Settings -/

namespace Runtime

/-- The runtime states of a process: what it starts with, what loading a file, a call of the API and
the watchdog make of one. -/
inductive Reachable (crates : Crates) (json : List UInt8 → Except Str Patch) (cfg : Config) :
    Runtime → Prop
  | start {nanos pid thread} :
    Reachable crates json cfg (fromConfig cfg (generateToken crates nanos pid thread))
  | load {rt rt' disk path} (h : Reachable crates json cfg rt)
    (hl : rt.bindPersistFile crates disk path = some rt') : Reachable crates json cfg rt'
  | call {p : Process} {req} (h : Reachable crates json cfg p.engine.runtime) :
    Reachable crates json cfg (p.routeApi crates json req).2.engine.runtime
  | autoUam {rt bps} (h : Reachable crates json cfg rt) :
    Reachable crates json cfg (rt.autoUam bps)

variable {crates : Crates} {json : List UInt8 → Except Str Patch} {cfg : Config} {rt : Runtime}

lemma generateToken_ne_nil {nanos pid thread} : generateToken crates nanos pid thread ≠ [] := by
  apply base64Url_ne_nil
  intro h
  have hlen := congrArg List.length h
  rw [Vector.length_toList] at hlen
  cases hlen

/-- A level that is clamped or kept is in range. -/
lemma getD_min_le {o : Option Nat} {bound d : Nat} (h : d ≤ bound) :
    (o.map (min · bound)).getD d ≤ bound := by
  cases o with
  | none => exact h
  | some v => exact min_le_right v bound

/-- Saved settings leave valid ones valid. -/
lemma Valid.applyPersisted {p : PersistedRuntime} (h : rt.Valid) :
    (rt.applyPersisted crates p).Valid := by
  refine ⟨getD_min_le h.uam, getD_min_le h.mode, ?_⟩
  show (p.authToken.filter fun t => !t.isEmpty).getD rt.authToken ≠ []
  cases hp : p.authToken.filter fun t => !t.isEmpty with
  | none => exact h.token
  | some t =>
    obtain ⟨-, ht⟩ := Option.filter_eq_some_iff.mp hp
    rintro rfl
    cases ht

lemma Valid.bindPersistFile {rt' : Runtime} {disk path} (h : rt.Valid)
    (hl : rt.bindPersistFile crates disk path = some rt') : rt'.Valid := by
  unfold Runtime.bindPersistFile at hl
  split at hl
  case h_1 =>
    obtain rfl := Option.some.inj hl
    exact ⟨h.uam, h.mode, h.token⟩
  case h_2 => cases hl
  case h_3 p _ =>
    obtain rfl := Option.some.inj hl
    have hp : (rt.applyPersisted crates p).Valid := h.applyPersisted
    exact ⟨hp.uam, hp.mode, hp.token⟩

lemma Valid.applyPatch {p : Patch} (h : rt.Valid) : (rt.applyPatch crates p).Valid :=
  ⟨getD_min_le h.uam, getD_min_le h.mode, h.token⟩

lemma Valid.autoUam {bps} (h : rt.Valid) : (rt.autoUam bps).Valid := by
  have hu := h.uam
  refine ⟨?_, h.mode, h.token⟩
  show autoUamNext _ _ _ ≤ 4
  unfold autoUamNext
  split
  case isTrue hc => omega
  case isFalse =>
    split
    case isTrue => omega
    case isFalse => exact hu

/-- A runtime state of a process is valid. -/
lemma Reachable.valid (h : Reachable crates json cfg rt) : rt.Valid := by
  induction h with
  | start => exact ⟨Nat.zero_le _, Nat.zero_le _, generateToken_ne_nil⟩
  | load _ hl ih => exact ih.bindPersistFile hl
  | @call p req _ ih =>
    have heffect := @Process.routeApi_effect crates json p req
    generalize (p.routeApi crates json req).2 = p' at heffect
    cases heffect with
    | none => exact ih
    | patch => exact ih.applyPatch
    | settings hv => exact hv ih
    | unban => exact ih
  | autoUam _ ih => exact ih.autoUam

/-- The codes of a list, in either case. -/
lemma sameCase_upper {cs : List Str} :
    List.Forall₂ (fun c d => eqIgnoreCase c d = true) (cs.map toAsciiUpper) cs := by
  induction cs with
  | nil => exact .nil
  | cons c cs ih => exact .cons eqIgnoreCase_upper ih

/-- The settings survive a restart. What a runtime state of a process saves to its file, a fresh one
from the same configuration reads back in every field, the country codes up to ASCII case. -/
theorem persist_roundtrip {path : Str} {disk : RuntimeDisk} {nanos pid : Nat} {thread : Str}
    (h : Reachable crates json cfg rt) (hpath : rt.persistPath = some path)
    (hnets : ∀ n ∈ rt.allow ++ rt.deny, crates.ipNet n.toStr = some n) :
    ∃ rt', (fromConfig cfg (generateToken crates nanos pid thread)).bindPersistFile crates
        (rt.persist disk) path = some rt'
      ∧ rt' = { rt with blockedCountries := rt'.blockedCountries }
      ∧ List.Forall₂ (fun c d => eqIgnoreCase c d = true) rt'.blockedCountries
        rt.blockedCountries := by
  have hfile : rt.persist disk path = some (some rt.saved) := by
    simp only [persist, hpath]
    exact if_pos trivial
  have happly : (fromConfig cfg (generateToken crates nanos pid thread)).applyPersisted crates
      rt.saved = { rt with
        blockedCountries := rt.blockedCountries.map toAsciiUpper
        persistPath := none } := apply_saved h.valid hnets rfl
  refine ⟨{ rt with blockedCountries := rt.blockedCountries.map toAsciiUpper }, ?_, rfl, sameCase_upper⟩
  rw [Runtime.bindPersistFile, hfile]
  simp only [happly, ← hpath]

/-- Crates that read one network. -/
def sampleCrates : Crates :=
  { idleCrates with
    ipNet := fun s => if s = "10.0.0.0/8" then IpNet.new (.v4 (.new 10 0 0 0)) 8 else none }

/-- A process that has started on an empty disk. -/
def sampleProcess : Process :=
  (Process.start sampleCrates Engine.sampleCfg (some ("runtime.json", "bans.json"))
    (generateToken sampleCrates 1700000000000 1 "main") (fun _ => none) (fun _ => none)
    1700000000).get (by decide)

/-- A call that denies a network. -/
def denyTen : ParsedReq where
  method := "POST"
  path := "/api/ip/deny"
  query := (∅ : HashMap Str Str).insert "cidr".toList "10.0.0.0/8".toList

/-- The settings of the process after the call. -/
def sampleRuntime : Runtime :=
  (sampleProcess.routeApi sampleCrates (fun _ => .ok {}) denyTen).2.engine.runtime

/-- Settings after a network was denied, saved and read. -/
theorem persist_roundtrip_witness :
    ∃ rt', (fromConfig Engine.sampleCfg (generateToken sampleCrates 1700000100000 2
        "main")).bindPersistFile sampleCrates (sampleRuntime.persist fun _ => none) "runtime.json"
        = some rt'
      ∧ rt' = { sampleRuntime with blockedCountries := rt'.blockedCountries }
      ∧ List.Forall₂ (fun c d => eqIgnoreCase c d = true) rt'.blockedCountries
        sampleRuntime.blockedCountries := by
  have started : (fromConfig Engine.sampleCfg (generateToken sampleCrates 1700000000000 1
      "main")).bindPersistFile sampleCrates (fun _ => none) "runtime.json"
      = some sampleProcess.engine.runtime := rfl
  have reached : Reachable sampleCrates (fun _ => .ok {}) Engine.sampleCfg sampleRuntime :=
    .call (.load .start started)
  have nets : ∀ n ∈ sampleRuntime.allow ++ sampleRuntime.deny,
      sampleCrates.ipNet n.toStr = some n := by decide
  exact persist_roundtrip reached rfl nets

end Runtime

/-! ## Traps and lifted bans -/

namespace Process

/-- The process after some calls. -/
def callAll (crates : Crates) (json : List UInt8 → Except Str Patch) (p : Process)
    (calls : List ParsedReq) : Process :=
  calls.foldl (fun p req => (p.routeApi crates json req).2) p

/-- The traps in force after some calls: those that were set last. -/
def trapsInForce (json : List UInt8 → Except Str Patch) (h : Honeypot.Honeypots)
    (calls : List ParsedReq) : Honeypot.Honeypots :=
  calls.foldl (fun h req => ((req.traps json).map h.replace).getD h) h

/-- Is the address banned? -/
def isBanned (p : Process) (ip : IpAddr) (now : Nat) : Bool := p.engine.reputations.isBanned ip now

/-- The ban file holds a ban of the address that still runs. -/
def FileBans (banDisk : Disk) (paths : Option (Str × Str)) (ip : IpAddr) (now : Nat) : Prop :=
  ∃ runtimePath banPath file, paths = some (runtimePath, banPath)
    ∧ banDisk banPath = some (some file) ∧ ∃ b ∈ file, b.ip = ip ∧ now < b.banUntil

variable {crates : Crates} {json : List UInt8 → Except Str Patch} {cfg : Config}
  {paths : Option (Str × Str)} {token : Str} {p after : Process} {req : ParsedReq}
  {calls : List ParsedReq} {ip addr : IpAddr} {now : Nat} {banDisk : Disk} {runtimeDisk : RuntimeDisk}

/-- What a call does to the traps. -/
lemma routeApi_honeypots : (p.routeApi crates json req).2.engine.honeypots
    = ((req.traps json).map p.engine.honeypots.replace).getD p.engine.honeypots := by
  have heffect := @routeApi_effect crates json p req
  generalize (p.routeApi crates json req).2 = p' at heffect
  cases heffect with
  | none ht | settings _ ht | unban ht =>
    rw [ht]
    rfl
  | patch ht =>
    rw [ht]
    rfl

/-- No call writes the ban file. -/
lemma routeApi_banDisk : (p.routeApi crates json req).2.banDisk = p.banDisk := by
  have heffect := @routeApi_effect crates json p req
  generalize (p.routeApi crates json req).2 = p' at heffect
  cases heffect with
  | none | patch | settings | unban => rfl

/-- What a call does to the bans. -/
lemma routeApi_isBanned : (p.routeApi crates json req).2.isBanned ip now
    = (p.isBanned ip now && decide (req.unbans ≠ some ip)) := by
  have heffect := @routeApi_effect crates json p req
  generalize (p.routeApi crates json req).2 = p' at heffect
  cases heffect with
  | none _ hu | patch _ hu | settings _ _ hu =>
    rw [hu]
    exact (Bool.and_true _).symm
  | @unban addr _ hu =>
    rw [hu]
    have hsome : (some addr ≠ some ip) = (addr ≠ ip) := by rw [ne_eq, Option.some.injEq]
    simp only [hsome]
    exact Reputations.isBanned_unban

lemma callAll_traps : (p.callAll crates json calls).engine.honeypots
    = trapsInForce json p.engine.honeypots calls := by
  induction calls generalizing p with
  | nil => rfl
  | cons req calls ih =>
    show (callAll crates json _ calls).engine.honeypots = trapsInForce json _ calls
    rw [ih, routeApi_honeypots]

/-- No call writes the ban file. -/
lemma callAll_banDisk : (p.callAll crates json calls).banDisk = p.banDisk := by
  induction calls generalizing p with
  | nil => rfl
  | cons req calls ih => exact ih.trans routeApi_banDisk

/-- After some calls an address is banned if it was and no call has lifted its ban. -/
lemma callAll_isBanned : (p.callAll crates json calls).isBanned ip now
    = (p.isBanned ip now && decide (ip ∉ calls.filterMap ParsedReq.unbans)) := by
  induction calls generalizing p with
  | nil => exact (Bool.and_true _).symm
  | cons req calls ih =>
    have hcons : (p.callAll crates json (req :: calls)).isBanned ip now
        = ((p.routeApi crates json req).2.isBanned ip now
          && decide (ip ∉ calls.filterMap ParsedReq.unbans)) := ih
    rw [hcons, routeApi_isBanned, Bool.and_assoc]
    congr 1
    rw [← Bool.decide_and, decide_eq_decide, List.mem_filterMap, List.mem_filterMap]
    simp only [List.mem_cons, exists_eq_or_imp, not_or]

/-- An engine that is built has the traps of the source and no bans. -/
lemma build_fresh {e : Engine} (h : Engine.build crates cfg = some e) :
    e.honeypots = {} ∧ e.reputations.state = ∅ := by
  simp only [Engine.build, Option.bind_eq_bind, Option.bind_eq_some_iff] at h
  obtain ⟨_, -, reps, hreps, _, -, he⟩ := h
  obtain rfl := Option.some.inj he
  simp only [Reputations.new, Option.bind_eq_bind, Option.bind_eq_some_iff] at hreps
  obtain ⟨_, -, _, -, hr⟩ := hreps
  obtain rfl := Option.some.inj hr
  exact ⟨rfl, rfl⟩

/-- A process that starts has the traps of the source. -/
lemma start_honeypots (h : start crates cfg paths token banDisk runtimeDisk now = some after) :
    after.engine.honeypots = {} := by
  obtain ⟨e, he, h⟩ := Option.bind_eq_some_iff.mp h
  cases paths with
  | none =>
    obtain rfl := Option.some.inj h
    exact (build_fresh he).1
  | some path =>
    obtain rfl := Option.some.inj h
    exact (build_fresh he).1

/-- A process that starts has the bans of its ban file that still run. -/
lemma start_isBanned (h : start crates cfg paths token banDisk runtimeDisk now = some after) :
    after.isBanned ip now = true ↔ FileBans banDisk paths ip now := by
  obtain ⟨e, he, h⟩ := Option.bind_eq_some_iff.mp h
  obtain ⟨-, hstate⟩ := build_fresh he
  have hempty : e.reputations.isBanned ip now = false := by
    rw [Reputations.isBanned, hstate]
    rfl
  cases paths with
  | none =>
    obtain rfl := Option.some.inj h
    exact ⟨fun h => absurd (hempty.symm.trans h) nofun, fun ⟨_, _, _, hp, _⟩ => nomatch hp⟩
  | some path =>
    obtain ⟨runtimePath, banPath⟩ := path
    obtain rfl := Option.some.inj h
    show (e.reputations.bindPersistFile banDisk banPath now).isBanned ip now = true ↔ _
    rw [Reputations.isBanned_bind, hempty, or_iff_left Bool.false_ne_true]
    exact ⟨fun ⟨file, hf, hb⟩ => ⟨runtimePath, banPath, file, rfl, hf, hb⟩,
      fun ⟨_, _, file, hp, hf, hb⟩ => by cases hp; exact ⟨file, hf, hb⟩⟩

/-- What a restart after some calls to the API brings back. The traps are those of the source again,
and a ban that was lifted is back if it is in the ban file, which no call writes. -/
theorem survives_iff (hrestart : start crates cfg paths token
      (p.callAll crates json calls).banDisk (p.callAll crates json calls).runtimeDisk now
      = some after) :
    ((∀ path, after.engine.honeypots.isTrap path
          = (p.callAll crates json calls).engine.honeypots.isTrap path)
        ∧ ∀ ip ∈ calls.filterMap ParsedReq.unbans,
          after.isBanned ip now = (p.callAll crates json calls).isBanned ip now)
      ↔ (∀ path, (trapsInForce json p.engine.honeypots calls).isTrap path
          = ({} : Honeypot.Honeypots).isTrap path)
        ∧ ∀ ip ∈ calls.filterMap ParsedReq.unbans, ¬ FileBans p.banDisk paths ip now := by
  rw [start_honeypots hrestart, callAll_traps]
  refine and_congr (forall_congr' fun path => eq_comm) (forall₂_congr fun ip hip => ?_)
  have hafter : after.isBanned ip now = true ↔ FileBans p.banDisk paths ip now := by
    rw [← @callAll_banDisk crates json p calls]
    exact start_isBanned hrestart
  have hbefore : (p.callAll crates json calls).isBanned ip now = false := by
    rw [callAll_isBanned, decide_eq_false (not_not_intro hip), Bool.and_false]
  rw [hbefore, ← hafter, Bool.not_eq_true]

/-- The ban file of the example: a ban of one address until the year 2030. -/
def sampleBans : Disk := fun path =>
  if path = "bans.json" then some (some [⟨.v4 (.new 1 2 3 4), 1900000000, 5⟩]) else none

/-- The process of the example, started on that file. -/
def sampleStarted : Process :=
  (start idleCrates Engine.sampleCfg (some ("runtime.json", "bans.json")) "token" sampleBans
    (fun _ => none) 1700000000).get (by decide)

/-- A call that sets the traps, with a body that the parser of the example reads as one. -/
def setTraps : ParsedReq where
  method := "POST"
  path := "/api/runtime"

/-- A call that lifts the ban. -/
def liftBan : ParsedReq where
  method := "POST"
  path := "/api/unban"
  query := (∅ : HashMap Str Str).insert "ip".toList "1.2.3.4".toList

/-- The patch of the example. -/
def trapPatch (_ : List UInt8) : Except Str Patch := .ok { honeypotPaths := some ["/secret"] }

/-- The process of the example after the two calls. -/
def sampleBefore : Process := sampleStarted.callAll idleCrates trapPatch [setTraps, liftBan]

/-- The process of the example after the restart that follows. -/
def sampleAfter : Process :=
  (start idleCrates Engine.sampleCfg (some ("runtime.json", "bans.json")) "token"
    sampleBefore.banDisk sampleBefore.runtimeDisk 1700000100).get (by decide)

/-- New traps and a lifted ban, and a restart. -/
theorem survives_iff_witness :
    ((∀ path, sampleAfter.engine.honeypots.isTrap path = sampleBefore.engine.honeypots.isTrap path)
        ∧ ∀ ip ∈ [setTraps, liftBan].filterMap ParsedReq.unbans,
          sampleAfter.isBanned ip 1700000100 = sampleBefore.isBanned ip 1700000100)
      ↔ (∀ path, (trapsInForce trapPatch sampleStarted.engine.honeypots
          [setTraps, liftBan]).isTrap path = ({} : Honeypot.Honeypots).isTrap path)
        ∧ ∀ ip ∈ [setTraps, liftBan].filterMap ParsedReq.unbans,
          ¬ FileBans sampleStarted.banDisk (some ("runtime.json", "bans.json")) ip 1700000100 := by
  have restarted : start idleCrates Engine.sampleCfg (some ("runtime.json", "bans.json")) "token"
      sampleBefore.banDisk sampleBefore.runtimeDisk 1700000100 = some sampleAfter :=
    (Option.some_get _).symm
  exact survives_iff restarted

/-- Both calls succeed, but after the restart the trap is gone and the ban is back. -/
theorem traps_and_unbans_lost :
    (sampleStarted.routeApi idleCrates trapPatch setTraps).1.status = 200
      ∧ (sampleStarted.routeApi idleCrates trapPatch liftBan).1.status = 204
      ∧ sampleBefore.engine.honeypots.isTrap "/secret" = true
      ∧ sampleAfter.engine.honeypots.isTrap "/secret" = false
      ∧ sampleBefore.isBanned (.v4 (.new 1 2 3 4)) 1700000100 = false
      ∧ sampleAfter.isBanned (.v4 (.new 1 2 3 4)) 1700000100 = true := by decide

end Process

end Waf
