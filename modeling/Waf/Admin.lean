import Waf.Engine
import Waf.Runtime.Persisted

/-!
# The dashboard

What the admin service of `admin.rs` does with a request, and how `main` starts a process. A process
is its engine with the files that the engine's state outlives it in: the settings of the runtime and
the bans. `route_api` is a function of the parsed request; the JSON parser of `serde_json` is a
parameter. What an endpoint that only reads reports is left out.
-/

namespace Waf
open Lib

/-! ## Patches -/

structure RulesPatch where
  sqli : Option Bool := none
  xss : Option Bool := none
  traversal : Option Bool := none
  cmdi : Option Bool := none
  lfi : Option Bool := none
  botUa : Option Bool := none
  rateLimit : Option Bool := none

structure DefensesPatch where
  botScore : Option Bool := none
  behavior : Option Bool := none
  ddos : Option Bool := none
  honeypots : Option Bool := none
  subnet : Option Bool := none
  replay : Option Bool := none
  distUa : Option Bool := none
  goodbot : Option Bool := none
  bic : Option Bool := none

/-- The body of `POST /api/runtime`. -/
structure Patch where
  underAttack : Option Bool := none
  uamLevel : Option Nat := none
  challengeMode : Option Nat := none
  autoUamEnabled : Option Bool := none
  autoUamThreshold : Option Nat := none
  challengeThreshold : Option Nat := none
  blockThreshold : Option Nat := none
  maxConcurrentPerIp : Option Nat := none
  rpmUnderAttackBps : Option Nat := none
  subnetRpm : Option Nat := none
  subnetConn : Option Nat := none
  globalInflightCap : Option Nat := none
  tarpitScore : Option Nat := none
  datacenterBlock : Option Bool := none
  rules : Option RulesPatch := none
  defenses : Option DefensesPatch := none
  blockedCountries : Option (List Str) := none
  honeypotPaths : Option (List Str) := none
  turnstileProvider : Option Str := none
  turnstileSiteKey : Option Str := none
  turnstileSecret : Option Str := none

def RulesPatch.apply (p : RulesPatch) (r : RuleToggles) : RuleToggles where
  sqli := p.sqli.getD r.sqli
  xss := p.xss.getD r.xss
  traversal := p.traversal.getD r.traversal
  cmdi := p.cmdi.getD r.cmdi
  lfi := p.lfi.getD r.lfi
  botUa := p.botUa.getD r.botUa
  rateLimit := p.rateLimit.getD r.rateLimit

def DefensesPatch.apply (p : DefensesPatch) (d : DefenseToggles) : DefenseToggles where
  botScore := p.botScore.getD d.botScore
  behavior := p.behavior.getD d.behavior
  ddos := p.ddos.getD d.ddos
  honeypots := p.honeypots.getD d.honeypots
  subnet := p.subnet.getD d.subnet
  replay := p.replay.getD d.replay
  distUa := p.distUa.getD d.distUa
  goodbot := p.goodbot.getD d.goodbot
  bic := p.bic.getD d.bic

namespace Runtime

/-- The settings of a patch, over those of the runtime. -/
def applyPatch (crates : Crates) (rt : Runtime) (p : Patch) : Runtime :=
  { rt with
    underAttack := p.underAttack.getD rt.underAttack
    uamLevel := (p.uamLevel.map (min · 4)).getD rt.uamLevel
    challengeMode := (p.challengeMode.map (min · 2)).getD rt.challengeMode
    autoUamEnabled := p.autoUamEnabled.getD rt.autoUamEnabled
    autoUamThreshold := p.autoUamThreshold.getD rt.autoUamThreshold
    challengeThreshold := p.challengeThreshold.getD rt.challengeThreshold
    blockThreshold := p.blockThreshold.getD rt.blockThreshold
    maxConcurrentPerIp := p.maxConcurrentPerIp.getD rt.maxConcurrentPerIp
    rpmUnderAttackBps := p.rpmUnderAttackBps.getD rt.rpmUnderAttackBps
    rules := (p.rules.map fun r => r.apply rt.rules).getD rt.rules
    defenses := (p.defenses.map fun d => d.apply rt.defenses).getD rt.defenses
    subnetRpm := p.subnetRpm.getD rt.subnetRpm
    subnetConn := p.subnetConn.getD rt.subnetConn
    globalInflightCap := p.globalInflightCap.getD rt.globalInflightCap
    tarpitScore := p.tarpitScore.getD rt.tarpitScore
    datacenterBlock := p.datacenterBlock.getD rt.datacenterBlock
    turnstileProvider := (p.turnstileProvider.map crates.lowercase).getD rt.turnstileProvider
    turnstileSiteKey := p.turnstileSiteKey.getD rt.turnstileSiteKey
    -- an empty secret is not taken over
    turnstileSecret := (p.turnstileSecret.filter fun s => !s.isEmpty).getD rt.turnstileSecret
    blockedCountries :=
      (p.blockedCountries.map fun cs => cs.map toAsciiUpper).getD rt.blockedCountries }

/-- The level after a tick of `AutoUamService` that measured a rate of blocks. -/
def autoUamNext (cur thresh bps : Nat) : Nat :=
  if thresh ≤ bps ∧ cur < 4 then cur + 1
  else if bps ≤ thresh / 4 ∧ 0 < cur then cur - 1
  else cur

/-- A tick of `AutoUamService` that changes the level. -/
def autoUam (rt : Runtime) (bps : Nat) : Runtime :=
  { rt with uamLevel := autoUamNext rt.uamLevel rt.autoUamThreshold bps }

end Runtime

/-! ## The process -/

structure Process where
  engine : Engine
  banDisk : Disk
  runtimeDisk : RuntimeDisk

/-- The bytes of a number in little-endian order. -/
def leBytes (width n : Nat) : List UInt8 := (List.range width).map fun i => (n / 256 ^ i).toUInt8

/-- `generate_token`, from the time, the process and the thread. -/
def generateToken (crates : Crates) (nanos pid : Nat) (thread : Str) : Str :=
  base64Url (crates.sha256 (leBytes 16 nanos ++ leBytes 4 pid ++ utf8 thread)).toList

namespace Process

/-- The part of `main` that makes the engine, at time `now`. `paths` are those of the settings and of
the bans, if a path is configured; what fails to load is left out. -/
def start (crates : Crates) (cfg : Config) (paths : Option (Str × Str)) (token : Str)
    (banDisk : Disk) (runtimeDisk : RuntimeDisk) (now : Nat) : Option Process := do
  let e ← Engine.build crates cfg
  let rt := Runtime.fromConfig cfg token
  match paths with
  | none => return ⟨{ e with runtime := rt }, banDisk, runtimeDisk⟩
  | some (runtimePath, banPath) =>
    return ⟨{ e with
      runtime := (rt.bindPersistFile crates runtimeDisk runtimePath).getD rt
      reputations := e.reputations.bindPersistFile banDisk banPath now }, banDisk, runtimeDisk⟩

end Process

/-! ## The API -/

structure ParsedReq where
  method : Str
  path : Str
  query : HashMap Str Str := ∅
  headers : HashMap Str Str := ∅
  body : List UInt8 := []

/-- What a reply carries: the settings or an error in JSON, a text, or a report that is left out. -/
inductive Body where
  | empty
  | settings (p : PersistedRuntime)
  | error (msg : Str)
  | text (s : Str)
  | report

structure Reply where
  status : Nat
  body : Body

def okJson (body : Body) : Reply := ⟨200, body⟩

def badRequest (msg : Str) : Reply := ⟨400, .error msg⟩

/-- `format!` of a truth value. -/
def boolStr (b : Bool) : Str := if b then "true" else "false"

/-- `{"key":value}`. -/
def jsonField (key value : Str) : Str :=
  Char.ofNat 123 :: '"' :: (key ++ ('"' :: ':' :: (value ++ [Char.ofNat 125])))

namespace ParsedReq

/-- Is the query parameter the text `true`? -/
def flag (req : ParsedReq) (name : Str) : Bool := (req.query.get name).any (· == "true".toList)

/-- The level of `POST /api/uam`. -/
def uamLevel (req : ParsedReq) : Nat :=
  if req.flag "panic" then 4
  else min (((req.query.get "level").bind (parseNat 256)).getD 0) 4

/-- The address of `POST /api/unban`. -/
def unbanIp (req : ParsedReq) : Option IpAddr := (req.query.get "ip").bind IpAddr.parse

end ParsedReq

namespace Process

/-- The process with other runtime settings, saved. -/
def saveRuntime (p : Process) (rt : Runtime) : Process :=
  { p with
    engine := { p.engine with runtime := rt }
    runtimeDisk := rt.persist p.runtimeDisk }

/-- `with_cidr`, for one of the edits of the lists. -/
def withCidr (crates : Crates) (p : Process) (req : ParsedReq)
    (edit : RuntimeDisk → Str → Option (Runtime × RuntimeDisk)) : Reply × Process :=
  match req.query.get "cidr" with
  | none => (badRequest "missing cidr", p)
  | some cidr =>
    match edit p.runtimeDisk cidr with
    | some (rt, disk) =>
      (⟨204, .empty⟩, { p with engine := { p.engine with runtime := rt }, runtimeDisk := disk })
    | none => (badRequest (cidr ++ ": " ++ crates.ipNetError), p)

/-- The engine with the settings of a patch. -/
def patchEngine (crates : Crates) (e : Engine) (patch : Patch) : Engine :=
  { e with
    runtime := e.runtime.applyPatch crates patch
    honeypots := (patch.honeypotPaths.map e.honeypots.replace).getD e.honeypots }

def routeApi (crates : Crates) (json : List UInt8 → Except Str Patch) (p : Process)
    (req : ParsedReq) : Reply × Process :=
  let rt := p.engine.runtime
  match String.ofList req.method, String.ofList req.path with
  | "GET", "/api/state" | "GET", "/api/events" | "GET", "/api/goodbots" | "GET", "/api/banned" =>
    (okJson .report, p)
  | "POST", "/api/runtime" =>
    match json req.body with
    | .error e => (badRequest ("invalid json: " ++ e), p)
    | .ok patch =>
      let e := patchEngine crates p.engine patch
      (okJson (.settings e.runtime.snapshot),
        { p with engine := e, runtimeDisk := e.runtime.persist p.runtimeDisk })
  | "POST", "/api/uam" =>
    let level := req.uamLevel
    (okJson (.text (jsonField "uam_level" (dec level))),
      p.saveRuntime { rt with uamLevel := level })
  | "POST", "/api/under_attack" =>
    let on := req.flag "on"
    (okJson (.text (jsonField "under_attack" (boolStr on))),
      p.saveRuntime { rt with underAttack := on })
  | "POST", "/api/ip/allow" => p.withCidr crates req (rt.addAllow crates)
  | "POST", "/api/ip/deny" => p.withCidr crates req (rt.addDeny crates)
  | "POST", "/api/ip/unallow" => p.withCidr crates req (rt.removeAllow crates)
  | "POST", "/api/ip/undeny" => p.withCidr crates req (rt.removeDeny crates)
  | "POST", "/api/unban" =>
    match req.unbanIp with
    | some addr =>
      (⟨204, .empty⟩,
        { p with engine := { p.engine with reputations := p.engine.reputations.unban addr } })
    | none => (badRequest "missing ip", p)
  | _, _ => (⟨404, .error "not found"⟩, p)

end Process

end Waf
