import Waf.Config
import Waf.Lib.Ring

/-!
# Runtime state

The settings that the dashboard changes while the process runs, as `runtime.rs` holds them, and the
UAM level with the parameters the engine reads off it. The numbers are 32-bit atomics of the source,
the level an 8-bit one.
-/

namespace Waf
open Lib

structure RuleToggles where
  sqli : Bool := true
  xss : Bool := true
  traversal : Bool := true
  cmdi : Bool := true
  lfi : Bool := true
  botUa : Bool := true
  rateLimit : Bool := true

structure DefenseToggles where
  botScore : Bool := true
  behavior : Bool := true
  ddos : Bool := true
  honeypots : Bool := true
  subnet : Bool := true
  replay : Bool := true
  distUa : Bool := true
  goodbot : Bool := true
  bic : Bool := true

inductive UamLevel where
  | off
  | low
  | medium
  | high
  | extreme
  deriving DecidableEq

namespace UamLevel

def fromU8 (n : Nat) : UamLevel :=
  match n with
  | 1 => low
  | 2 => medium
  | 3 => high
  | 4 => extreme
  | _ => off

/-- `Debug`. -/
def toStr : UamLevel → Str
  | off => "Off"
  | low => "Low"
  | medium => "Medium"
  | high => "High"
  | extreme => "Extreme"

end UamLevel

inductive ChallengeMode where
  | pow
  | interactive
  | combined
  deriving DecidableEq

def ChallengeMode.fromU8 (n : Nat) : ChallengeMode :=
  match n with
  | 1 => interactive
  | 2 => combined
  | _ => pow

structure Runtime where
  underAttack : Bool := false
  uamLevel : Nat := 0
  challengeMode : Nat := 0
  autoUamEnabled : Bool := false
  autoUamThreshold : Nat := 50
  challengeThreshold : Nat
  blockThreshold : Nat
  maxConcurrentPerIp : Nat := 200
  rpmUnderAttackBps : Nat := 2000
  subnetRpm : Nat := 2400
  subnetConn : Nat := 800
  globalInflightCap : Nat := 20000
  tarpitScore : Nat := 150
  datacenterBlock : Bool := false
  rules : RuleToggles := {}
  defenses : DefenseToggles := {}
  allow : List IpNet := []
  deny : List IpNet := []
  blockedCountries : List Str := []
  authToken : Str := []
  turnstileProvider : Str := "turnstile"
  turnstileSiteKey : Str := []
  turnstileSecret : Str := []
  persistPath : Option Str := none

namespace Runtime

/-- `from_config`, with the token that `generate_token` makes; it is left out where nothing reads
it. -/
def fromConfig (cfg : Config) (token : Str := []) : Runtime where
  challengeThreshold := cfg.detection.challengeThreshold
  blockThreshold := cfg.detection.blockThreshold
  rules := {
    sqli := cfg.detection.sqli
    xss := cfg.detection.xss
    traversal := cfg.detection.traversal
    cmdi := cfg.detection.cmdi
    lfi := cfg.detection.lfi
    rateLimit := cfg.rateLimit.enabled }
  blockedCountries := cfg.geoip.blockCountries
  authToken := token

def uam (rt : Runtime) : UamLevel := .fromU8 rt.uamLevel

def challengeModeV (rt : Runtime) : ChallengeMode := .fromU8 rt.challengeMode

end Runtime

/-- What a UAM level changes in the engine. -/
structure UamParams where
  forceChallenge : Bool
  rpmScaleBps : Nat
  challengeDrop : Nat
  blockDrop : Nat
  connCapClamp : Nat

def UamLevel.params : UamLevel → UamParams
  | off => ⟨false, 10000, 0, 0, 0⟩
  | low => ⟨false, 7500, 5, 5, 0⟩
  | medium => ⟨true, 5000, 10, 10, 0⟩
  | high => ⟨true, 2500, 15, 15, 50⟩
  | extreme => ⟨true, 1000, 20, 20, 25⟩

namespace Runtime

/-- The level in force: the legacy `under_attack` flag stands for medium while the level is off. -/
def effectiveUam (rt : Runtime) : UamLevel :=
  if rt.uam = .off ∧ rt.underAttack = true then .medium else rt.uam

def uamParams (rt : Runtime) : UamParams := rt.effectiveUam.params

/-- The cap on requests in flight of one address, with the clamp of the level. -/
def connCap (rt : Runtime) : Int :=
  if 0 < rt.uamParams.connCapClamp then
    min (rt.maxConcurrentPerIp : Int) (rt.uamParams.connCapClamp : Int)
  else rt.maxConcurrentPerIp

/-- The scale of the rate limits: a level above off sets it, and else the legacy flag. -/
def scaleBps (rt : Runtime) : Nat :=
  if rt.uamParams.rpmScaleBps < 10000 then rt.uamParams.rpmScaleBps
  else if rt.underAttack then rt.rpmUnderAttackBps
  else 10000

/-- The threshold for blocking, lowered by the level. -/
def effectiveBlock (rt : Runtime) : Nat := rt.blockThreshold - rt.uamParams.blockDrop

/-- The threshold for a challenge, lowered by the level. -/
def effectiveChallenge (rt : Runtime) : Nat := rt.challengeThreshold - rt.uamParams.challengeDrop

end Runtime

end Waf
