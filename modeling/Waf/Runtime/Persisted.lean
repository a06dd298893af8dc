import Waf.Runtime

/-!
# Saved settings

How `runtime.rs` keeps the runtime state over a restart: `snapshot` copies every field into a
`PersistedRuntime`, `persist` writes the copy to the bound file, with the captcha secret that
`snapshot` withholds, and `bind_persist_file` reads it back through `apply_persisted`. A file is what
`serde_json` reads from it.

`apply_saved` says that what was saved is what is restored, field by field, up to the case of the
country codes.
-/

namespace Waf
open Lib

structure PersistedToggles where
  sqli : Option Bool := none
  xss : Option Bool := none
  traversal : Option Bool := none
  cmdi : Option Bool := none
  lfi : Option Bool := none
  botUa : Option Bool := none
  rateLimit : Option Bool := none

structure PersistedDefenses where
  botScore : Option Bool := none
  behavior : Option Bool := none
  ddos : Option Bool := none
  honeypots : Option Bool := none
  subnet : Option Bool := none
  replay : Option Bool := none
  distUa : Option Bool := none
  goodbot : Option Bool := none
  bic : Option Bool := none

structure PersistedRuntime where
  underAttack : Bool := false
  uamLevel : Option Nat := none
  challengeMode : Option Nat := none
  autoUamEnabled : Option Bool := none
  autoUamThreshold : Option Nat := none
  challengeThreshold : Option Nat := none
  blockThreshold : Option Nat := none
  maxConcurrentPerIp : Option Nat := none
  rpmUnderAttackBps : Option Nat := none
  subnetRpm : Option Nat := none
  subnetConn : Option Nat := none
  globalInflightCap : Option Nat := none
  tarpitScore : Option Nat := none
  datacenterBlock : Option Bool := none
  allow : List Str := []
  deny : List Str := []
  blockedCountries : List Str := []
  rules : PersistedToggles := {}
  defenses : PersistedDefenses := {}
  honeypotPaths : Option (List Str) := none
  authToken : Option Str := none
  turnstileProvider : Option Str := none
  turnstileSiteKey : Option Str := none
  turnstileSecret : Option Str := none

/-- The settings in a file, `none` for a text that does not parse. -/
abbrev RuntimeFile := Option PersistedRuntime

/-- The file system: the settings file at a path, if the path exists. -/
abbrev RuntimeDisk := Str → Option RuntimeFile

/-- The values of some rule toggles, over those of others. -/
def PersistedToggles.apply (p : PersistedToggles) (r : RuleToggles) : RuleToggles where
  sqli := p.sqli.getD r.sqli
  xss := p.xss.getD r.xss
  traversal := p.traversal.getD r.traversal
  cmdi := p.cmdi.getD r.cmdi
  lfi := p.lfi.getD r.lfi
  botUa := p.botUa.getD r.botUa
  rateLimit := p.rateLimit.getD r.rateLimit

/-- The values of some defense toggles, over those of others. -/
def PersistedDefenses.apply (p : PersistedDefenses) (d : DefenseToggles) : DefenseToggles where
  botScore := p.botScore.getD d.botScore
  behavior := p.behavior.getD d.behavior
  ddos := p.ddos.getD d.ddos
  honeypots := p.honeypots.getD d.honeypots
  subnet := p.subnet.getD d.subnet
  replay := p.replay.getD d.replay
  distUa := p.distUa.getD d.distUa
  goodbot := p.goodbot.getD d.goodbot
  bic := p.bic.getD d.bic

namespace Runtime

def applyPersisted (crates : Crates) (rt : Runtime) (p : PersistedRuntime) : Runtime :=
  { rt with
    underAttack := p.underAttack
    uamLevel := (p.uamLevel.map (min · 4)).getD rt.uamLevel
    challengeMode := (p.challengeMode.map (min · 2)).getD rt.challengeMode
    autoUamEnabled := p.autoUamEnabled.getD rt.autoUamEnabled
    autoUamThreshold := p.autoUamThreshold.getD rt.autoUamThreshold
    challengeThreshold := p.challengeThreshold.getD rt.challengeThreshold
    blockThreshold := p.blockThreshold.getD rt.blockThreshold
    maxConcurrentPerIp := p.maxConcurrentPerIp.getD rt.maxConcurrentPerIp
    rpmUnderAttackBps := p.rpmUnderAttackBps.getD rt.rpmUnderAttackBps
    rules := p.rules.apply rt.rules
    defenses := p.defenses.apply rt.defenses
    subnetRpm := p.subnetRpm.getD rt.subnetRpm
    subnetConn := p.subnetConn.getD rt.subnetConn
    globalInflightCap := p.globalInflightCap.getD rt.globalInflightCap
    tarpitScore := p.tarpitScore.getD rt.tarpitScore
    datacenterBlock := p.datacenterBlock.getD rt.datacenterBlock
    allow := p.allow.filterMap (parseNet crates.ipNet)
    deny := p.deny.filterMap (parseNet crates.ipNet)
    blockedCountries := p.blockedCountries.map toAsciiUpper
    -- an empty token is not taken over
    authToken := (p.authToken.filter fun t => !t.isEmpty).getD rt.authToken
    turnstileProvider := p.turnstileProvider.getD rt.turnstileProvider
    turnstileSiteKey := p.turnstileSiteKey.getD rt.turnstileSiteKey
    turnstileSecret := p.turnstileSecret.getD rt.turnstileSecret }

/-- `snapshot`, which the dashboard also gets to see: the secret is left out, and the paths of the
traps, which the engine holds. -/
def snapshot (rt : Runtime) : PersistedRuntime where
  underAttack := rt.underAttack
  uamLevel := some rt.uamLevel
  challengeMode := some rt.challengeMode
  autoUamEnabled := some rt.autoUamEnabled
  autoUamThreshold := some rt.autoUamThreshold
  challengeThreshold := some rt.challengeThreshold
  blockThreshold := some rt.blockThreshold
  maxConcurrentPerIp := some rt.maxConcurrentPerIp
  rpmUnderAttackBps := some rt.rpmUnderAttackBps
  allow := rt.allow.map IpNet.toStr
  deny := rt.deny.map IpNet.toStr
  blockedCountries := rt.blockedCountries
  rules := {
    sqli := some rt.rules.sqli
    xss := some rt.rules.xss
    traversal := some rt.rules.traversal
    cmdi := some rt.rules.cmdi
    lfi := some rt.rules.lfi
    botUa := some rt.rules.botUa
    rateLimit := some rt.rules.rateLimit }
  defenses := {
    botScore := some rt.defenses.botScore
    behavior := some rt.defenses.behavior
    ddos := some rt.defenses.ddos
    honeypots := some rt.defenses.honeypots
    subnet := some rt.defenses.subnet
    replay := some rt.defenses.replay
    distUa := some rt.defenses.distUa
    goodbot := some rt.defenses.goodbot
    bic := some rt.defenses.bic }
  subnetRpm := some rt.subnetRpm
  subnetConn := some rt.subnetConn
  globalInflightCap := some rt.globalInflightCap
  tarpitScore := some rt.tarpitScore
  datacenterBlock := some rt.datacenterBlock
  honeypotPaths := none
  authToken := some rt.authToken
  turnstileProvider := some rt.turnstileProvider
  turnstileSiteKey := some rt.turnstileSiteKey
  turnstileSecret := none

/-- What `persist` writes: the snapshot, with the secret if there is one. -/
def saved (rt : Runtime) : PersistedRuntime :=
  let snap := rt.snapshot
  if rt.turnstileSecret.isEmpty then snap
  else { snap with turnstileSecret := some rt.turnstileSecret }

def persist (rt : Runtime) (disk : RuntimeDisk) : RuntimeDisk :=
  match rt.persistPath with
  | none => disk
  | some path => fun p => if p = path then some (some rt.saved) else disk p

/-- `bind_persist_file`, which fails on a file that does not parse. -/
def bindPersistFile (crates : Crates) (rt : Runtime) (disk : RuntimeDisk) (path : Str) :
    Option Runtime :=
  match disk path with
  | none => some { rt with persistPath := some path }
  | some none => none
  | some (some p) => some { rt.applyPersisted crates p with persistPath := some path }

/-! ## The lists -/

/-- Add a network to a list unless it is there. -/
def addNet (nets : List IpNet) (net : IpNet) : List IpNet :=
  if net ∈ nets then nets else nets ++ [net]

/-- Remove a network from a list. -/
def removeNet (nets : List IpNet) (net : IpNet) : List IpNet := nets.filter (· ≠ net)

/-- An edit with the network that a text stands for, and its saving. -/
def editNet (crates : Crates) (edit : IpNet → Runtime) (disk : RuntimeDisk) (cidr : Str) :
    Option (Runtime × RuntimeDisk) :=
  (parseNet crates.ipNet cidr).map fun net => (edit net, (edit net).persist disk)

def addAllow (crates : Crates) (rt : Runtime) : RuntimeDisk → Str → Option (Runtime × RuntimeDisk) :=
  editNet crates fun net => { rt with allow := addNet rt.allow net }

def addDeny (crates : Crates) (rt : Runtime) : RuntimeDisk → Str → Option (Runtime × RuntimeDisk) :=
  editNet crates fun net => { rt with deny := addNet rt.deny net }

def removeAllow (crates : Crates) (rt : Runtime) :
    RuntimeDisk → Str → Option (Runtime × RuntimeDisk) :=
  editNet crates fun net => { rt with allow := removeNet rt.allow net }

def removeDeny (crates : Crates) (rt : Runtime) :
    RuntimeDisk → Str → Option (Runtime × RuntimeDisk) :=
  editNet crates fun net => { rt with deny := removeNet rt.deny net }

/-! ## Saving and restoring -/

/-- What every runtime state of a process meets: the two levels are in range, and there is a
token. -/
structure Valid (rt : Runtime) : Prop where
  uam : rt.uamLevel ≤ 4
  mode : rt.challengeMode ≤ 2
  token : rt.authToken ≠ []

/-- The texts of the networks on the lists read back. -/
def NetsRead (crates : Crates) (rt : Runtime) : Prop :=
  ∀ n ∈ rt.allow ++ rt.deny, crates.ipNet n.toStr = some n

variable {crates : Crates} {rt : Runtime} {p : PersistedRuntime}

/-- A network is written with its prefix length, so its text is not that of an address. -/
lemma parse_toStr_none {n : IpNet} : IpAddr.parse n.toStr = none := by
  cases h : IpAddr.parse n.toStr with
  | none => rfl
  | some a =>
    have hslash : '/' ∈ n.toStr := List.mem_append_right _ (.head _)
    exact absurd (IpAddr.parse_chars h _ hslash) (by decide)

/-- A list of networks that read back is restored in order. -/
lemma filterMap_parseNet {nets : List IpNet} (h : ∀ n ∈ nets, crates.ipNet n.toStr = some n) :
    (nets.map IpNet.toStr).filterMap (parseNet crates.ipNet) = nets := by
  induction nets with
  | nil => rfl
  | cons n nets ih =>
    have hn : parseNet crates.ipNet n.toStr = some n := by
      rw [parseNet, parse_toStr_none]
      exact h n (.head _)
    rw [List.map_cons, List.filterMap_cons_some hn, ih fun m hm => h m (.tail _ hm)]

/-- The saved secret is the secret, an empty one being left out. -/
lemma saved_secret : rt.saved.turnstileSecret.getD [] = rt.turnstileSecret := by
  unfold saved
  cases rt.turnstileSecret with
  | nil => rfl
  | cons c s => rfl

/-- Apart from the secret, what is saved is the snapshot. -/
lemma saved_eq : rt.saved = { rt.snapshot with turnstileSecret := rt.saved.turnstileSecret } := by
  unfold saved
  cases rt.turnstileSecret with
  | nil => rfl
  | cons c s => rfl

/-- What was saved is restored, over any state without a secret. -/
lemma apply_saved {rt₀ : Runtime} (hv : rt.Valid) (hnets : rt.NetsRead crates)
    (hsecret : rt₀.turnstileSecret = []) :
    rt₀.applyPersisted crates rt.saved
      = { rt with
          blockedCountries := rt.blockedCountries.map toAsciiUpper
          persistPath := rt₀.persistPath } := by
  have hallow : rt.snapshot.allow.filterMap (parseNet crates.ipNet) = rt.allow :=
    filterMap_parseNet fun n hn => hnets n (List.mem_append_left _ hn)
  have hdeny : rt.snapshot.deny.filterMap (parseNet crates.ipNet) = rt.deny :=
    filterMap_parseNet fun n hn => hnets n (List.mem_append_right _ hn)
  have huam : min rt.uamLevel 4 = rt.uamLevel := min_eq_left hv.uam
  have hmode : min rt.challengeMode 2 = rt.challengeMode := min_eq_left hv.mode
  have htoken : ((some rt.authToken).filter fun t => !t.isEmpty).getD rt₀.authToken
      = rt.authToken := by
    cases ht : rt.authToken with
    | nil => exact absurd ht hv.token
    | cons c t => rfl
  have hkept : rt.saved.turnstileSecret.getD rt₀.turnstileSecret = rt.turnstileSecret := by
    rw [hsecret, saved_secret]
  rw [saved_eq]
  simp only [applyPersisted, hallow, hdeny, hkept]
  simp only [snapshot, Option.map_some, Option.getD_some, huam, hmode, htoken,
    PersistedToggles.apply, PersistedDefenses.apply]

end Runtime

end Waf
