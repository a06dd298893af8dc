import Waf.Limiter.Counter
import Waf.Signal.Anomaly

/-!
# Signals over time

The trackers that keep a history of the traffic: behaviour of an address (`behavior.rs`), rate and
load of a subnet (`subnet.rs`), replayed requests and user agents shared by many addresses
(`signature.rs`). An observation returns the reasons that fire and the new tracker. Each tracker
sweeps its table when enough time has passed since the last sweep. Behaviour is observed in
milliseconds, the rest in seconds.
-/

namespace Waf
open Lib

/-- `fnv64` from the state `h`. -/
def fnvFrom (h : UInt64) (bytes : List UInt8) : UInt64 :=
  bytes.foldl (fun h b => (h ^^^ b.toUInt64) * 0x100000001b3) h

def fnv64 (bytes : List UInt8) : UInt64 := fnvFrom 0xcbf29ce484222325 bytes

/-! ## Behaviour -/

namespace Behavior

def WINDOW_SECS : Nat := 60
def PATHS_CAP : Nat := 32
def INTERVAL_CAP : Nat := 16
def UA_CAP : Nat := 4

def W_LOW_DIVERSITY : Nat := 30
def W_REGULAR_INTERVAL : Nat := 35
def W_METHOD_FLOOD : Nat := 25
def W_UA_CHURN : Nat := 30

/-- The indices that `method_index` gives to the methods, in their order. -/
inductive Method where
  | get
  | post
  | put
  | delete
  | patch
  | options
  | head
  | other
  deriving DecidableEq

structure State where
  firstSeen : Nat := 0
  lastSeen : Nat := 0
  requestCount : Nat := 0
  paths : List UInt64 := []
  intervals : List Nat := []
  methods : Method → Nat := fun _ => 0
  uas : List UInt64 := []

structure BehaviorTracker where
  byIp : HashMap IpAddr State := ∅
  lastGc : Nat := 0

def methodIndex (m : Str) : Method :=
  match String.ofList (toAsciiUpper m) with
  | "GET" => .get
  | "POST" => .post
  | "PUT" => .put
  | "DELETE" => .delete
  | "PATCH" => .patch
  | "OPTIONS" => .options
  | "HEAD" => .head
  | _ => .other

/-- Add to a bounded set, dropping the oldest element. -/
def insertCapped (cap : Nat) (xs : List UInt64) (x : UInt64) : List UInt64 :=
  if x ∈ xs then xs else pushCapped cap xs x

/-- The state after a request: the window is reset when the address has been idle for all of it. -/
def State.update (s : State) (path method ua : Str) (nowMs : Nat) : State :=
  let now := nowMs / 1000
  let s := if WINDOW_SECS < now - s.lastSeen then {} else s
  let delta := (nowMs - s.lastSeen * 1000) % 2 ^ 32
  let mi := methodIndex method
  { firstSeen := if s.firstSeen = 0 then now else s.firstSeen
    lastSeen := now
    requestCount := satAdd32 s.requestCount 1
    paths := insertCapped PATHS_CAP s.paths (fnv64 (utf8 path))
    intervals := if s.lastSeen = 0 then s.intervals else pushCapped INTERVAL_CAP s.intervals delta
    methods := Function.update s.methods mi (satAdd32 (s.methods mi) 1)
    uas := if ua.isEmpty then s.uas else insertCapped UA_CAP s.uas (fnv64 (utf8 ua)) }

/-- A 32-bit number as a float. -/
def asF32 (n : Nat) : Float32 := (UInt32.ofNat n).toFloat32

def sumF32 (xs : List Float32) : Float32 := xs.foldl (· + ·) 0

/-- The value of a finite float that is not negative. -/
def f32Value (x : Float32) : ℚ :=
  let bits : Nat := x.toBits.toNat
  let mantissa : Nat := bits % 2 ^ 23
  let exponent : Nat := bits / 2 ^ 23 % 2 ^ 8
  if exponent = 0 then mantissa / 2 ^ 149
  else (mantissa + 2 ^ 23) * 2 ^ exponent / 2 ^ 150

/-- The nearest whole number, ties to even. -/
def roundHalfEven (q : ℚ) : Nat :=
  let n := q.floor.toNat
  if q - n < 1 / 2 then n else if 1 / 2 < q - n then n + 1 else n + n % 2

/-- `format!("{x:.digits$}")` of a finite float that is not negative. -/
def fmtF32 (digits : Nat) (x : Float32) : Str :=
  let n := roundHalfEven (f32Value x * 10 ^ digits)
  let whole := dec (n / 10 ^ digits)
  if digits = 0 then whole
  else
    let rest := dec (n % 10 ^ digits)
    whole ++ '.' :: (List.replicate (digits - rest.length) '0' ++ rest)

/-- Mean and coefficient of variation. -/
def regularity (intervals : List Nat) : Float32 × Float32 :=
  let n := asF32 intervals.length
  let mean := sumF32 (intervals.map asF32) / n
  let var := sumF32 (intervals.map fun v => (asF32 v - mean) * (asF32 v - mean)) / n
  (mean, var.sqrt / mean)

def State.score (s : State) : List DecisionReason :=
  let count := s.requestCount
  let (mean, cv) := regularity s.intervals
  let opt := (s.methods .options + s.methods .head) % 2 ^ 32
  fire (30 ≤ count && s.paths.length < 3)
      ⟨"BHV-LOWDIV", "behavior", W_LOW_DIVERSITY,
        dec count ++ " requests on " ++ dec s.paths.length ++ " unique paths in window"⟩
    ++ fire (8 ≤ s.intervals.length && 5.0 < mean && cv < 0.15 && 15 ≤ count)
      ⟨"BHV-REGULAR", "behavior", W_REGULAR_INTERVAL,
        "interval cv=" ++ fmtF32 2 cv ++ " mean=" ++ fmtF32 0 mean ++ "ms n="
          ++ dec s.intervals.length⟩
    ++ fire (25 ≤ count && 0.9 ≤ asF32 opt / asF32 count)
      ⟨"BHV-METHOD-BIAS", "behavior", W_METHOD_FLOOD,
        dec (opt * 100 % 2 ^ 32 / max count 1) ++ "% OPTIONS+HEAD of " ++ dec count
          ++ " requests"⟩
    ++ fire (3 ≤ s.uas.length)
      ⟨"BHV-UA-CHURN", "behavior", W_UA_CHURN,
        dec s.uas.length ++ " distinct User-Agents from same IP"⟩

def BehaviorTracker.gc (t : BehaviorTracker) (now : Nat) : BehaviorTracker :=
  { t with byIp := t.byIp.retain fun _ s => now - s.lastSeen ≤ WINDOW_SECS * 2 }

def BehaviorTracker.observe (t : BehaviorTracker) (ip : IpAddr) (path method ua : Str)
    (nowMs : Nat) : List DecisionReason × BehaviorTracker :=
  let now := nowMs / 1000
  let t := if 30 < now - t.lastGc then { t.gc now with lastGc := now } else t
  let s := ((t.byIp.lookup ip).getD {}).update path method ua nowMs
  (s.score, { t with byIp := t.byIp.insert ip s })

end Behavior

/-! ## Subnets -/

namespace Subnet

def W_SUBNET_FLOOD : Nat := 80
def W_SUBNET_CONN : Nat := 70

structure SubnetTracker where
  counters : HashMap Nat Counter := ∅
  inFlight : HashMap Nat Int := ∅
  lastGc : Nat := 0

/-- The subnet of an address as a number of 128 bits: the `/24` with the highest bit set, or the
`/64`. -/
def subnetKey : IpAddr → Nat
  | .v4 a => (a.octets.toList.take 3).foldl (fun acc o => acc * 2 ^ 8 + o.toNat) 0 + 2 ^ 127
  | .v6 a => (a.segments.toList.take 4).foldl (fun acc s => acc * 2 ^ 16 + s.toNat) 0

namespace SubnetTracker

def maybeGc (t : SubnetTracker) (now : Nat) : SubnetTracker :=
  if now - t.lastGc < 60 then t
  else
    { counters := t.counters.retain fun _ c => now - c.headSecs < 60 && 0 < c.current
      inFlight := t.inFlight.retain fun _ v => 0 < v
      lastGc := now }

def observe (t : SubnetTracker) (ip : IpAddr) (rpmCap : Nat) (connCap : Int) (now : Nat) :
    List DecisionReason × SubnetTracker :=
  let key := subnetKey ip
  let t := t.maybeGc now
  let (count, c) := ((t.counters.lookup key).getD Counter.default).hit now
  let t := { t with counters := t.counters.insert key c }
  let cur : Int := (t.inFlight.lookup key).getD 0
  let reasons :=
    fire (0 < rpmCap && rpmCap < count)
        ⟨"SUBNET-RPM", "ddos", W_SUBNET_FLOOD,
          "subnet rpm=" ++ dec count ++ " cap=" ++ dec rpmCap⟩
      ++ fire (0 < connCap && connCap < cur)
        ⟨"SUBNET-CONN", "ddos", W_SUBNET_CONN,
          "subnet inflight=" ++ decInt cur ++ " cap=" ++ decInt connCap⟩
  (reasons, t)

def incInflight (t : SubnetTracker) (ip : IpAddr) : SubnetTracker :=
  { t with inFlight := t.inFlight.upsert (subnetKey ip) 0 (· + 1) }

/-- A counter that was not positive is set to zero. -/
def decInflight (t : SubnetTracker) (ip : IpAddr) : SubnetTracker :=
  { t with inFlight := t.inFlight.modify (subnetKey ip) fun v => if v ≤ 0 then 0 else v - 1 }

end SubnetTracker

end Subnet

/-! ## Signatures -/

namespace Signature

def REPLAY_WINDOW_SECS : Nat := 30
def REPLAY_THRESHOLD : Nat := 25
def W_REPLAY : Nat := 60

def UA_WINDOW_SECS : Nat := 60
def UA_THRESHOLD_IP : Nat := 8
def W_DIST_UA : Nat := 50

structure ReplayState where
  lastHash : UInt64 := 0
  count : Nat := 0
  firstSecs : Nat := 0

structure RequestReplay where
  byIp : HashMap IpAddr ReplayState := ∅
  lastGc : Nat := 0

/-- The hash of the three texts one after the other. -/
def sigHash (method path ua : Str) : UInt64 :=
  fnvFrom (fnvFrom (fnv64 (utf8 method)) (utf8 path)) (utf8 ua)

namespace RequestReplay

def maybeGc (t : RequestReplay) (now : Nat) : RequestReplay :=
  if now - t.lastGc < 30 then t
  else
    { byIp := t.byIp.retain fun _ s => now - s.firstSecs < REPLAY_WINDOW_SECS * 2
      lastGc := now }

def observe (t : RequestReplay) (ip : IpAddr) (method path ua : Str) (now : Nat) :
    List DecisionReason × RequestReplay :=
  let t := t.maybeGc now
  let h := sigHash method path ua
  let s : ReplayState := (t.byIp.lookup ip).getD {}
  if s.lastHash ≠ h ∨ REPLAY_WINDOW_SECS < now - s.firstSecs then
    ([], { t with byIp := t.byIp.insert ip ⟨h, 1, now⟩ })
  else
    let s := { s with count := satAdd32 s.count 1 }
    let reasons :=
      fire (REPLAY_THRESHOLD ≤ s.count)
        ⟨"REPLAY", "ddos", W_REPLAY,
          dec s.count ++ " repeats of same signature in " ++ dec REPLAY_WINDOW_SECS ++ "s"⟩
    (reasons, { t with byIp := t.byIp.insert ip s })

end RequestReplay

structure UaBucket where
  ips : List IpAddr := []
  firstSecs : Nat := 0

structure DistributedUa where
  byUa : HashMap UInt64 UaBucket := ∅
  lastGc : Nat := 0

namespace DistributedUa

def maybeGc (t : DistributedUa) (now : Nat) : DistributedUa :=
  if now - t.lastGc < 60 then t
  else
    { byUa := t.byUa.retain fun _ b => now - b.firstSecs < UA_WINDOW_SECS * 2
      lastGc := now }

def observe (t : DistributedUa) (ip : IpAddr) (ua : Str) (now : Nat) :
    List DecisionReason × DistributedUa :=
  if ua.isEmpty then ([], t)
  else
    let t := t.maybeGc now
    let h := fnv64 (utf8 ua)
    let b : UaBucket := (t.byUa.lookup h).getD {}
    let b := if b.firstSecs = 0 ∨ UA_WINDOW_SECS < now - b.firstSecs then ⟨[], now⟩ else b
    let b := if b.ips.length < 256 then { b with ips := b.ips.insert ip } else b
    let reasons :=
      fire (UA_THRESHOLD_IP ≤ b.ips.length)
        ⟨"DIST-UA", "ddos", W_DIST_UA,
          "UA shared by " ++ dec b.ips.length ++ " distinct IPs in " ++ dec UA_WINDOW_SECS ++ "s"⟩
    (reasons, { t with byUa := t.byUa.insert h b })

end DistributedUa

end Signature

end Waf
