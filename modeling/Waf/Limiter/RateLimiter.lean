import Waf.Lib.HashMap
import Waf.Limiter.Counter
import Waf.Config

/-!
# The rate limiter

Model of `RateLimiter` in `ratelimit.rs`. A call of `check_scaled` counts the request under the key
of the first route whose pattern matches its path, if there is one, and unless the route is limited
also under the key of the client. The counters live in a table that `gc` sweeps and that refuses new
keys when it is full.
-/

namespace Waf
open Lib
open Ratelimit (Counter BUCKET_SECS)

/-- `CompiledRoute`, the regular expression being given by its `is_match`. -/
structure CompiledRoute where
  re : Str → Bool
  rpm : UInt32
  burst : UInt32

structure RateLimiter where
  enabled : Bool
  globalRpm : UInt32
  globalBurst : UInt32
  routes : List CompiledRoute
  counters : HashMap Str Counter

structure Limited where
  retryAfter : Nat
  scope : Str
  path : Str

def exceeds (count rpm burst : Nat) : Bool := satAdd32 rpm burst < count

def scaleRpm (rpm : UInt32) (scaleBps : Nat) : Nat := rpm.toNat * scaleBps / 10000 % 2 ^ 32

/-- The key `r{idx}|{ip}`. -/
def routeKey (idx : Nat) (ip : Str) : Str := 'r' :: dec idx ++ '|' :: ip

/-- The key `g|{ip}`. -/
def globalKey (ip : Str) : Str := 'g' :: '|' :: ip

namespace RateLimiter

def new (crates : Crates) (cfg : RateLimitCfg) : Option RateLimiter := do
  let routes ← cfg.routes.mapM fun r =>
    (crates.regex r.pattern).map fun re => ⟨re, r.requestsPerMinute, r.burst⟩
  return {
    enabled := cfg.enabled
    globalRpm := cfg.requestsPerMinute
    globalBurst := cfg.burst
    routes := routes
    counters := ∅ }

/-- The number of keys past which the table takes no new ones. -/
def maxKeys : Nat := 150000

def bump (rl : RateLimiter) (key : Str) (now : Nat) : Nat × RateLimiter :=
  if !rl.counters.containsKey key && maxKeys < rl.counters.size then (999999, rl)
  else
    let (count, c) := ((rl.counters.lookup key).getD Counter.default).hit now
    (count, { rl with counters := rl.counters.insert key c })

/-- The first route whose pattern matches, with its number. -/
def firstRoute (rl : RateLimiter) (path : Str) : Option (CompiledRoute × Nat) :=
  rl.routes.zipIdx.find? fun r => r.1.re path

/-- `check_scaled` after the routes: the key of the client. -/
def checkGlobal (rl : RateLimiter) (ip path : Str) (scale now : Nat) :
    Except Limited Unit × RateLimiter :=
  let (count, rl') := rl.bump (globalKey ip) now
  if exceeds count (scaleRpm rl.globalRpm scale) rl.globalBurst.toNat then
    (.error ⟨BUCKET_SECS, "global", path⟩, rl')
  else (.ok (), rl')

/-- `RateLimiter::check_scaled` at time `now`. -/
def checkScaled (rl : RateLimiter) (ip path : Str) (scaleBps now : Nat) :
    Except Limited Unit × RateLimiter :=
  if !rl.enabled then (.ok (), rl)
  else
    let scale := max scaleBps 100
    match rl.firstRoute path with
    | some (r, idx) =>
      let (count, rl') := rl.bump (routeKey idx ip) now
      if exceeds count (scaleRpm r.rpm scale) r.burst.toNat then
        (.error ⟨BUCKET_SECS, "route", path⟩, rl')
      else rl'.checkGlobal ip path scale now
    | none => rl.checkGlobal ip path scale now

def check (rl : RateLimiter) (ip path : Str) (now : Nat) : Except Limited Unit × RateLimiter :=
  rl.checkScaled ip path 10000 now

def gc (rl : RateLimiter) (maxAgeSecs now : Nat) : RateLimiter :=
  { rl with counters := rl.counters.retain fun _ c => now - c.headSecs < maxAgeSecs }

end RateLimiter

end Waf
