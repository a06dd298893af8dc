import Waf.Engine.Exits
import Waf.Limiter.Isolation
import Waf.Net.AddrText
import Waf.Signal.Floods
import Waf.Signal.Sessions
import Waf.Signal.Shared

/-!
# Engines that a group cannot tell apart

A group of clients is a set of whole subnets, with the user agents that they use. Two engines are `Alike`
for a group when they have the same settings and their tables agree on what is kept for its clients: the
counters of the rate limiter, the entries of the ban store, the requests in flight and the cached verdicts
outright, the states of the trackers up to sweeps.

A request of the group then takes the same exit in both and leaves them alike (`evaluate_same`), as long
as no table is too full to take an address. A request of other clients leaves an engine alike
(`evaluate_other`): whatever it does to the tables, it does not to the entries of the group.
-/

namespace Waf
open Lib
open Ratelimit (Counter)
open Subnet (SubnetTracker subnetKey)
open Signature (RequestReplay DistributedUa replayStates uaBuckets)
open Goodbot (GoodBotVerifier Verdict)

/-- The clients of whole subnets, and the hashes of the user agents that are theirs. -/
structure Group where
  ours : IpAddr → Bool
  agents : UInt64 → Bool
  whole : ∀ {a b}, subnetKey a = subnetKey b → ours a = ours b

variable {g : Group} {ip : IpAddr} {now : Nat}

/-- The addresses of a group. -/
abbrev Group.Has (g : Group) (ip : IpAddr) : Prop := g.ours ip = true

/-- An address is of the group or not. -/
lemma Group.not_has (h : g.ours ip = false) : ¬ g.Has ip := by
  rw [Group.Has, h]
  exact Bool.false_ne_true

/-! ## The rate limiter -/

/-- The keys under which the rate limiter counts the clients of a group. -/
def Group.Key (g : Group) (key : Str) : Prop :=
  ∃ ip, g.Has ip ∧ (key = globalKey ip.toStr ∨ ∃ idx, key = routeKey idx ip.toStr)

/-- The global key of an address of the group is one of its keys. -/
lemma key_global (h : g.Has ip) : g.Key (globalKey ip.toStr) := ⟨ip, h, .inl rfl⟩

lemma key_route (idx : Nat) (h : g.Has ip) : g.Key (routeKey idx ip.toStr) := ⟨ip, h, .inr ⟨idx, rfl⟩⟩

/-- The global key of another address is none of them. -/
lemma not_key_global (h : g.ours ip = false) : ¬ g.Key (globalKey ip.toStr) := by
  rintro ⟨ip', hip', hkey | ⟨idx, hkey⟩⟩
  · rw [IpAddr.toStr_inj (RateLimiter.globalKey_inj hkey)] at h
    exact Group.not_has h hip'
  · exact RateLimiter.routeKey_ne_globalKey hkey.symm

lemma not_key_route {idx : Nat} (h : g.ours ip = false) : ¬ g.Key (routeKey idx ip.toStr) := by
  rintro ⟨ip', hip', hkey | ⟨idx', hkey⟩⟩
  · exact RateLimiter.routeKey_ne_globalKey hkey
  · rw [IpAddr.toStr_inj (RateLimiter.routeKey_inj hkey).2] at h
    exact Group.not_has h hip'

namespace RateLimiter

structure Alike (g : Group) (rl rl' : RateLimiter) : Prop where
  enabled : rl.enabled = rl'.enabled
  globalRpm : rl.globalRpm = rl'.globalRpm
  globalBurst : rl.globalBurst = rl'.globalBurst
  routes : rl.routes = rl'.routes
  counters : rl.counters.AgreeOn g.Key rl'.counters

variable {rl rl' rl'' : RateLimiter} {key path : Str} {scale : Nat}

lemma Alike.refl : Alike g rl rl := ⟨rfl, rfl, rfl, rfl, .refl⟩

lemma Alike.symm (h : Alike g rl rl') : Alike g rl' rl :=
  ⟨h.enabled.symm, h.globalRpm.symm, h.globalBurst.symm, h.routes.symm, h.counters.symm⟩

lemma Alike.trans (h : Alike g rl rl') (h' : Alike g rl' rl'') : Alike g rl rl'' :=
  ⟨h.enabled.trans h'.enabled, h.globalRpm.trans h'.globalRpm, h.globalBurst.trans h'.globalBurst,
    h.routes.trans h'.routes, h.counters.trans h'.counters⟩

/-- A table with room counts the hit. -/
lemma bump_room (hroom : rl.counters.size ≤ maxKeys) : rl.bump key now
    = ((((rl.counters.lookup key).getD Counter.default).hit now).1,
      { rl with counters :=
          rl.counters.insert key (((rl.counters.lookup key).getD Counter.default).hit now).2 }) := by
  have hfull : (!rl.counters.containsKey key && decide (maxKeys < rl.counters.size)) = false := by
    rw [decide_eq_false (Nat.not_lt.mpr hroom), Bool.and_false]
  rw [bump, hfull]
  rfl

lemma size_bump_le : (rl.bump key now).2.counters.size ≤ rl.counters.size + 1 := by
  unfold bump
  split
  case isTrue => exact Nat.le_succ _
  case isFalse => exact HashMap.size_insert_le

/-- With room, a key of the group is counted alike. -/
lemma bump_same (now : Nat) (h : Alike g rl rl') (hkey : g.Key key) (hroom : rl.counters.size ≤ maxKeys)
    (hroom' : rl'.counters.size ≤ maxKeys) :
    (rl.bump key now).1 = (rl'.bump key now).1
      ∧ Alike g (rl.bump key now).2 (rl'.bump key now).2 := by
  rw [bump_room hroom, bump_room hroom', h.counters key hkey]
  exact ⟨rfl, { h with counters := h.counters.insert }⟩

lemma bump_other (hkey : ¬ g.Key key) : Alike g (rl.bump key now).2 rl := by
  unfold bump
  split
  case isTrue => exact .refl
  case isFalse => exact ⟨rfl, rfl, rfl, rfl, HashMap.agreeOn_insert hkey⟩

/-- The global check is a bump and a comparison. -/
lemma checkGlobal_eq {client : Str} : rl.checkGlobal client path scale now
    = (if exceeds (rl.bump (globalKey client) now).1 (scaleRpm rl.globalRpm scale) rl.globalBurst.toNat
        then .error ⟨Ratelimit.BUCKET_SECS, "global", path⟩ else .ok (),
      (rl.bump (globalKey client) now).2) := by
  cases hover : exceeds (rl.bump (globalKey client) now).1 (scaleRpm rl.globalRpm scale)
      rl.globalBurst.toNat with
  | true => exact if_pos hover
  | false => exact if_neg (Bool.eq_false_iff.mp hover)

/-- The global check of an address of the group is the same. -/
lemma checkGlobal_same (h : Alike g rl rl') (hip : g.Has ip) (hroom : rl.counters.size ≤ maxKeys)
    (hroom' : rl'.counters.size ≤ maxKeys) :
    (rl.checkGlobal ip.toStr path scale now).1 = (rl'.checkGlobal ip.toStr path scale now).1
      ∧ Alike g (rl.checkGlobal ip.toStr path scale now).2
        (rl'.checkGlobal ip.toStr path scale now).2 := by
  obtain ⟨hcount, hnext⟩ := bump_same now h (key_global hip) hroom hroom'
  rw [checkGlobal_eq, checkGlobal_eq, hcount, h.globalRpm, h.globalBurst]
  exact ⟨rfl, hnext⟩

lemma checkGlobal_other (hip : g.ours ip = false) :
    Alike g (rl.checkGlobal ip.toStr path scale now).2 rl := by
  rw [checkGlobal_eq]
  exact bump_other (not_key_global hip)

/-- The counter of the route comes first. -/
lemma checkScaled_route {client : Str} {r : CompiledRoute × Nat} (on : rl.enabled = true)
    (hroute : rl.firstRoute path = some r) : rl.checkScaled client path scale now
      = if exceeds (rl.bump (routeKey r.2 client) now).1 (scaleRpm r.1.rpm (max scale 100)) r.1.burst.toNat
        then (.error ⟨Ratelimit.BUCKET_SECS, "route", path⟩, (rl.bump (routeKey r.2 client) now).2)
        else (rl.bump (routeKey r.2 client) now).2.checkGlobal client path (max scale 100) now := by
  rw [checkScaled, on, hroute]
  rfl

/-- Without a route there is the global check only. -/
lemma checkScaled_global {client : Str} (on : rl.enabled = true) (hroute : rl.firstRoute path = none) :
    rl.checkScaled client path scale now = rl.checkGlobal client path (max scale 100) now := by
  rw [checkScaled, on, hroute]
  rfl

/-- A limiter that is off checks nothing. -/
lemma checkScaled_off {client : Str} (off : rl.enabled = false) :
    rl.checkScaled client path scale now = (.ok (), rl) := by
  rw [checkScaled, off]
  rfl

/-- A client of the group gets the same answer. A request counts under at most two keys. -/
lemma checkScaled_same (h : Alike g rl rl') (hip : g.Has ip) (hroom : rl.counters.size < maxKeys)
    (hroom' : rl'.counters.size < maxKeys) :
    (rl.checkScaled ip.toStr path scale now).1 = (rl'.checkScaled ip.toStr path scale now).1
      ∧ Alike g (rl.checkScaled ip.toStr path scale now).2
        (rl'.checkScaled ip.toStr path scale now).2 := by
  have hfirst : rl.firstRoute path = rl'.firstRoute path := by rw [firstRoute, firstRoute, h.routes]
  cases hon : rl'.enabled with
  | false =>
    rw [checkScaled_off (h.enabled.trans hon), checkScaled_off hon]
    exact ⟨rfl, h⟩
  | true =>
    cases hroute : rl'.firstRoute path with
    | none =>
      rw [checkScaled_global (h.enabled.trans hon) (hfirst.trans hroute), checkScaled_global hon hroute]
      exact checkGlobal_same h hip (Nat.le_of_lt hroom) (Nat.le_of_lt hroom')
    | some r =>
      obtain ⟨hcount, hnext⟩ := bump_same now h (key_route r.2 hip)
        (Nat.le_of_lt hroom) (Nat.le_of_lt hroom')
      rw [checkScaled_route (h.enabled.trans hon) (hfirst.trans hroute), checkScaled_route hon hroute,
        hcount]
      split
      case isTrue => exact ⟨rfl, hnext⟩
      case isFalse =>
        exact checkGlobal_same hnext hip (size_bump_le.trans hroom) (size_bump_le.trans hroom')

lemma checkScaled_other (hip : g.ours ip = false) :
    Alike g (rl.checkScaled ip.toStr path scale now).2 rl := by
  cases hon : rl.enabled with
  | false =>
    rw [checkScaled_off hon]
    exact .refl
  | true =>
    cases hroute : rl.firstRoute path with
    | none =>
      rw [checkScaled_global hon hroute]
      exact checkGlobal_other hip
    | some r =>
      rw [checkScaled_route hon hroute]
      split
      case isTrue => exact bump_other (not_key_route hip)
      case isFalse => exact (checkGlobal_other hip).trans (bump_other (not_key_route hip))

/-- Sweeps keep limiters alike. -/
lemma Alike.gc {age : Nat} (h : Alike g rl rl') : Alike g (rl.gc age now) (rl'.gc age now) :=
  { h with counters := h.counters.retain }

end RateLimiter

/-! ## The ban store -/

namespace Reputations

structure Agree (g : Group) (r r' : Reputations) : Prop where
  allow : r.allow = r'.allow
  deny : r.deny = r'.deny
  threshold : r.autoBanThreshold = r'.autoBanThreshold
  window : r.windowSecs = r'.windowSecs
  duration : r.durationSecs = r'.durationSecs
  state : r.state.AgreeOn g.Has r'.state

variable {r r' r'' : Reputations} {disk disk' : Disk} {secs : Nat}

lemma Agree.refl : Agree g r r := ⟨rfl, rfl, rfl, rfl, rfl, .refl⟩

lemma Agree.symm (h : Agree g r r') : Agree g r' r :=
  ⟨h.allow.symm, h.deny.symm, h.threshold.symm, h.window.symm, h.duration.symm, h.state.symm⟩

lemma Agree.trans (h : Agree g r r') (h' : Agree g r' r'') : Agree g r r'' :=
  ⟨h.allow.trans h'.allow, h.deny.trans h'.deny, h.threshold.trans h'.threshold,
    h.window.trans h'.window, h.duration.trans h'.duration, h.state.trans h'.state⟩

/-- Stores that agree have the same entries for the group. -/
lemma Agree.entry (h : Agree g r r') (hip : g.Has ip) : r.entry ip = r'.entry ip := by
  rw [Reputations.entry, Reputations.entry, h.state ip hip]

/-- They classify the group alike. -/
lemma classify_same (h : Agree g r r') (hip : g.Has ip) : r.classify ip now = r'.classify ip now := by
  unfold classify isBanned
  rw [h.allow, h.deny, h.state ip hip]

lemma Agree.setEntry {s : HitState} (h : Agree g r r') :
    Agree g (r.setEntry ip s) (r'.setEntry ip s) := { h with state := h.state.insert }

lemma setEntry_other {s : HitState} (hip : g.ours ip = false) : Agree g (r.setEntry ip s) r :=
  ⟨rfl, rfl, rfl, rfl, rfl, HashMap.agreeOn_insert (Group.not_has hip)⟩

/-- A table with room is not full for any address. -/
lemma full_room (hroom : r.state.size ≤ maxEntries) : r.full ip = false := by
  rw [full, decide_eq_false (Nat.not_lt.mpr hroom), Bool.and_false]

/-- With room, stores that agree track the same addresses. -/
lemma tracked_same (ip : IpAddr) (h : Agree g r r') (hroom : r.state.size ≤ maxEntries)
    (hroom' : r'.state.size ≤ maxEntries) : r.tracked ip = r'.tracked ip := by
  rw [tracked, tracked, h.allow, full_room hroom, full_room hroom']

/-- An offence of the group keeps stores in agreement. -/
lemma recordOffence_same (disk disk' : Disk) (now : Nat) (h : Agree g r r') (hip : g.Has ip)
    (hroom : r.state.size ≤ maxEntries) (hroom' : r'.state.size ≤ maxEntries) :
    Agree g (r.recordOffence disk ip now).2.1 (r'.recordOffence disk' ip now).2.1 := by
  have htracked := tracked_same ip h hroom hroom'
  cases ht : r'.tracked ip with
  | false =>
    rw [recordOffence_untracked (htracked.trans ht), recordOffence_untracked ht]
    exact h
  | true =>
    have hbans : r.bansNow ip now ↔ r'.bansNow ip now := by
      rw [bansNow, bansNow, h.threshold, h.window, h.entry hip]
    have hnote : (r.entry ip).offend r.windowSecs now = (r'.entry ip).offend r'.windowSecs now := by
      rw [h.window, h.entry hip]
    by_cases hb : r'.bansNow ip now
    case pos =>
      rw [recordOffence_ban (htracked.trans ht) (hbans.mpr hb), recordOffence_ban ht hb, newBan, newBan,
        hnote, h.duration]
      exact h.setEntry
    case neg =>
      rw [recordOffence_note (htracked.trans ht) fun hb' => hb (hbans.mp hb'), recordOffence_note ht hb,
        hnote]
      exact h.setEntry

lemma recordOffence_other (hip : g.ours ip = false) : Agree g (r.recordOffence disk ip now).2.1 r := by
  rcases @recordOffence_writes r disk ip now with hr | ⟨s, hr⟩
  · rw [hr]
    exact .refl
  · rw [hr]
    exact setEntry_other hip

lemma forceBan_same (disk disk' : Disk) (secs now : Nat) (h : Agree g r r') (hip : g.Has ip)
    (hroom : r.state.size ≤ maxEntries) (hroom' : r'.state.size ≤ maxEntries) :
    Agree g (r.forceBan disk ip secs now).2.1 (r'.forceBan disk' ip secs now).2.1 := by
  have htracked := tracked_same ip h hroom hroom'
  cases ht : r'.tracked ip with
  | false =>
    rw [forceBan_untracked (htracked.trans ht), forceBan_untracked ht]
    exact h
  | true =>
    have hforced : r.forced ip secs now = r'.forced ip secs now := by
      rw [forced, forced, h.threshold, h.entry hip]
    rw [forceBan_tracked (htracked.trans ht), forceBan_tracked ht, hforced]
    exact h.setEntry

lemma forceBan_other (hip : g.ours ip = false) : Agree g (r.forceBan disk ip secs now).2.1 r := by
  rcases @forceBan_writes r disk ip secs now with hr | ⟨s, hr⟩
  · rw [hr]
    exact .refl
  · rw [hr]
    exact setEntry_other hip

/-- An unban keeps stores in agreement. -/
lemma Agree.unban (h : Agree g r r') : Agree g (r.unban ip) (r'.unban ip) :=
  { h with state := h.state.modify }

lemma unban_other (hip : g.ours ip = false) : Agree g (r.unban ip) r :=
  ⟨rfl, rfl, rfl, rfl, rfl, HashMap.agreeOn_modify (Group.not_has hip)⟩

/-- Sweeps keep stores in agreement. -/
lemma Agree.gc (h : Agree g r r') : Agree g (r.gc now) (r'.gc now) := by
  refine { h with state := ?_ }
  rw [Reputations.gc, Reputations.gc, h.window]
  exact h.state.retain

end Reputations

/-! ## Requests in flight and crawlers -/

namespace ConnTracker

def Alike (g : Group) (t t' : ConnTracker) : Prop := t.inner.AgreeOn g.Has t'.inner

variable {t t' : ConnTracker}

/-- The group has the same requests in flight. -/
lemma current_same (h : Alike g t t') (hip : g.Has ip) : t.current ip = t'.current ip := by
  rw [current, current, HashMap.get, HashMap.get, h ip hip]

/-- With room, a request of the group is counted alike. -/
lemma inc_same (h : Alike g t t') (hip : g.Has ip) (hroom : t.inner.size ≤ maxEntries)
    (hroom' : t'.inner.size ≤ maxEntries) : Alike g (t.inc ip).2 (t'.inc ip).2 := by
  unfold inc HashMap.get
  rw [h ip hip, if_neg (Nat.not_lt.mpr hroom), if_neg (Nat.not_lt.mpr hroom')]
  cases t'.inner.lookup ip with
  | some v => exact HashMap.AgreeOn.insert h
  | none => exact HashMap.AgreeOn.insert h

lemma inc_other (hip : g.ours ip = false) : Alike g (t.inc ip).2 t := by
  unfold inc
  cases t.inner.get ip with
  | some v => exact HashMap.agreeOn_insert (Group.not_has hip)
  | none =>
    simp only
    split
    case isTrue => exact .refl
    case isFalse => exact HashMap.agreeOn_insert (Group.not_has hip)

/-- A request that leaves keeps the trackers alike. -/
lemma dec_same (h : Alike g t t') : Alike g (t.dec ip) (t'.dec ip) := HashMap.AgreeOn.modify h

lemma dec_other (hip : g.ours ip = false) : Alike g (t.dec ip) t :=
  HashMap.agreeOn_modify (Group.not_has hip)

/-- Sweeps keep the trackers alike. -/
lemma gc_same (h : Alike g t t') : Alike g t.gc t'.gc := HashMap.AgreeOn.retain h

end ConnTracker

namespace Goodbot.GoodBotVerifier

def Alike (g : Group) (v v' : GoodBotVerifier) : Prop := v.cache.AgreeOn g.Has v'.cache

variable {v v' : GoodBotVerifier} {ua : Str} {l : Lookup} {outcome : Option (Bool × Str)}

/-- The crawlers of the group are classified alike. -/
lemma classify_same (h : Alike g v v') (hip : g.Has ip) :
    (v.classify ip ua now).1 = (v'.classify ip ua now).1
      ∧ Alike g (v.classify ip ua now).2 (v'.classify ip ua now).2 := by
  have hlive : v.live ip now = v'.live ip now := by
    rw [live, live, HashMap.get, HashMap.get, h ip hip]
  unfold classify
  rw [hlive]
  split
  case isTrue => exact ⟨rfl, h⟩
  case isFalse =>
    cases claimedBot ua with
    | none => exact ⟨rfl, h⟩
    | some bot =>
      cases v'.live ip now with
      | none => exact ⟨rfl, HashMap.AgreeOn.insert h⟩
      | some e =>
        cases hs : e.state with
        | pending | verified | rejected =>
          simp only [hs]
          exact ⟨trivial, h⟩

lemma classify_other (hip : g.ours ip = false) : Alike g (v.classify ip ua now).2 v := by
  unfold classify
  split
  case isTrue => exact .refl
  case isFalse =>
    cases claimedBot ua with
    | none => exact .refl
    | some bot =>
      cases v.live ip now with
      | none => exact HashMap.agreeOn_insert (Group.not_has hip)
      | some e =>
        cases hs : e.state with
        | pending | verified | rejected =>
          simp only [hs]
          exact HashMap.AgreeOn.refl

/-- A completed lookup keeps the verifiers alike. -/
lemma complete_same (h : Alike g v v') : Alike g (v.complete l outcome now) (v'.complete l outcome now) :=
  HashMap.AgreeOn.insert h

lemma complete_other (hip : g.ours l.ip = false) : Alike g (v.complete l outcome now) v :=
  HashMap.agreeOn_insert (Group.not_has hip)

end Goodbot.GoodBotVerifier

/-! ## The trackers -/

namespace Behavior.BehaviorTracker

variable {t t' : BehaviorTracker} {path method ua : Str} {nowMs : Nat}

/-- The behaviour of the group is observed alike. -/
lemma observe_same (path method ua : Str) (h : states.AlikeOn g.Has t t' (nowMs / 1000)) (hip : g.Has ip) :
    (t.observe ip path method ua nowMs).1 = (t'.observe ip path method ua nowMs).1
      ∧ states.AlikeOn g.Has (t.observe ip path method ua nowMs).2
        (t'.observe ip path method ua nowMs).2 (nowMs / 1000) := by
  have hv : states.AlikeOn g.Has t t' (states.time ⟨path, method, ua, nowMs⟩) := h
  exact ⟨congrArg State.score (hv ip hip).step.1, hv.see⟩

lemma observe_other (hip : g.ours ip = false) :
    states.AlikeOn g.Has (t.observe ip path method ua nowMs).2 t (nowMs / 1000) :=
  SweptTable.alikeOn_see (M := states) (x := ⟨path, method, ua, nowMs⟩) (Group.not_has hip)

end Behavior.BehaviorTracker

namespace Signature

variable {t t' : RequestReplay} {d d' : DistributedUa} {method path ua : Str}

/-- Repeated requests of the group are counted alike. -/
lemma replay_same (method path ua : Str) (h : replayStates.AlikeOn g.Has t t' now) (hip : g.Has ip) :
    (t.observe ip method path ua now).1 = (t'.observe ip method path ua now).1
      ∧ replayStates.AlikeOn g.Has (t.observe ip method path ua now).2
        (t'.observe ip method path ua now).2 now := by
  have hq : replayStates.AlikeOn g.Has t t' (replayStates.time ⟨method, path, ua, now⟩) := h
  have hstep : ((t.maybeGc now).entry ip).observe ⟨method, path, ua, now⟩
      = ((t'.maybeGc now).entry ip).observe ⟨method, path, ua, now⟩ := (hq ip hip).step.1
  have hreasons : (t.observe ip method path ua now).1 = (t'.observe ip method path ua now).1 := by
    rw [observe_eq (q := ⟨method, path, ua, now⟩) rfl, observe_eq (q := ⟨method, path, ua, now⟩) rfl,
      hstep]
  exact ⟨hreasons, hq.see⟩

lemma replay_other (hip : g.ours ip = false) :
    replayStates.AlikeOn g.Has (t.observe ip method path ua now).2 t now :=
  SweptTable.alikeOn_see (M := replayStates) (x := ⟨method, path, ua, now⟩) (Group.not_has hip)

/-- The hashes of the user agents of a group. -/
abbrev agentOf (g : Group) (h : UInt64) : Prop := g.agents h = true

/-- The user agents of the group are counted alike. -/
lemma distUa_same (ip : IpAddr) (h : uaBuckets.AlikeOn (agentOf g) d d' now) (hua : ua ≠ [])
    (hours : g.agents (fnv64 (utf8 ua)) = true) :
    (d.observe ip ua now).1 = (d'.observe ip ua now).1
      ∧ uaBuckets.AlikeOn (agentOf g) (d.observe ip ua now).2 (d'.observe ip ua now).2 now := by
  have hu : uaBuckets.AlikeOn (agentOf g) d d' (uaBuckets.time (ip, now)) := h
  have hstep : ((d.maybeGc now).entry (fnv64 (utf8 ua))).collect (ip, now)
      = ((d'.maybeGc now).entry (fnv64 (utf8 ua))).collect (ip, now) := (hu _ hours).step.1
  have hd := observe_ua (t := d) (ip, now) hua
  have hd' := observe_ua (t := d') (ip, now) hua
  rw [show d.observe ip ua now = _ from hd, show d'.observe ip ua now = _ from hd']
  exact ⟨by rw [hstep], hu.see⟩

lemma distUa_other (hua : ua ≠ []) (hours : g.agents (fnv64 (utf8 ua)) = false) :
    uaBuckets.AlikeOn (agentOf g) (d.observe ip ua now).2 d now := by
  rw [show d.observe ip ua now = _ from observe_ua (t := d) (ip, now) hua]
  refine SweptTable.alikeOn_see (M := uaBuckets) (x := (ip, now)) ?_
  rw [agentOf, hours]
  exact Bool.false_ne_true

end Signature

namespace Subnet.SubnetTracker

/-- The subnets of a group. -/
def Of (g : Group) (key : Nat) : Prop := ∃ ip, g.Has ip ∧ subnetKey ip = key

/-- The subnet of another address is none of the group. -/
lemma not_of (hip : g.ours ip = false) : ¬ Of g (subnetKey ip) := by
  rintro ⟨ip', hip', hkey⟩
  rw [Group.Has, g.whole hkey] at hip'
  exact Group.not_has hip hip'

/-- The requests in flight of a subnet. -/
def flying (t : SubnetTracker) (key : Nat) : Int := (t.inFlight.lookup key).getD 0

/-- No counter wraps and no number of requests in flight is negative. -/
structure Sane (t : SubnetTracker) : Prop where
  held key : Ring.held (t.entry key) < 2 ^ 32
  flying key : 0 ≤ t.flying key

structure Alike (g : Group) (t t' : SubnetTracker) (clock : Nat) : Prop where
  counters key : Of g key → Subnet.Alike (t.entry key) (t'.entry key) clock
  flying key : Of g key → t.flying key = t'.flying key

variable {t t' t'' : SubnetTracker} {key clock rpmCap : Nat} {connCap : Int}

/-- A tracker is like itself. -/
lemma Alike.refl : Alike g t t clock := ⟨fun _ _ => .refl, fun _ _ => rfl⟩

lemma Alike.symm (h : Alike g t t' clock) : Alike g t' t clock :=
  ⟨fun key hkey => (h.counters key hkey).symm, fun key hkey => (h.flying key hkey).symm⟩

lemma Alike.trans (h : Alike g t t' clock) (h' : Alike g t' t'' clock) : Alike g t t'' clock :=
  ⟨fun key hkey => (h.counters key hkey).trans (h'.counters key hkey),
    fun key hkey => (h.flying key hkey).trans (h'.flying key hkey)⟩

lemma Alike.mono (h : Alike g t t' clock) (hnow : clock ≤ now) : Alike g t t' now :=
  { h with counters := fun key hkey => (h.counters key hkey).mono hnow }

/-- A sweep drops numbers that are zero. -/
lemma flying_maybeGc (h : 0 ≤ t.flying key) : (t.maybeGc now).flying key = t.flying key := by
  rw [maybeGc]
  split
  case isTrue => rfl
  case isFalse =>
    show ((t.inFlight.retain _).lookup key).getD 0 = (t.inFlight.lookup key).getD 0
    rw [flying] at h
    rw [HashMap.lookup_retain]
    cases hv : t.inFlight.lookup key with
    | none => rfl
    | some v =>
      rw [hv, Option.getD_some] at h
      rw [Option.filter_some, Option.getD_some]
      split
      case isTrue => rfl
      case isFalse hneg =>
        rw [decide_eq_true_iff] at hneg
        show 0 = v
        omega

/-- Sweeps keep sane trackers alike. -/
lemma maybeGc_same (h : Alike g t t' now) (hs : t.Sane) (hs' : t'.Sane) :
    Alike g (t.maybeGc now) (t'.maybeGc now) now where
  counters key hkey := (alike_maybeGc (hs.held key)).trans
    ((h.counters key hkey).trans (alike_maybeGc (hs'.held key)).symm)
  flying key hkey := by
    rw [flying_maybeGc (hs.flying key), flying_maybeGc (hs'.flying key), h.flying key hkey]

/-- A request that is seen is not yet counted in flight. -/
lemma see_flying {key' : Nat} : (t.see (key', now)).flying key = (t.maybeGc now).flying key := rfl

/-- The subnets of the group are observed alike. -/
lemma observe_same (rpmCap : Nat) (connCap : Int) (h : Alike g t t' now) (hip : g.Has ip)
    (hs : t.Sane) (hs' : t'.Sane) :
    (t.observe ip rpmCap connCap now).1 = (t'.observe ip rpmCap connCap now).1
      ∧ Alike g (t.observe ip rpmCap connCap now).2 (t'.observe ip rpmCap connCap now).2 now := by
  have hof : Of g (subnetKey ip) := ⟨ip, hip, rfl⟩
  have hswept := maybeGc_same h hs hs'
  have hhit : ((t.maybeGc now).entry (subnetKey ip)).hit now
      = ((t'.maybeGc now).entry (subnetKey ip)).hit now := hswept.counters _ hof now le_rfl
  have hflying : (t.maybeGc now).flying (subnetKey ip) = (t'.maybeGc now).flying (subnetKey ip) :=
    hswept.flying _ hof
  have hobserve : ∀ t : SubnetTracker, t.observe ip rpmCap connCap now
      = (fire (0 < rpmCap && rpmCap < (((t.maybeGc now).entry (subnetKey ip)).hit now).1)
            ⟨"SUBNET-RPM", "ddos", W_SUBNET_FLOOD,
              "subnet rpm=" ++ dec (((t.maybeGc now).entry (subnetKey ip)).hit now).1
                ++ " cap=" ++ dec rpmCap⟩
          ++ fire (0 < connCap && connCap < (t.maybeGc now).flying (subnetKey ip))
            ⟨"SUBNET-CONN", "ddos", W_SUBNET_CONN,
              "subnet inflight=" ++ decInt ((t.maybeGc now).flying (subnetKey ip))
                ++ " cap=" ++ decInt connCap⟩,
        t.see (subnetKey ip, now)) := fun _ => rfl
  rw [hobserve t, hobserve t', hhit, hflying]
  refine ⟨rfl, fun key hkey => ?_, fun key hkey => ?_⟩
  · rw [see_entry, see_entry]
    split
    case isTrue heq =>
      subst heq
      rw [hhit]
      exact .refl
    case isFalse => exact hswept.counters key hkey
  · exact hswept.flying key hkey

lemma observe_other (hip : g.ours ip = false) (hs : t.Sane) :
    Alike g (t.observe ip rpmCap connCap now).2 t now := by
  rw [observe_see]
  refine ⟨fun key hkey => ?_, fun key _ => flying_maybeGc (hs.flying key)⟩
  rw [see_entry, if_neg]
  · exact alike_maybeGc (hs.held key)
  · rintro rfl
    exact not_of hip hkey

/-- A request counts in flight for its own subnet. -/
lemma flying_inc {addr : IpAddr} : (t.incInflight addr).flying key
    = if key = subnetKey addr then t.flying key + 1 else t.flying key := by
  show ((t.inFlight.upsert (subnetKey addr) 0 (· + 1)).lookup key).getD 0 = _
  rw [HashMap.upsert, HashMap.lookup_insert]
  split
  case isTrue heq =>
    subst heq
    rfl
  case isFalse => rfl

/-- It leaves its own subnet, whose count does not go below zero. -/
lemma flying_dec {addr : IpAddr} : (t.decInflight addr).flying key
    = if key = subnetKey addr then (if t.flying key ≤ 0 then 0 else t.flying key - 1)
      else t.flying key := by
  show ((t.inFlight.modify (subnetKey addr) _).lookup key).getD 0 = _
  by_cases heq : key = subnetKey addr
  case pos =>
    subst heq
    rw [HashMap.lookup_modify, if_pos rfl, flying]
    cases t.inFlight.lookup (subnetKey addr) with
    | none => rfl
    | some v => rfl
  case neg =>
    rw [HashMap.lookup_modify_ne heq, if_neg heq]
    rfl

/-- A request keeps the trackers alike. -/
lemma inc_same (h : Alike g t t' clock) : Alike g (t.incInflight ip) (t'.incInflight ip) clock where
  counters := h.counters
  flying key hkey := by rw [flying_inc, flying_inc, h.flying key hkey]

lemma dec_same (h : Alike g t t' clock) : Alike g (t.decInflight ip) (t'.decInflight ip) clock where
  counters := h.counters
  flying key hkey := by rw [flying_dec, flying_dec, h.flying key hkey]

lemma inc_other (hip : g.ours ip = false) : Alike g (t.incInflight ip) t clock where
  counters _ _ := .refl
  flying key hkey := by
    rw [flying_inc, if_neg]
    rintro rfl
    exact not_of hip hkey

lemma dec_other (hip : g.ours ip = false) : Alike g (t.decInflight ip) t clock where
  counters _ _ := .refl
  flying key hkey := by
    rw [flying_dec, if_neg]
    rintro rfl
    exact not_of hip hkey

end Subnet.SubnetTracker

/-! ## The engine -/

namespace Engine

structure Alike (g : Group) (e e' : Engine) (clock : Nat) : Prop where
  cfg : e.cfg = e'.cfg
  challenger : e.challenger = e'.challenger
  uaScanner : e.uaScanner = e'.uaScanner
  runtime : e.runtime = e'.runtime
  honeypots : e.honeypots = e'.honeypots
  bic : e.bic = e'.bic
  rateLimiter : e.rateLimiter.Alike g e'.rateLimiter
  reputations : e.reputations.Agree g e'.reputations
  conns : e.conns.Alike g e'.conns
  goodbot : e.goodbot.Alike g e'.goodbot
  behavior : Behavior.states.AlikeOn g.Has e.behavior e'.behavior clock
  subnets : e.subnets.Alike g e'.subnets clock
  replay : replayStates.AlikeOn g.Has e.replay e'.replay clock
  distUa : uaBuckets.AlikeOn (Signature.agentOf g) e.distUa e'.distUa clock

variable {crates : Crates} {e e' e'' : Engine} {disk disk' : Disk} {ctx : RequestCtx} {nowMs clock : Nat}
  {v : Verdict} {d : Decision}

/-- An engine is like itself. -/
lemma Alike.refl : Alike g e e clock :=
  ⟨rfl, rfl, rfl, rfl, rfl, rfl, .refl, .refl, .refl, .refl, .refl, .refl, .refl, .refl⟩

lemma Alike.symm (h : Alike g e e' clock) : Alike g e' e clock :=
  ⟨h.cfg.symm, h.challenger.symm, h.uaScanner.symm, h.runtime.symm, h.honeypots.symm, h.bic.symm,
    h.rateLimiter.symm, h.reputations.symm, HashMap.AgreeOn.symm h.conns, HashMap.AgreeOn.symm h.goodbot,
    h.behavior.symm, h.subnets.symm, h.replay.symm, h.distUa.symm⟩

lemma Alike.trans (h : Alike g e e' clock) (h' : Alike g e' e'' clock) : Alike g e e'' clock :=
  ⟨h.cfg.trans h'.cfg, h.challenger.trans h'.challenger, h.uaScanner.trans h'.uaScanner,
    h.runtime.trans h'.runtime, h.honeypots.trans h'.honeypots, h.bic.trans h'.bic,
    h.rateLimiter.trans h'.rateLimiter, h.reputations.trans h'.reputations,
    HashMap.AgreeOn.trans h.conns h'.conns, HashMap.AgreeOn.trans h.goodbot h'.goodbot,
    h.behavior.trans h'.behavior, h.subnets.trans h'.subnets, h.replay.trans h'.replay,
    h.distUa.trans h'.distUa⟩

/-- Engines that are alike are so later. -/
lemma Alike.mono (h : Alike g e e' clock) (hnow : clock ≤ now) : Alike g e e' now :=
  { h with
    behavior := h.behavior.mono hnow
    subnets := h.subnets.mono hnow
    replay := h.replay.mono hnow
    distUa := h.distUa.mono hnow }

/-- The tables that a decision may write take another client. -/
structure Roomy (e : Engine) : Prop where
  counters : e.rateLimiter.counters.size < RateLimiter.maxKeys
  bans : e.reputations.state.size ≤ Reputations.maxEntries

instance : Decidable e.Roomy :=
  decidable_of_iff (e.rateLimiter.counters.size < RateLimiter.maxKeys
    ∧ e.reputations.state.size ≤ Reputations.maxEntries)
    ⟨fun h => ⟨h.1, h.2⟩, fun h => ⟨h.counters, h.bans⟩⟩

/-- The user agent of a request is one of the group iff its address is. -/
def Apart (g : Group) (ctx : RequestCtx) : Prop :=
  ctx.userAgent ≠ [] → g.agents (fnv64 (utf8 ctx.userAgent)) = g.ours ctx.clientIp

/-! ### Requests of the group -/

/-- The lists answer the group alike. -/
lemma listed_same (nowMs : Nat) (h : Alike g e e' clock) (hip : g.Has ctx.clientIp) :
    e.listed ctx nowMs = e'.listed ctx nowMs := by
  unfold listed
  rw [h.runtime, Reputations.classify_same h.reputations hip]

/-- The crawler check answers it alike, and keeps the engines alike. -/
lemma crawler_same (nowMs : Nat) (h : Alike g e e' clock) (hip : g.Has ctx.clientIp) :
    e.verdict ctx nowMs = e'.verdict ctx nowMs
      ∧ Alike g (e.afterCrawler ctx nowMs) (e'.afterCrawler ctx nowMs) clock := by
  have hreply : (if e.runtime.defenses.goodbot then
        e.goodbot.classify ctx.clientIp ctx.userAgent (nowMs / 1000) else (.notABot, e.goodbot)).1
      = (if e'.runtime.defenses.goodbot then
        e'.goodbot.classify ctx.clientIp ctx.userAgent (nowMs / 1000) else (.notABot, e'.goodbot)).1
      ∧ (if e.runtime.defenses.goodbot then
        e.goodbot.classify ctx.clientIp ctx.userAgent (nowMs / 1000) else (.notABot, e.goodbot)).2.Alike g
        (if e'.runtime.defenses.goodbot then
          e'.goodbot.classify ctx.clientIp ctx.userAgent (nowMs / 1000)
          else (.notABot, e'.goodbot)).2 := by
    rw [h.runtime]
    split
    case isTrue => exact Goodbot.GoodBotVerifier.classify_same h.goodbot hip
    case isFalse => exact ⟨rfl, h.goodbot⟩
  exact ⟨hreply.1, { h with goodbot := hreply.2 }⟩

/-- With room, so does the rate limiter. -/
lemma limiterReply_same (nowMs : Nat) (h : Alike g e e' clock) (hip : g.Has ctx.clientIp) (room : e.Roomy)
    (room' : e'.Roomy) : (e.limiterReply ctx nowMs).1 = (e'.limiterReply ctx nowMs).1
      ∧ (e.limiterReply ctx nowMs).2.Alike g (e'.limiterReply ctx nowMs).2 := by
  rw [limiterReply, limiterReply, h.runtime]
  split
  case isTrue => exact RateLimiter.checkScaled_same h.rateLimiter hip room.counters room'.counters
  case isFalse => exact ⟨rfl, h.rateLimiter⟩

/-- After it the engines are alike. -/
lemma afterLimiter_same (nowMs : Nat) (h : Alike g e e' clock) (hip : g.Has ctx.clientIp) (room : e.Roomy)
    (room' : e'.Roomy) :
    Alike g (e.afterLimiter ctx nowMs) (e'.afterLimiter ctx nowMs) clock :=
  { (crawler_same nowMs h hip).2 with
    rateLimiter := (limiterReply_same nowMs h hip room room').2 }

/-- A tracker that is on observes the request. -/
lemma gated {T : Type} {R : T → T → Prop} {on on' : Bool} {x x' : List DecisionReason × T} {t t' : T}
    (hon : on = on') (hoff : R t t') (h : on = true → x.1 = x'.1 ∧ R x.2 x'.2) :
    (if on then x else ([], t)).1 = (if on' then x' else ([], t')).1
      ∧ R (if on then x else ([], t)).2 (if on' then x' else ([], t')).2 := by
  subst hon
  cases on with
  | true => exact h rfl
  | false => exact ⟨rfl, hoff⟩

/-- The signals fire alike. -/
lemma signals_same (h : Alike g e e' (nowMs / 1000)) (hip : g.Has ctx.clientIp) (hua : Apart g ctx)
    (hs : e.subnets.Sane) (hs' : e'.subnets.Sane) :
    (e.signals crates ctx v nowMs).1 = (e'.signals crates ctx v nowMs).1
      ∧ Alike g (e.signals crates ctx v nowMs).2 (e'.signals crates ctx v nowMs).2 (nowMs / 1000) := by
  have hbehavior := gated (R := fun t t' => Behavior.states.AlikeOn g.Has t t' (nowMs / 1000))
    (congrArg (·.defenses.behavior) h.runtime) h.behavior
    fun _ => Behavior.BehaviorTracker.observe_same ctx.path ctx.method ctx.userAgent h.behavior hip
  have hsubnet := gated (R := fun t t' => SubnetTracker.Alike g t t' (nowMs / 1000))
    (congrArg (·.defenses.subnet) h.runtime) h.subnets
    fun _ => SubnetTracker.observe_same e.runtime.subnetRpm e.runtime.subnetConn h.subnets hip hs hs'
  have hreplay := gated (R := fun t t' => replayStates.AlikeOn g.Has t t' (nowMs / 1000))
    (congrArg (·.defenses.replay) h.runtime) h.replay
    fun _ => Signature.replay_same ctx.method ctx.path ctx.userAgent h.replay hip
  have hdistUa := gated (R := fun t t' => uaBuckets.AlikeOn (Signature.agentOf g) t t' (nowMs / 1000))
    (congrArg (fun rt : Runtime => rt.defenses.distUa && !ctx.userAgent.isEmpty) h.runtime) h.distUa
    fun hon => by
      have hne : ctx.userAgent ≠ [] := by
        intro hnil
        rw [hnil, List.isEmpty_nil, Bool.not_true, Bool.and_false] at hon
        cases hon
      exact Signature.distUa_same ctx.clientIp h.distUa hne ((hua hne).trans hip)
  have hgeo : e.geoipReason ctx = e'.geoipReason ctx := by
    rw [geoipReason, geoipReason, h.runtime, h.cfg]
  have hbic : e.hasBic crates ctx nowMs = e'.hasBic crates ctx nowMs := by
    rw [hasBic, hasBic, h.runtime, h.bic]
  rw [h.runtime] at hbehavior hsubnet hreplay hdistUa
  refine ⟨?_, { h with behavior := ?_, subnets := ?_, replay := ?_, distUa := ?_ }⟩
  · simp only [signals]
    rw [h.runtime, hbehavior.1, hsubnet.1, hreplay.1, hdistUa.1, hgeo, hbic, h.uaScanner]
  · simp only [signals]
    rw [h.runtime]
    exact hbehavior.2
  · simp only [signals]
    rw [h.runtime]
    exact hsubnet.2
  · simp only [signals]
    rw [h.runtime]
    exact hreplay.2
  · simp only [signals]
    rw [h.runtime]
    exact hdistUa.2

/-- The same signals fire on the group. -/
lemma fired_same (h : Alike g e e' (nowMs / 1000)) (hip : g.Has ctx.clientIp) (hua : Apart g ctx)
    (hs : e.subnets.Sane) (hs' : e'.subnets.Sane) :
    e.fired crates ctx nowMs = e'.fired crates ctx nowMs := by
  rw [fired, fired, (crawler_same nowMs h hip).1]
  exact (signals_same h hip hua hs hs').1

/-- After them the engines are alike. -/
lemma afterSignals_same (h : Alike g e e' (nowMs / 1000)) (hip : g.Has ctx.clientIp)
    (hua : Apart g ctx) (room : e.Roomy) (room' : e'.Roomy) (hs : e.subnets.Sane)
    (hs' : e'.subnets.Sane) :
    Alike g (e.afterSignals crates ctx nowMs) (e'.afterSignals crates ctx nowMs) (nowMs / 1000) := by
  rw [afterSignals, afterSignals, (crawler_same nowMs h hip).1]
  exact (signals_same (afterLimiter_same nowMs h hip room room') hip hua hs hs').2

/-- The thresholds decide alike. -/
lemma threshold_same (h : Alike g e e' clock) (hip : g.Has ctx.clientIp)
    (room : e.reputations.state.size ≤ Reputations.maxEntries)
    (room' : e'.reputations.state.size ≤ Reputations.maxEntries) :
    (e.threshold disk ctx d nowMs).1 = (e'.threshold disk' ctx d nowMs).1
      ∧ Alike g (e.threshold disk ctx d nowMs).2.1 (e'.threshold disk' ctx d nowMs).2.1 clock := by
  have hoffence := Reputations.recordOffence_same disk disk' (nowMs / 1000) h.reputations hip room room'
  simp only [threshold]
  rw [h.runtime]
  split
  case isTrue =>
    split
    case isTrue => exact ⟨rfl, { h with reputations := hoffence, runtime := rfl }⟩
    case isFalse => exact ⟨rfl, { h with reputations := hoffence, runtime := rfl }⟩
  case isFalse =>
    split
    case isTrue => exact ⟨rfl, h⟩
    case isFalse => exact ⟨rfl, h⟩

/-- The traps are the same. -/
lemma trapped_same (ctx : RequestCtx) (h : Alike g e e' clock) : e.trapped ctx = e'.trapped ctx := by
  rw [trapped, trapped, h.runtime, h.honeypots]

/-- The group is over its cap alike. -/
lemma overCap_same (h : Alike g e e' clock) (hip : g.Has ctx.clientIp) :
    e.overCap ctx = e'.overCap ctx := by
  rw [overCap, overCap, h.runtime, ConnTracker.current_same h.conns hip]

/-- The hard limits are the same. -/
lemma hardLimits_same (h : Alike g e e' clock) : e.hardLimits ctx = e'.hardLimits ctx := by
  rw [hardLimits, hardLimits, h.cfg]

/-- The same clearances are accepted. -/
lemma cleared_same (h : Alike g e e' clock) :
    e.cleared crates ctx nowMs = e'.cleared crates ctx nowMs := by
  rw [cleared, cleared, h.challenger]

/-! ### The exits, one by one -/

/-- A trap bans and blocks. -/
lemma pipeline_trapped {r : DecisionReason} (un : Unlisted e ctx nowMs) (hr : e.trapped ctx = some r) :
    e.pipeline crates disk ctx nowMs = (.block ctx.requestId 403 r,
      { e.afterCrawler ctx nowMs with reputations := (e.trapBan disk ctx nowMs).2.1 },
      (e.trapBan disk ctx nowMs).2.2) := by
  have hr' : (e.crawler ctx nowMs).2.trapped ctx = some r := hr
  unfold pipeline
  simp only [un.listed]
  split
  case h_1 name hv => exact absurd hv (un.crawler name)
  case h_2 =>
    simp only [hr']
    rfl

/-- Past the traps. -/
lemma pipeline_untrapped (un : Unlisted e ctx nowMs) (hr : e.trapped ctx = none) :
    e.pipeline crates disk ctx nowMs
      = match e.overCap ctx with
        | some d => (d, e.afterCrawler ctx nowMs, disk)
        | none =>
          match e.hardLimits ctx with
          | some d => (d, e.afterCrawler ctx nowMs, disk)
          | none =>
            match (e.limiterReply ctx nowMs).1 with
            | .error l => (limitDecision ctx l, (e.afterLimiter ctx nowMs).countLimited, disk)
            | .ok () =>
              if e.cleared crates ctx nowMs then
                (.allow ctx.requestId, e.afterLimiter ctx nowMs, disk)
              else if e.runtime.uamParams.forceChallenge then
                (.challenge ctx.requestId 100 [⟨"UAM-FORCE", "anti_ddos", 100,
                  "uam=" ++ e.runtime.uam.toStr ++ " forcing challenge"⟩], e.afterLimiter ctx nowMs, disk)
              else (e.afterSignals crates ctx nowMs).threshold disk ctx (e.scored crates ctx nowMs) nowMs := by
  have hr' : (e.crawler ctx nowMs).2.trapped ctx = none := hr
  unfold pipeline
  simp only [un.listed]
  split
  case h_1 name hv => exact absurd hv (un.crawler name)
  case h_2 =>
    simp only [hr']
    have hover : (e.crawler ctx nowMs).2.overCap ctx = e.overCap ctx := rfl
    have hhard : (e.crawler ctx nowMs).2.hardLimits ctx = e.hardLimits ctx := rfl
    rw [hover, hhard]
    cases hc : e.overCap ctx with
    | some d => rfl
    | none =>
      cases hl : e.hardLimits ctx with
      | some d => rfl
      | none =>
        cases hk : (e.limiterReply ctx nowMs).1 with
        | error l =>
          have hd : (e.crawler ctx nowMs).2.rateLimited ctx nowMs
              = (some (limitDecision ctx l), (e.afterLimiter ctx nowMs).countLimited) :=
            rateLimited_error hk
          simp only [hd]
        | ok =>
          have hd : (e.crawler ctx nowMs).2.rateLimited ctx nowMs
              = (none, e.afterLimiter ctx nowMs) := rateLimited_ok hk
          simp only [hd]
          rfl

/-- A request of the group takes the same exit. -/
lemma pipeline_same (disk disk' : Disk) (h : Alike g e e' (nowMs / 1000)) (hip : g.Has ctx.clientIp)
    (hua : Apart g ctx) (room : e.Roomy) (room' : e'.Roomy) (hs : e.subnets.Sane) (hs' : e'.subnets.Sane) :
    (e.pipeline crates disk ctx nowMs).1 = (e'.pipeline crates disk' ctx nowMs).1
      ∧ Alike g (e.pipeline crates disk ctx nowMs).2.1 (e'.pipeline crates disk' ctx nowMs).2.1
        (nowMs / 1000) := by
  have hlisted := listed_same nowMs h hip
  obtain ⟨hverdict, hcrawler⟩ := crawler_same nowMs h hip
  cases hl : e'.listed ctx nowMs with
  | some d =>
    rw [pipeline_listed (hlisted.trans hl), pipeline_listed hl]
    exact ⟨rfl, h⟩
  | none =>
    by_cases hbot : ∃ name, e'.verdict ctx nowMs = .goodBotVerified name
    case pos =>
      obtain ⟨name, hv⟩ := hbot
      rw [pipeline_crawler (hlisted.trans hl) (hverdict.trans hv), pipeline_crawler hl hv]
      exact ⟨rfl, hcrawler⟩
    case neg =>
      have un' : Unlisted e' ctx nowMs := ⟨hl, fun name hv => hbot ⟨name, hv⟩⟩
      have un : Unlisted e ctx nowMs :=
        ⟨hlisted.trans hl, fun name hv => hbot ⟨name, hverdict.symm.trans hv⟩⟩
      have htrapped := trapped_same ctx h
      cases hr : e'.trapped ctx with
      | some r =>
        rw [pipeline_trapped un (htrapped.trans hr), pipeline_trapped un' hr]
        refine ⟨rfl, { hcrawler with reputations := ?_ }⟩
        have hban := Reputations.forceBan_same disk disk' e'.cfg.reputation.autoBanDurationSecs
          (nowMs / 1000) h.reputations hip room.bans room'.bans
        show Reputations.Agree g (e.reputations.forceBan _ _ e.cfg.reputation.autoBanDurationSecs _).2.1 _
        rw [h.cfg]
        exact hban
      | none =>
        obtain ⟨hreply, -⟩ := limiterReply_same nowMs h hip room room'
        have hlimiter := afterLimiter_same nowMs h hip room room'
        have hscored : e.scored crates ctx nowMs = e'.scored crates ctx nowMs := by
          rw [scored, scored, fired_same h hip hua hs hs']
        rw [pipeline_untrapped un (htrapped.trans hr), pipeline_untrapped un' hr, overCap_same h hip,
          hardLimits_same h, hreply, cleared_same h, h.runtime, hscored]
        cases e'.overCap ctx with
        | some d => exact ⟨rfl, hcrawler⟩
        | none =>
          cases e'.hardLimits ctx with
          | some d => exact ⟨rfl, hcrawler⟩
          | none =>
            cases (e'.limiterReply ctx nowMs).1 with
            | error l => exact ⟨rfl, { hlimiter with rateLimiter := hlimiter.rateLimiter }⟩
            | ok =>
              simp only
              split
              case isTrue => exact ⟨rfl, hlimiter⟩
              case isFalse =>
                split
                case isTrue => exact ⟨rfl, hlimiter⟩
                case isFalse =>
                  exact threshold_same (afterSignals_same h hip hua room room' hs hs') hip room.bans
                    room'.bans

/-- A request of the group is decided alike. -/
lemma evaluate_same (disk disk' : Disk) (h : Alike g e e' (nowMs / 1000)) (hip : g.Has ctx.clientIp)
    (hua : Apart g ctx) (room : e.Roomy) (room' : e'.Roomy) (hs : e.subnets.Sane) (hs' : e'.subnets.Sane) :
    (e.evaluate crates disk ctx nowMs).1 = (e'.evaluate crates disk' ctx nowMs).1
      ∧ Alike g (e.evaluate crates disk ctx nowMs).2.1 (e'.evaluate crates disk' ctx nowMs).2.1
        (nowMs / 1000) := by
  obtain ⟨hd, hnext⟩ := @pipeline_same g crates e e' ctx nowMs disk disk' h hip hua room room' hs hs'
  exact ⟨hd, { hnext with cfg := hnext.cfg }⟩

/-! ### Requests of others -/

lemma afterCrawler_other (hip : g.ours ctx.clientIp = false) :
    Alike g (e.afterCrawler ctx nowMs) e clock := by
  have hreply : (if e.runtime.defenses.goodbot then
      e.goodbot.classify ctx.clientIp ctx.userAgent (nowMs / 1000) else (.notABot, e.goodbot)).2.Alike g
      e.goodbot := by
    split
    case isTrue => exact Goodbot.GoodBotVerifier.classify_other hip
    case isFalse => exact HashMap.AgreeOn.refl
  exact { (Alike.refl : Alike g e e clock) with goodbot := hreply }

lemma afterLimiter_other (hip : g.ours ctx.clientIp = false) :
    Alike g (e.afterLimiter ctx nowMs) e clock := by
  have hreply : (e.limiterReply ctx nowMs).2.Alike g e.rateLimiter := by
    rw [limiterReply]
    split
    case isTrue => exact RateLimiter.checkScaled_other hip
    case isFalse => exact .refl
  exact { (afterCrawler_other hip : Alike g (e.afterCrawler ctx nowMs) e clock) with
    rateLimiter := hreply }

/-- A tracker that is off keeps its state. -/
lemma gated_other {T : Type} {R : T → T → Prop} {on : Bool} {x : List DecisionReason × T} {t : T}
    (hoff : R t t) (h : on = true → R x.2 t) : R (if on then x else ([], t)).2 t := by
  cases on with
  | true => exact h rfl
  | false => exact hoff

lemma signals_other (hip : g.ours ctx.clientIp = false) (hua : Apart g ctx) (hs : e.subnets.Sane) :
    Alike g (e.signals crates ctx v nowMs).2 e (nowMs / 1000) := by
  refine { (Alike.refl : Alike g e e (nowMs / 1000)) with
    behavior := ?_, subnets := ?_, replay := ?_, distUa := ?_ }
  · exact gated_other (R := fun t t' => Behavior.states.AlikeOn g.Has t t' (nowMs / 1000)) .refl
      fun _ => Behavior.BehaviorTracker.observe_other hip
  · exact gated_other (R := fun t t' => SubnetTracker.Alike g t t' (nowMs / 1000)) .refl
      fun _ => SubnetTracker.observe_other hip hs
  · exact gated_other (R := fun t t' => replayStates.AlikeOn g.Has t t' (nowMs / 1000)) .refl
      fun _ => Signature.replay_other hip
  · refine gated_other (R := fun t t' => uaBuckets.AlikeOn (Signature.agentOf g) t t' (nowMs / 1000))
      .refl fun hon => ?_
    have hne : ctx.userAgent ≠ [] := by
      intro hnil
      rw [hnil, List.isEmpty_nil, Bool.not_true, Bool.and_false] at hon
      cases hon
    exact Signature.distUa_other hne ((hua hne).trans hip)

lemma threshold_other (hip : g.ours ctx.clientIp = false) :
    Alike g (e.threshold disk ctx d nowMs).2.1 e clock := by
  have hoffence : (e.reputations.recordOffence disk ctx.clientIp (nowMs / 1000)).2.1.Agree g
      e.reputations := Reputations.recordOffence_other hip
  simp only [threshold]
  split
  case isTrue =>
    split
    case isTrue => exact { (Alike.refl : Alike g e e clock) with reputations := hoffence }
    case isFalse => exact { (Alike.refl : Alike g e e clock) with reputations := hoffence }
  case isFalse =>
    split
    case isTrue => exact .refl
    case isFalse => exact .refl

/-- A request of others leaves the engine alike, whatever its exit. -/
lemma evaluate_other (hip : g.ours ctx.clientIp = false) (hua : Apart g ctx) (hs : e.subnets.Sane) :
    Alike g (e.evaluate crates disk ctx nowMs).2.1 e (nowMs / 1000) := by
  suffices h : Alike g (e.pipeline crates disk ctx nowMs).2.1 e (nowMs / 1000) from
    { h with cfg := h.cfg }
  have hcrawler : Alike g (e.afterCrawler ctx nowMs) e (nowMs / 1000) := afterCrawler_other hip
  have hlimiter : Alike g (e.afterLimiter ctx nowMs) e (nowMs / 1000) := afterLimiter_other hip
  have hexit := @pipeline_exit crates e disk ctx nowMs
  generalize e.pipeline crates disk ctx nowMs = res at hexit
  cases hexit with
  | listed => exact .refl
  | crawler | overCap | hardLimits => exact hcrawler
  | trapped =>
    exact { hcrawler with reputations := Reputations.forceBan_other hip }
  | limited => exact { hlimiter with rateLimiter := hlimiter.rateLimiter }
  | cleared | forced => exact hlimiter
  | scored =>
    have hsignals : Alike g (e.afterSignals crates ctx nowMs) (e.afterLimiter ctx nowMs)
        (nowMs / 1000) := signals_other hip hua hs
    exact (threshold_other hip).trans (hsignals.trans hlimiter)

end Engine

end Waf
