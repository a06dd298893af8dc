import Waf.Engine.Alike
import Waf.Engine.Bans
import Waf.Lib.Unwinding
import Waf.Proxy.Filter

/-!
# Groups of clients are isolated

A run of the process: requests come in through `request_filter` and leave through `logging`, lookups of
crawlers end, bans are lifted, the tables are swept and the settings change, one at a time and at times
that do not decrease.

What the clients of a group are answered does not depend on the other clients (`groups_isolated`): in a
run without some or all of the events of others, every request of the group gets the outcome that it gets
in the full run, to the last score and reason. The group is one of whole subnets with user agents of its
own, because `SUBNET-RPM` and `DIST-UA` count what several addresses do, and the tables must have room,
because a full one refuses new addresses, whosever they are.
-/

namespace Waf
open Lib
open Subnet (SubnetTracker subnetKey)

namespace Groups

inductive Event where
  | request (ctx : RequestCtx)
  | leave (ip : IpAddr)
  /-- A lookup of `spawn_verify` has ended. -/
  | resolved (l : Goodbot.Lookup) (outcome : Option (Bool × Str))
  | unban (ip : IpAddr)
  /-- The sweep of the background task. -/
  | sweep
  /-- New runtime settings and traps. -/
  | configure (runtime : Runtime) (traps : List Str)

/-- The client of an event, if it is about one. -/
def Event.client : Event → Option IpAddr
  | request ctx => some ctx.clientIp
  | leave ip => some ip
  | resolved l _ => some l.ip
  | unban ip => some ip
  | sweep => none
  | configure _ _ => none

/-- One event: the outcome of a request, and the system after it. -/
def step (crates : Crates) (s : Sys) (o : Nat × Event) : Option Outcome × Sys :=
  match o.2 with
  | .request ctx =>
    let res := s.engine.requestFilter crates s.disk ctx o.1
    (some res.1, ⟨res.2.1, res.2.2⟩)
  | .leave ip => (none, ⟨s.engine.logging ip, s.disk⟩)
  | .resolved l outcome =>
    (none, ⟨{ s.engine with goodbot := s.engine.goodbot.complete l outcome (o.1 / 1000) }, s.disk⟩)
  | .unban ip => (none, s.withStore (s.store.unban ip) s.disk)
  | .sweep =>
    let e := { s.engine with
      conns := s.engine.conns.gc
      rateLimiter := s.engine.rateLimiter.gc 120 (o.1 / 1000)
      reputations := s.store.gc (o.1 / 1000) }
    (none, ⟨e, e.reputations.persist s.disk (o.1 / 1000)⟩)
  | .configure runtime traps =>
    (none, ⟨{ s.engine with runtime := runtime, honeypots := s.engine.honeypots.replace traps }, s.disk⟩)

def machine (crates : Crates) : Machine Sys (Nat × Event) (Option Outcome) := ⟨step crates⟩

/-- The events that are not those of other clients. -/
def own (g : Group) (o : Nat × Event) : Bool := o.2.client.all g.ours

/-- Where a request of the group comes in, the tables have room and the ceiling is not reached. -/
def Room (g : Group) (s : Sys) (o : Nat × Event) : Prop :=
  match o.2 with
  | .request ctx => g.ours ctx.clientIp = true → s.engine.Roomy
      ∧ s.engine.conns.inner.size ≤ ConnTracker.maxEntries ∧ s.engine.atCapacity = false
  | _ => True

/-- The user agents of requests are those of the group or not, as their addresses are. -/
def Apart (g : Group) (o : Nat × Event) : Prop :=
  match o.2 with
  | .request ctx => Engine.Apart g ctx
  | _ => True

variable {crates : Crates} {cfg : Config} {disk : Disk} {path : Str} {g : Group} {s s' : Sys}
  {e e' : Engine} {ctx : RequestCtx} {ip : IpAddr} {o : Nat × Event} {nowMs n clock : Nat}

/-! ## The counters of the subnets -/

/-- No counter holds more than `n` hits, and no number of requests in flight is negative. -/
structure Bounded (n : Nat) (t : SubnetTracker) : Prop where
  held key : Ring.held (t.entry key) ≤ n
  flying key : 0 ≤ t.flying key

variable {t : SubnetTracker}

/-- A tracker with few hits is sane. -/
lemma Bounded.sane (h : Bounded n t) (hn : n < 2 ^ 32) : t.Sane :=
  ⟨fun key => (h.held key).trans_lt hn, h.flying⟩

lemma Bounded.mono (h : Bounded n t) : Bounded (n + 1) t :=
  ⟨fun key => (h.held key).trans (Nat.le_succ n), h.flying⟩

/-- A request that comes in adds no hit. -/
lemma Bounded.inc (h : Bounded n t) : Bounded n (t.incInflight ip) where
  held := h.held
  flying key := by
    have hkey := h.flying key
    rw [SubnetTracker.flying_inc]
    split_ifs <;> omega

lemma Bounded.dec (h : Bounded n t) : Bounded n (t.decInflight ip) where
  held := h.held
  flying key := by
    have hkey := h.flying key
    rw [SubnetTracker.flying_dec]
    split_ifs <;> omega

/-- An observation adds one hit at most. -/
lemma Bounded.observe {now rpmCap : Nat} {connCap : Int} (h : Bounded n t) :
    Bounded (n + 1) (t.observe ip rpmCap connCap now).2 := by
  rw [Subnet.observe_see]
  refine ⟨fun key => ?_, fun key => ?_⟩
  · have hswept : Ring.held ((t.maybeGc now).entry key) ≤ n :=
      (Subnet.held_maybeGc_le now).trans (h.held key)
    rw [Subnet.see_entry]
    split
    case isTrue => exact Ring.held_hit_le.trans (Nat.add_le_add_right hswept 1)
    case isFalse => exact hswept.trans (Nat.le_succ n)
  · rw [SubnetTracker.see_flying, SubnetTracker.flying_maybeGc (h.flying key)]
    exact h.flying key

/-- An evaluation observes the request at most once. -/
lemma evaluate_bounded (h : Bounded n e.subnets) :
    Bounded (n + 1) (e.evaluate crates disk ctx nowMs).2.1.subnets := by
  show Bounded (n + 1) (e.pipeline crates disk ctx nowMs).2.1.subnets
  have hexit := @Engine.pipeline_exit crates e disk ctx nowMs
  generalize e.pipeline crates disk ctx nowMs = res at hexit
  cases hexit with
  | listed | crawler | trapped | overCap | hardLimits | limited | cleared | forced => exact h.mono
  | scored =>
    rw [Engine.threshold_trackers.2]
    show Bounded (n + 1) (if e.runtime.defenses.subnet then e.subnets.observe ctx.clientIp
      e.runtime.subnetRpm e.runtime.subnetConn (nowMs / 1000) else ([], e.subnets)).2
    split
    case isTrue => exact h.observe
    case isFalse => exact h.mono

/-- A step adds at most one. -/
lemma step_bounded (h : Bounded n s.engine.subnets) :
    Bounded (n + 1) (step crates s o).2.engine.subnets := by
  obtain ⟨now, event⟩ := o
  cases event with
  | request ctx =>
    show Bounded (n + 1) (s.engine.requestFilter crates s.disk ctx now).2.1.subnets
    unfold Engine.requestFilter
    split
    case isTrue => exact h.mono
    case isFalse =>
      cases internalEndpoint ctx with
      | some endpoint => exact h.inc.mono
      | none =>
        have henter : Bounded n (s.engine.enter ctx.clientIp).subnets := h.inc
        exact evaluate_bounded henter
  | leave ip => exact h.dec.mono
  | resolved | unban | sweep | configure => exact h.mono

/-! ## One event -/

/-- With room, a request of the group enters alike. -/
lemma enter_same (h : e.Alike g e' clock) (hip : g.Has ip)
    (hroom : e.conns.inner.size ≤ ConnTracker.maxEntries)
    (hroom' : e'.conns.inner.size ≤ ConnTracker.maxEntries) :
    (e.enter ip).Alike g (e'.enter ip) clock :=
  { h with
    conns := ConnTracker.inc_same h.conns hip hroom hroom'
    subnets := SubnetTracker.inc_same h.subnets }

lemma enter_other (hip : g.ours ip = false) : (e.enter ip).Alike g e clock :=
  { (Engine.Alike.refl : e.Alike g e clock) with
    conns := ConnTracker.inc_other hip
    subnets := SubnetTracker.inc_other hip }

/-- Entering keeps the tracker sane. -/
lemma enter_sane (h : e.subnets.Sane) : (e.enter ip).subnets.Sane where
  held := h.held
  flying key := by
    have hkey := h.flying key
    show 0 ≤ (e.subnets.incInflight ip).flying key
    rw [SubnetTracker.flying_inc]
    split_ifs <;> omega

/-- A request of the group has the same outcome. -/
lemma requestFilter_same (disk disk' : Disk) (h : e.Alike g e' (nowMs / 1000)) (hip : g.Has ctx.clientIp)
    (hua : Engine.Apart g ctx) (hs : e.subnets.Sane) (hs' : e'.subnets.Sane)
    (room : e.Roomy ∧ e.conns.inner.size ≤ ConnTracker.maxEntries ∧ e.atCapacity = false)
    (room' : e'.Roomy ∧ e'.conns.inner.size ≤ ConnTracker.maxEntries ∧ e'.atCapacity = false) :
    (e.requestFilter crates disk ctx nowMs).1 = (e'.requestFilter crates disk' ctx nowMs).1
      ∧ (e.requestFilter crates disk ctx nowMs).2.1.Alike g
        (e'.requestFilter crates disk' ctx nowMs).2.1 (nowMs / 1000) := by
  obtain ⟨hroom, hconns, hbelow⟩ := room
  obtain ⟨hroom', hconns', hbelow'⟩ := room'
  have henter := enter_same h hip hconns hconns'
  rw [Engine.requestFilter, Engine.requestFilter, hbelow, hbelow']
  cases internalEndpoint ctx with
  | some endpoint => exact ⟨rfl, henter⟩
  | none =>
    have hentered : (e.enter ctx.clientIp).Roomy := ⟨hroom.counters, hroom.bans⟩
    have hentered' : (e'.enter ctx.clientIp).Roomy := ⟨hroom'.counters, hroom'.bans⟩
    obtain ⟨hd, hnext⟩ := @Engine.evaluate_same g crates _ _ ctx nowMs disk disk' henter hip hua
      hentered hentered' (enter_sane hs) (enter_sane hs')
    exact ⟨congrArg Outcome.decided hd, hnext⟩

/-- A request of others leaves the engine alike, turned away or not. -/
lemma requestFilter_other (hip : g.ours ctx.clientIp = false) (hua : Engine.Apart g ctx)
    (hs : e.subnets.Sane) : (e.requestFilter crates disk ctx nowMs).2.1.Alike g e (nowMs / 1000) := by
  unfold Engine.requestFilter
  split
  case isTrue => exact .refl
  case isFalse =>
    cases internalEndpoint ctx with
    | some endpoint => exact enter_other hip
    | none => exact (Engine.evaluate_other hip hua (enter_sane hs)).trans (enter_other hip)

/-- What the unwinding asks of a step. -/
structure Fits (g : Group) (s : Sys) (o : Nat × Event) : Prop where
  sane : s.engine.subnets.Sane
  apart : Apart g o
  room : Room g s o

/-- An own event has the same answer and leaves the systems alike. -/
lemma step_same (hown : own g o = true) (hfit : Fits g s o) (hfit' : Fits g s' o)
    (h : s.engine.Alike g s'.engine (o.1 / 1000)) :
    (step crates s o).1 = (step crates s' o).1
      ∧ (step crates s o).2.engine.Alike g (step crates s' o).2.engine (o.1 / 1000) := by
  obtain ⟨now, event⟩ := o
  cases event with
  | request ctx =>
    have hip : g.Has ctx.clientIp := hown
    obtain ⟨hd, hnext⟩ := @requestFilter_same crates g _ _ ctx now s.disk s'.disk h hip hfit.apart
      hfit.sane hfit'.sane (hfit.room hip) (hfit'.room hip)
    exact ⟨congrArg some hd, hnext⟩
  | leave ip =>
    exact ⟨rfl, { h with
      conns := ConnTracker.dec_same h.conns
      subnets := SubnetTracker.dec_same h.subnets }⟩
  | resolved l outcome =>
    exact ⟨rfl, { h with goodbot := Goodbot.GoodBotVerifier.complete_same h.goodbot }⟩
  | unban ip => exact ⟨rfl, { h with reputations := h.reputations.unban }⟩
  | sweep =>
    exact ⟨rfl, { h with
      conns := ConnTracker.gc_same h.conns
      rateLimiter := h.rateLimiter.gc
      reputations := h.reputations.gc }⟩
  | configure runtime traps => exact ⟨rfl, { h with runtime := rfl, honeypots := rfl }⟩

/-- An event of others leaves the system alike. -/
lemma step_other (hown : own g o = false) (hfit : Fits g s o) :
    (step crates s o).2.engine.Alike g s.engine (o.1 / 1000) := by
  obtain ⟨now, event⟩ := o
  have hrefl : s.engine.Alike g s.engine (now / 1000) := .refl
  cases event with
  | request ctx => exact requestFilter_other hown hfit.apart hfit.sane
  | leave ip =>
    exact { hrefl with
      conns := ConnTracker.dec_other hown
      subnets := SubnetTracker.dec_other hown }
  | resolved l outcome => exact { hrefl with goodbot := Goodbot.GoodBotVerifier.complete_other hown }
  | unban ip => exact { hrefl with reputations := Reputations.unban_other hown }
  | sweep | configure => exact absurd hown (by nofun)

/-! ## Two runs -/

/-- The engines stay alike for the group, step by step. -/
lemma unwinding : Unwinding (machine crates) (own g) (fun o => o.1 / 1000) (Fits g)
    (fun s s' clock => s.engine.Alike g s'.engine clock) where
  symm h := h.symm
  trans h h' := h.trans h'
  mono h hle := h.mono hle
  other hown hfit := step_other hown hfit
  same hown hfit hfit' h := step_same hown hfit hfit' h

/-- A process starts with empty counters of subnets. -/
lemma boot_bounded (h : Sys.boot crates cfg disk path nowMs = some s) :
    Bounded 0 s.engine.subnets := by
  obtain ⟨e, he, hs⟩ := Option.bind_eq_some_iff.mp h
  obtain rfl := Option.some.inj hs
  obtain ⟨rl, -, he⟩ := Option.bind_eq_some_iff.mp he
  obtain ⟨r, -, he⟩ := Option.bind_eq_some_iff.mp he
  obtain ⟨ua, -, he⟩ := Option.bind_eq_some_iff.mp he
  obtain rfl := Option.some.inj he
  exact ⟨fun _ => le_rfl, fun _ => le_rfl⟩

/-- Every step of a run that is not too long fits. -/
lemma all_fits {events : List (Nat × Event)} (h : Bounded 0 s.engine.subnets)
    (hfew : events.length < 2 ^ 32) (hapart : ∀ o ∈ events, Apart g o)
    (hroom : (machine crates).All (Room g) s events) :
    (machine crates).All (Fits g) s events := by
  have hsane : (machine crates).All (fun s _ => s.engine.subnets.Sane) s events :=
    Machine.All.of_invariant (I := fun n s => Bounded n s.engine.subnets)
      (fun n s o hn => step_bounded hn) (fun m s o hm hlt => hm.sane (by omega)) h
  exact (hsane.and hroom).imp fun s o ho hfit => ⟨hfit.1, hapart o ho, hfit.2⟩

/-- Groups are isolated. From the start of a process, take any events at times that do not decrease, and
leave out some or all of those of other clients: as long as the tables have room where the group's
requests come in and the ceiling is not reached there, every request of the group has the same outcome in
both runs. -/
theorem groups_isolated {events events' : List (Nat × Event)} {bootMs : Nat}
    (hboot : Sys.boot crates cfg disk path bootMs = some s) (thin : Thinned (own g) events events')
    (hclock : (events.map Prod.fst).Pairwise (· ≤ ·)) (hfew : events.length < 2 ^ 32)
    (hapart : ∀ o ∈ events, Apart g o) (hroom : (machine crates).All (Room g) s events)
    (hroom' : (machine crates).All (Room g) s events') :
    (machine crates).answers (own g) s events = (machine crates).answers (own g) s events' := by
  have hstart := boot_bounded hboot
  have hsub := thin.sublist
  have hseconds : (0 :: events.map fun o => o.1 / 1000).Pairwise (· ≤ ·) := by
    refine List.pairwise_cons.mpr ⟨fun _ _ => Nat.zero_le _, ?_⟩
    refine List.pairwise_map.mpr ((List.pairwise_map.mp hclock).imp ?_)
    exact fun hle => Nat.div_le_div_right hle
  exact unwinding.answers_eq thin hseconds (all_fits hstart hfew hapart hroom)
    (all_fits hstart (hsub.length_le.trans_lt hfew) (fun o ho => hapart o (hsub.subset ho)) hroom') .refl

/-- The clients of a `/24`, with one user agent. -/
def sampleGroup : Group where
  ours ip := subnetKey ip = subnetKey Engine.sampleCtx.clientIp
  agents h := h = fnv64 (utf8 Engine.sampleCtx.userAgent)
  whole h := by rw [h]

/-- A client of another subnet, whose requests are refused. -/
def strangerCtx : RequestCtx :=
  { Engine.sampleCtx with clientIp := .v4 (.new 9 9 9 9), userAgent := "curl/8", method := "BREW" }

/-- The stranger comes, leaves and tries again before the request of the group. -/
def sampleEvents : List (Nat × Event) :=
  [(1700000001000, .request strangerCtx), (1700000001001, .leave strangerCtx.clientIp),
    (1700000002000, .request strangerCtx), (1700000003000, .request Engine.sampleCtx)]

/-- The stranger twice, and a request of the group. -/
theorem groups_isolated_witness :
    (machine idleCrates).answers (own sampleGroup) Sys.sampleSys sampleEvents
      = (machine idleCrates).answers (own sampleGroup) Sys.sampleSys
        (sampleEvents.filter (own sampleGroup)) := by
  have started : Sys.boot idleCrates Engine.sampleCfg (fun _ => none) "bans.json".toList 1700000000000
      = some Sys.sampleSys := (Option.some_get _).symm
  have apart : ∀ o ∈ sampleEvents, Apart sampleGroup o := by
    intro o ho
    simp only [sampleEvents, List.mem_cons, List.not_mem_nil, or_false] at ho
    rcases ho with rfl | rfl | rfl | rfl
    · exact fun _ => by decide
    · exact trivial
    · exact fun _ => by decide
    · exact fun _ => by decide
  have others : sampleEvents.filter (own sampleGroup) = [(1700000003000, .request Engine.sampleCtx)] :=
    rfl
  refine groups_isolated started .filter (by decide) (by decide) apart ?_ ?_
  · refine ⟨nofun, trivial, nofun, fun _ => ?_, trivial⟩
    decide
  · rw [others]
    exact ⟨fun _ => by decide, trivial⟩

end Groups

end Waf
