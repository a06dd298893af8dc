import Waf.Ban.Holds
import Waf.Engine.Allow

/-!
# Bans over whole runs

The system is the engine with the disk its ban file is on, and a run is a list of operations with the
times at which they execute, one at a time: evaluations, direct calls of the ban store, sweeps,
flushes and restarts. Everything else that the process does may change every part of the engine but
the configuration and the ban store (`elsewhere`), and so may a restart.

`ban_holds` says that a ban, once installed, blocks its address until it expires, unless the
address is unbanned or on the runtime allow list. The invariant is `Held` of the store; `step_held`
is the step lemma and `run_held` the run lemma.
-/

namespace Waf
open Lib
open Reputations (Held)

structure Sys where
  engine : Engine
  disk : Disk

namespace Sys

/-- The ban store. -/
abbrev store (s : Sys) : Reputations := s.engine.reputations

/-- The system with another ban store and disk. -/
def withStore (s : Sys) (r : Reputations) (disk : Disk) : Sys :=
  ⟨{ s.engine with reputations := r }, disk⟩

/-- What the process does. -/
inductive Op where
  | evaluate (ctx : RequestCtx)
  | recordOffence (ip : IpAddr)
  | forceBan (ip : IpAddr) (secs : Nat)
  | unban (ip : IpAddr)
  | gc
  | persist
  /-- A fresh store from the configuration reads the ban file; `rest` is the rest of the process. -/
  | restart (rest : Engine)
  | elsewhere (rest : Engine)

/-- The store that a process starts with, if the configuration is accepted. -/
def freshStore (crates : Crates) (cfg : Config) (disk : Disk) (path : Str) (now : Nat) :
    Option Reputations :=
  (Reputations.new crates cfg.reputation).map fun r => r.bindPersistFile disk path now

/-- One operation at time `nowMs`, with the ban file at `path`. -/
def apply (crates : Crates) (path : Str) (s : Sys) (nowMs : Nat) : Op → Sys
  | .evaluate ctx =>
    let res := s.engine.evaluate crates s.disk ctx nowMs
    ⟨res.2.1, res.2.2⟩
  | .recordOffence ip =>
    let res := s.store.recordOffence s.disk ip (nowMs / 1000)
    s.withStore res.2.1 res.2.2
  | .forceBan ip secs =>
    let res := s.store.forceBan s.disk ip secs (nowMs / 1000)
    s.withStore res.2.1 res.2.2
  | .unban ip => s.withStore (s.store.unban ip) s.disk
  | .gc => s.withStore (s.store.gc (nowMs / 1000)) s.disk
  | .persist => s.withStore s.store (s.store.persist s.disk (nowMs / 1000))
  | .restart rest =>
    match freshStore crates s.engine.cfg s.disk path (nowMs / 1000) with
    | some r => ⟨{ rest with cfg := s.engine.cfg, reputations := r }, s.disk⟩
    | none => s
  | .elsewhere rest => ⟨{ rest with cfg := s.engine.cfg, reputations := s.store }, s.disk⟩

/-- Timed operations in order. -/
def run (crates : Crates) (path : Str) (s : Sys) (ops : List (Nat × Op)) : Sys :=
  ops.foldl (fun s o => s.apply crates path o.1 o.2) s

/-- A process that has just started. -/
def boot (crates : Crates) (cfg : Config) (disk : Disk) (path : Str) (nowMs : Nat) : Option Sys := do
  let e ← Engine.build crates cfg
  return ⟨{ e with reputations := e.reputations.bindPersistFile disk path (nowMs / 1000) }, disk⟩

/-- The operation installs a ban of the address: a call of the store returns true, or an evaluation
leaves the address banned that was not. -/
def Bans (crates : Crates) (path : Str) (s : Sys) (nowMs : Nat) (ip : IpAddr) : Op → Prop
  | .recordOffence ip' => ip' = ip ∧ (s.store.recordOffence s.disk ip (nowMs / 1000)).1 = true
  | .forceBan ip' secs => ip' = ip ∧ (s.store.forceBan s.disk ip secs (nowMs / 1000)).1 = true
  | .evaluate ctx => ctx.clientIp = ip ∧ s.store.isBanned ip (nowMs / 1000) = false
    ∧ (s.apply crates path nowMs (.evaluate ctx)).store.isBanned ip (nowMs / 1000) = true
  | _ => False

variable {crates : Crates} {cfg : Config} {disk : Disk} {path : Str} {s : Sys} {ip : IpAddr}
  {nowMs T : Nat} {op : Op}

/-! ## The configuration -/

/-- What an evaluation does to the store: nothing, or one call for the address of the request. -/
lemma evaluate_store {e : Engine} {ctx : RequestCtx} :
    let res := e.evaluate crates disk ctx nowMs
    res.2.1.cfg = e.cfg ∧
      ((res.2.1.reputations = e.reputations ∧ res.2.2 = disk)
      ∨ (∃ secs, res.2.1.reputations
            = (e.reputations.forceBan disk ctx.clientIp secs (nowMs / 1000)).2.1
          ∧ res.2.2 = (e.reputations.forceBan disk ctx.clientIp secs (nowMs / 1000)).2.2)
      ∨ (res.2.1.reputations = (e.reputations.recordOffence disk ctx.clientIp (nowMs / 1000)).2.1
          ∧ res.2.2 = (e.reputations.recordOffence disk ctx.clientIp (nowMs / 1000)).2.2)) := by
  have hexit := @Engine.pipeline_exit crates e disk ctx nowMs
  simp only [Engine.evaluate, Engine.finalize]
  generalize e.pipeline crates disk ctx nowMs = res at hexit
  cases hexit with
  | listed | crawler | overCap | hardLimits | limited | cleared | forced =>
    exact ⟨rfl, .inl ⟨rfl, rfl⟩⟩
  | trapped => exact ⟨rfl, .inr (.inl ⟨_, rfl, rfl⟩)⟩
  | scored =>
    simp only [Engine.threshold]
    split
    case isTrue =>
      split
      case isTrue => exact ⟨rfl, .inr (.inr ⟨rfl, rfl⟩)⟩
      case isFalse => exact ⟨rfl, .inr (.inr ⟨rfl, rfl⟩)⟩
    case isFalse =>
      split
      case isTrue => exact ⟨rfl, .inl ⟨rfl, rfl⟩⟩
      case isFalse => exact ⟨rfl, .inl ⟨rfl, rfl⟩⟩

/-- The store has the allow list of the configuration and the path of the ban file. -/
structure Configured (crates : Crates) (cfg : Config) (path : Str) (s : Sys) : Prop where
  config : s.engine.cfg = cfg
  lists : ∃ r, Reputations.new crates cfg.reputation = some r ∧ s.store.allow = r.allow
  bound : s.store.persistPath = some path

/-- A change of the store that keeps what is set once keeps the system configured. -/
lemma Configured.of_static {s' : Sys} (h : Configured crates cfg path s)
    (hcfg : s'.engine.cfg = s.engine.cfg)
    (hs : s'.store.allow = s.store.allow ∧ s'.store.persistPath = s.store.persistPath) :
    Configured crates cfg path s' := by
  obtain ⟨r, hr, hallow⟩ := h.lists
  exact ⟨hcfg.trans h.config, ⟨r, hr, hs.1.trans hallow⟩, hs.2.trans h.bound⟩

/-- A restart finds the configuration accepted, with the same allow list. -/
lemma Configured.freshStore (h : Configured crates cfg path s) (nowMs : Nat) :
    ∃ r, Reputations.new crates cfg.reputation = some r ∧ s.store.allow = r.allow
      ∧ Sys.freshStore crates s.engine.cfg s.disk path (nowMs / 1000)
        = some (r.bindPersistFile s.disk path (nowMs / 1000)) := by
  obtain ⟨r, hr, hallow⟩ := h.lists
  refine ⟨r, hr, hallow, ?_⟩
  rw [Sys.freshStore, h.config, hr]
  rfl

/-- An operation keeps what is configured. -/
lemma Configured.step (h : Configured crates cfg path s) :
    Configured crates cfg path (s.apply crates path nowMs op) := by
  cases op with
  | evaluate ctx =>
    obtain ⟨hcfg, ⟨hr, -⟩ | ⟨secs, hr, -⟩ | ⟨hr, -⟩⟩ :=
      @evaluate_store crates s.disk nowMs s.engine ctx
    · exact h.of_static hcfg ⟨congrArg _ hr, congrArg _ hr⟩
    · refine h.of_static hcfg ?_
      simp only [apply, store, hr]
      exact Reputations.forceBan_static
    · refine h.of_static hcfg ?_
      simp only [apply, store, hr]
      exact Reputations.recordOffence_static
  | recordOffence ip => exact h.of_static rfl Reputations.recordOffence_static
  | forceBan ip secs => exact h.of_static rfl Reputations.forceBan_static
  | unban | gc | persist | elsewhere => exact h.of_static rfl ⟨rfl, rfl⟩
  | restart rest =>
    obtain ⟨r, hr, -, hfresh⟩ := h.freshStore nowMs
    simp only [apply, hfresh]
    exact ⟨h.config, ⟨r, hr, rfl⟩, rfl⟩

lemma Configured.run {ops : List (Nat × Op)} (h : Configured crates cfg path s) :
    Configured crates cfg path (s.run crates path ops) := by
  induction ops generalizing s with
  | nil => exact h
  | cons o ops ih => exact ih h.step

/-- A process starts configured. -/
lemma boot_configured (h : boot crates cfg disk path nowMs = some s) :
    Configured crates cfg path s := by
  obtain ⟨e, he, hs⟩ := Option.bind_eq_some_iff.mp h
  obtain rfl := Option.some.inj hs
  obtain ⟨rl, -, he⟩ := Option.bind_eq_some_iff.mp he
  obtain ⟨r, hr, he⟩ := Option.bind_eq_some_iff.mp he
  obtain ⟨ua, -, he⟩ := Option.bind_eq_some_iff.mp he
  obtain rfl := Option.some.inj he
  exact ⟨rfl, ⟨r, hr, rfl⟩, rfl⟩

/-! ## The invariant -/

/-- A ban that runs is kept by every operation but its unban. -/
lemma step_held (hc : Configured crates cfg path s) (h : Held s.store s.disk path ip T)
    (hop : op ≠ .unban ip) (hnow : nowMs / 1000 < T) :
    Held (s.apply crates path nowMs op).store (s.apply crates path nowMs op).disk path ip T := by
  cases op with
  | evaluate ctx =>
    obtain ⟨-, ⟨hr, hd⟩ | ⟨secs, hr, hd⟩ | ⟨hr, hd⟩⟩ :=
      @evaluate_store crates s.disk nowMs s.engine ctx
    · simp only [apply, store, hr, hd]
      exact h
    · simp only [apply, store, hr, hd]
      exact h.forceBan hnow
    · simp only [apply, store, hr, hd]
      exact h.recordOffence hnow
  | recordOffence ip' => exact h.recordOffence hnow
  | forceBan ip' secs => exact h.forceBan hnow
  | unban ip' =>
    apply h.unban
    rintro rfl
    exact hop rfl
  | gc => exact h.gc hnow
  | persist => exact h.persist hnow
  | restart rest =>
    obtain ⟨r, -, hallow, hfresh⟩ := hc.freshStore nowMs
    simp only [apply, hfresh]
    exact Reputations.held_restart (hallow ▸ h.notAllowed) hnow h.file
  | elsewhere rest => exact h

lemma run_held {ops : List (Nat × Op)} (hc : Configured crates cfg path s)
    (h : Held s.store s.disk path ip T) (hops : ∀ o ∈ ops, o.2 ≠ .unban ip ∧ o.1 / 1000 < T) :
    Held (s.run crates path ops).store (s.run crates path ops).disk path ip T := by
  induction ops generalizing s with
  | nil => exact h
  | cons o ops ih =>
    obtain ⟨hop, hnow⟩ := hops o (.head _)
    exact ih hc.step (step_held hc h hop hnow) fun o' ho' => hops o' (.tail _ ho')

/-- An operation that installs a ban leaves one that holds. -/
lemma bans_held (hc : Configured crates cfg path s) (h : Bans crates path s nowMs ip op)
    (hT : nowMs / 1000 < ((s.apply crates path nowMs op).store.entry ip).banUntil) :
    Held (s.apply crates path nowMs op).store (s.apply crates path nowMs op).disk path ip
      ((s.apply crates path nowMs op).store.entry ip).banUntil := by
  cases op with
  | recordOffence ip' =>
    obtain ⟨rfl, h⟩ := h
    exact Reputations.held_of_recordOffence hc.bound h hT
  | forceBan ip' secs =>
    obtain ⟨rfl, h⟩ := h
    exact Reputations.held_of_forceBan hc.bound h hT
  | evaluate ctx =>
    obtain ⟨rfl, hbefore, -⟩ := h
    -- the address was not banned, so the store was called and the call returned true
    have hnot : ¬ nowMs / 1000 < (s.store.entry ctx.clientIp).banUntil := by
      rw [← Reputations.isBanned_iff, hbefore]
      nofun
    obtain ⟨-, ⟨hr, hd⟩ | ⟨secs, hr, hd⟩ | ⟨hr, hd⟩⟩ :=
      @evaluate_store crates s.disk nowMs s.engine ctx
    · simp only [apply, store, hr] at hT
      exact absurd hT hnot
    · simp only [apply, store, hr, hd] at hT ⊢
      cases hres : (s.engine.reputations.forceBan s.disk ctx.clientIp secs (nowMs / 1000)).1 with
      | true => exact Reputations.held_of_forceBan hc.bound hres hT
      | false =>
        rw [Reputations.forceBan_false hres] at hT
        exact absurd hT hnot
    · simp only [apply, store, hr, hd] at hT ⊢
      cases hres : (s.engine.reputations.recordOffence s.disk ctx.clientIp (nowMs / 1000)).1 with
      | true => exact Reputations.held_of_recordOffence hc.bound hres hT
      | false =>
        rw [Reputations.recordOffence_false hres] at hT
        exact absurd hT hnot
  | unban | gc | persist | restart | elsewhere => exact h.elim

/-- A request from a held address is blocked by the lists. -/
lemma held_blocked {ctx : RequestCtx} (h : Held s.store s.disk path ctx.clientIp T)
    (hnow : nowMs / 1000 < T) (hrt : inNets s.engine.runtime.allow ctx.clientIp = false) :
    (s.engine.evaluate crates s.disk ctx nowMs).1 = Engine.repDeny ctx := by
  have hclass : s.engine.reputations.classify ctx.clientIp (nowMs / 1000) = .deny := by
    unfold Reputations.classify
    rw [h.notAllowed, h.isBanned hnow]
    cases inNets s.engine.reputations.deny ctx.clientIp <;> rfl
  have hlisted : s.engine.listed ctx nowMs = some (Engine.repDeny ctx) := by
    simp only [Engine.listed, hrt, hclass]
    rfl
  simp only [Engine.evaluate, Engine.pipeline, hlisted]

lemma run_append {pre post : List (Nat × Op)} :
    s.run crates path (pre ++ post) = (s.run crates path pre).run crates path post :=
  List.foldl_append

/-- On a nondecreasing clock every operation from the middle of a run on is before its end. -/
lemma clock_le {pre post : List (Nat × Op)} {t u : Nat} {op : Op}
    (h : ((pre ++ (t, op) :: post).map Prod.fst ++ [u]).Pairwise (· ≤ ·)) :
    t ≤ u ∧ ∀ o ∈ post, o.1 ≤ u := by
  have hle := (List.pairwise_append.mp h).2.2
  have before {o : Nat × Op} (ho : o ∈ pre ++ (t, op) :: post) : o.1 ≤ u :=
    hle _ (List.mem_map_of_mem ho) u (.head _)
  exact ⟨before (List.mem_append_right _ (.head _)),
    fun o ho => before (List.mem_append_right _ (.tail _ ho))⟩

/-- A ban holds until it expires. Once an operation of a run on a nondecreasing clock has installed a
ban of an address, every later request of that address before the ban ends is blocked with status
403, unless the address is on the runtime allow list, and the ban is not shortened, whatever else has
happened in between but an unban of the address. -/
theorem ban_holds {bootMs t u : Nat} {pre post : List (Nat × Op)} {ctx : RequestCtx}
    (hboot : boot crates cfg disk path bootMs = some s)
    (hclock : ((pre ++ (t, op) :: post).map Prod.fst ++ [u]).Pairwise (· ≤ ·))
    (hbans : Bans crates path (s.run crates path pre) t ctx.clientIp op)
    (hunban : ∀ o ∈ post, o.2 ≠ .unban ctx.clientIp)
    (hT : ((s.run crates path (pre ++ [(t, op)])).store.entry ctx.clientIp).banUntil = T)
    (hu : u / 1000 < T) :
    let later := s.run crates path (pre ++ (t, op) :: post)
    T ≤ (later.store.entry ctx.clientIp).banUntil
      ∧ (inNets later.engine.runtime.allow ctx.clientIp = false →
        (later.engine.evaluate crates later.disk ctx u).1.action = .block
          ∧ (later.engine.evaluate crates later.disk ctx u).1.status = 403) := by
  intro later
  obtain ⟨htu, hpost⟩ := clock_le hclock
  have before {o : Nat} (ho : o ≤ u) : o / 1000 < T :=
    lt_of_le_of_lt (Nat.div_le_div_right ho) hu
  have hc : Configured crates cfg path (s.run crates path pre) := (boot_configured hboot).run
  -- the ban holds right after the operation that installs it
  rw [run_append] at hT
  subst hT
  have hheld := bans_held hc hbans (before htu)
  -- and at the end of the run
  have hlater : later = ((s.run crates path pre).apply crates path t op).run crates path post :=
    run_append
  have hend := run_held hc.step hheld fun o ho => ⟨hunban o ho, before (hpost o ho)⟩
  rw [← hlater] at hend
  refine ⟨hend.le_entry, fun hrt => ?_⟩
  rw [held_blocked hend hu hrt]
  exact ⟨rfl, rfl⟩

/-- A process that has just started on an empty disk. -/
def sampleSys : Sys :=
  (boot idleCrates Engine.sampleCfg (fun _ => none) "bans.json".toList 1700000000000).get
    (by decide)

/-- A request for a trap. -/
def trapCtx : RequestCtx := { Engine.sampleCtx with path := "/.env" }

/-- A second after the start the address of the request falls into a trap; then the store is swept
and the process starts again. -/
def samplePost : List (Nat × Op) := [(1700000300000, .gc), (1700000600000, .restart Engine.sampleEngine)]

/-- A trap, a sweep and a restart. -/
theorem ban_holds_witness :
    let later := sampleSys.run idleCrates "bans.json".toList
      ([] ++ (1700000001000, .evaluate trapCtx) :: samplePost)
    1700003601 ≤ (later.store.entry Engine.sampleCtx.clientIp).banUntil
      ∧ (inNets later.engine.runtime.allow Engine.sampleCtx.clientIp = false →
        (later.engine.evaluate idleCrates later.disk Engine.sampleCtx 1700003600000).1.action = .block
          ∧ (later.engine.evaluate idleCrates later.disk Engine.sampleCtx 1700003600000).1.status
            = 403) := by
  have started : boot idleCrates Engine.sampleCfg (fun _ => none) "bans.json".toList 1700000000000
      = some sampleSys := (Option.some_get _).symm
  have trapped : Bans idleCrates "bans.json".toList (sampleSys.run idleCrates "bans.json".toList [])
      1700000001000 Engine.sampleCtx.clientIp (.evaluate trapCtx) :=
    ⟨rfl, by decide, by decide⟩
  have banned : ((sampleSys.run idleCrates "bans.json".toList
      ([] ++ [(1700000001000, .evaluate trapCtx)])).store.entry
        Engine.sampleCtx.clientIp).banUntil = 1700003601 := by decide
  have noUnban : ∀ o ∈ samplePost, o.2 ≠ .unban Engine.sampleCtx.clientIp := by
    intro o ho
    rcases List.mem_cons.mp ho with rfl | ho
    · nofun
    · obtain rfl := List.mem_singleton.mp ho
      nofun
  exact ban_holds started (by decide) trapped noUnban banned (by decide)

end Sys

end Waf
