import Waf.Proxy.Filter
import Waf.Lib.Tally

/-!
# Requests in flight

The steps of `request_filter` and `logging` on the two trackers, for any number of requests at once.
A request passes the check of the ceiling, is counted by `ConnTracker::inc` (on the fast path when
its address has an entry, else by the check of the size and an insertion) and by `inc_inflight`, is
answered or decided, and leaves by `dec` and `dec_inflight`. In between other requests take their
steps and the sweeps remove entries that are not positive, in any order.

`accounting_exact` says that the trackers count exactly the open requests as long as the table has
room. Two bounds follow: the cap of an address is kept (`open_le_cap`), because a request is counted
before it is decided; the ceiling is not (`inFlight_le_iff`), because the check comes before the
count.
-/

namespace Waf
open Lib
open Subnet (SubnetTracker subnetKey)

/-- Where a request is: `passed` the ceiling, past the fast path or the check of the size, `counted`
by the connection tracker, `placed` in the subnet tracker as well, decided, or on its way out. -/
inductive Phase where
  | passed
  | missed
  | room
  | counted
  | placed
  | decided (allowed : Bool)
  | leaving
  deriving DecidableEq

structure Req where
  ip : IpAddr
  phase : Phase
  deriving DecidableEq

structure Flight where
  conns : ConnTracker := {}
  subnets : SubnetTracker := {}
  reqs : List Req := []

/-- The steps, with the engine that they read. -/
inductive Act where
  | turnAway (e : Engine)
  | pass (e : Engine)
  | hit
  | miss
  | room
  | refuse
  | insert
  | place
  | answer
  | decide (e : Engine) (ctx : RequestCtx) (nowMs : Nat)
  | dec
  | depart
  | sweep
  | sweepSubnets

/-- The part of a tracker's sweep that has got to the keys of `p`. -/
def ConnTracker.sweep (t : ConnTracker) (p : IpAddr → Bool) : ConnTracker :=
  { inner := t.inner.retain fun k v => 0 < v || !p k }

/-- The part of the sweep of `in_flight` that has got to the keys of `p`. -/
def Subnet.SubnetTracker.sweep (t : SubnetTracker) (p : Nat → Bool) : SubnetTracker :=
  { t with inFlight := t.inFlight.retain fun k v => 0 < v || !p k }

/-- What a request of the address does next, from its phase: the trackers after it, and its next
phase unless it is gone. -/
inductive Move (crates : Crates) (s : Flight) (ip : IpAddr) :
    Phase → Act → ConnTracker → SubnetTracker → Option Phase → Prop
  | hit {v} (hv : s.conns.inner.lookup ip = some v) :
    Move crates s ip .passed .hit { inner := s.conns.inner.insert ip (v + 1) } s.subnets
      (some .counted)
  | miss (hv : s.conns.inner.lookup ip = none) :
    Move crates s ip .passed .miss s.conns s.subnets (some .missed)
  | room (hroom : s.conns.inner.size ≤ ConnTracker.maxEntries) :
    Move crates s ip .missed .room s.conns s.subnets (some .room)
  -- the answer 999999 is not looked at, and the request goes on
  | refuse (hfull : ConnTracker.maxEntries < s.conns.inner.size) :
    Move crates s ip .missed .refuse s.conns s.subnets (some .counted)
  | insert :
    Move crates s ip .room .insert { inner := s.conns.inner.upsert ip 0 (· + 1) } s.subnets
      (some .counted)
  | place : Move crates s ip .counted .place s.conns (s.subnets.incInflight ip) (some .placed)
  | answer : Move crates s ip .placed .answer s.conns s.subnets (some (.decided false))
  | decide {e : Engine} {disk ctx nowMs} (hip : ctx.clientIp = ip) (hconns : e.conns = s.conns)
    (hsubnets : e.subnets = s.subnets) :
    Move crates s ip .placed (.decide e ctx nowMs) (e.evaluate crates disk ctx nowMs).2.1.conns
      (e.evaluate crates disk ctx nowMs).2.1.subnets
      (some (.decided ((e.evaluate crates disk ctx nowMs).1.action == .allow)))
  | dec {allowed} :
    Move crates s ip (.decided allowed) .dec (s.conns.dec ip) s.subnets (some .leaving)
  | depart : Move crates s ip .leaving .depart s.conns (s.subnets.decInflight ip) none

/-- One step: of a request at the ceiling, of one that is in flight, or of a sweep. -/
inductive Flight.Step (crates : Crates) (s : Flight) : Act → Flight → Prop
  | turnAway {e : Engine} (hconns : e.conns = s.conns) (h : e.atCapacity = true) :
    Step crates s (.turnAway e) s
  | pass {e : Engine} {ip} (hconns : e.conns = s.conns) (h : e.atCapacity = false) :
    Step crates s (.pass e) { s with reqs := s.reqs ++ [⟨ip, .passed⟩] }
  | move {l₁ l₂ ip phase a conns subnets next} (hreqs : s.reqs = l₁ ++ ⟨ip, phase⟩ :: l₂)
    (h : Move crates s ip phase a conns subnets next) :
    Step crates s a ⟨conns, subnets, l₁ ++ ((next.map (Req.mk ip)).toList ++ l₂)⟩
  | sweep {p} : Step crates s .sweep { s with conns := s.conns.sweep p }
  | sweepSubnets {p} : Step crates s .sweepSubnets { s with subnets := s.subnets.sweep p }

/-- A run from a process that has just started: its steps, each with the state before it. -/
inductive Flight.Run (crates : Crates) : List (Flight × Act) → Flight → Prop
  | start : Run crates [] {}
  | step {tr s a s'} (run : Run crates tr s) (h : s.Step crates a s') :
    Run crates (tr ++ [(s, a)]) s'

namespace Flight

/-! ## One request -/

/-- A state that some steps lead to. -/
def Steps (crates : Crates) : Flight → Flight → Prop :=
  Relation.ReflTransGen fun s s' => ∃ a, s.Step crates a s'

variable {crates : Crates} {s : Flight} {ip : IpAddr} {reqs l₁ l₂ : List Req}

/-- The newest request moves. -/
lemma Step.last {phase a conns subnets next} (hreqs : s.reqs = reqs ++ [⟨ip, phase⟩])
    (h : Move crates s ip phase a conns subnets (some next)) :
    s.Step crates a ⟨conns, subnets, reqs ++ [⟨ip, next⟩]⟩ := .move hreqs h

/-- The steps of `inc` that no other step disturbs. -/
lemma inc_steps (hreqs : s.reqs = reqs ++ [⟨ip, .passed⟩]) :
    Steps crates s ⟨(s.conns.inc ip).2, s.subnets, reqs ++ [⟨ip, .counted⟩]⟩ := by
  unfold ConnTracker.inc
  cases hv : s.conns.inner.get ip with
  | some v => exact .single ⟨_, .last hreqs (.hit hv)⟩
  | none =>
    have hmiss : Steps crates s ⟨s.conns, s.subnets, reqs ++ [⟨ip, .missed⟩]⟩ :=
      .single ⟨_, .last hreqs (.miss hv)⟩
    refine .trans hmiss ?_
    by_cases hfull : ConnTracker.maxEntries < s.conns.inner.size
    case pos =>
      simp only [hfull, if_true]
      exact .single ⟨_, .last rfl (.refuse hfull)⟩
    case neg =>
      have hins : s.conns.inner.insert ip 1 = s.conns.inner.upsert ip 0 (· + 1) := by
        rw [HashMap.upsert, show s.conns.inner.lookup ip = none from hv]
        rfl
      simp only [hfull, if_false, hins]
      exact .tail (.single ⟨_, .last rfl (.room (not_lt.mp hfull))⟩) ⟨_, .last rfl .insert⟩

/-- `request_filter` below the ceiling, when no other step disturbs it, is the steps of a request
that ends on its way upstream iff it is forwarded. -/
theorem requestFilter_steps {e : Engine} {disk : Disk} {ctx : RequestCtx} {nowMs : Nat}
    (hconns : e.conns = s.conns) (hsubnets : e.subnets = s.subnets) (hbelow : e.atCapacity = false) :
    ∃ allowed, Steps crates s ⟨(e.requestFilter crates disk ctx nowMs).2.1.conns,
        (e.requestFilter crates disk ctx nowMs).2.1.subnets,
        s.reqs ++ [⟨ctx.clientIp, .decided allowed⟩]⟩
      ∧ (allowed = true ↔ (e.requestFilter crates disk ctx nowMs).1.Forwards) := by
  have hpass : Steps crates s { s with reqs := s.reqs ++ [⟨ctx.clientIp, .passed⟩] } :=
    .single ⟨_, .pass hconns hbelow⟩
  have hinc : Steps crates s ⟨(e.conns.inc ctx.clientIp).2, s.subnets,
      s.reqs ++ [⟨ctx.clientIp, .counted⟩]⟩ := by
    rw [hconns]
    exact hpass.trans (inc_steps rfl)
  have hplace : Steps crates s ⟨(e.conns.inc ctx.clientIp).2, e.subnets.incInflight ctx.clientIp,
      s.reqs ++ [⟨ctx.clientIp, .placed⟩]⟩ := by
    rw [hsubnets]
    exact hinc.tail ⟨_, .last rfl .place⟩
  rw [Engine.requestFilter, hbelow]
  cases internalEndpoint ctx with
  | some endpoint => exact ⟨false, hplace.tail ⟨_, .last rfl .answer⟩, ⟨nofun, nofun⟩⟩
  | none =>
    refine ⟨_, hplace.tail ⟨_, .last rfl (.decide (e := e.enter ctx.clientIp) rfl rfl rfl)⟩, ?_⟩
    exact beq_iff_eq

/-- `logging`, when no other step disturbs it, is the steps of a request that leaves. -/
theorem logging_steps {e : Engine} {allowed : Bool} (hconns : e.conns = s.conns)
    (hsubnets : e.subnets = s.subnets) (hreqs : s.reqs = l₁ ++ ⟨ip, .decided allowed⟩ :: l₂) :
    Steps crates s ⟨(e.logging ip).conns, (e.logging ip).subnets, l₁ ++ l₂⟩ := by
  have hdec : Steps crates s ⟨s.conns.dec ip, s.subnets, l₁ ++ ⟨ip, .leaving⟩ :: l₂⟩ :=
    .single ⟨_, .move hreqs .dec⟩
  rw [Engine.logging, hconns, hsubnets]
  exact hdec.tail ⟨_, .move rfl .depart⟩

end Flight

/-! ## Accounting -/

namespace Phase

/-- Is a request counted by the connection tracker? -/
def tracked : Phase → Bool
  | counted | placed | decided _ => true
  | _ => false

/-- Is a request counted by the subnet tracker? -/
def inSubnet : Phase → Bool
  | placed | decided _ | leaving => true
  | _ => false

/-- Has a request passed the ceiling without being counted yet? -/
def waiting : Phase → Bool
  | passed | missed | room => true
  | _ => false

/-- Is a request on its way upstream? -/
def isOpen : Phase → Bool
  | decided true => true
  | _ => false

/-- Is a request past the ceiling and not logged? -/
def inFlight (p : Phase) : Bool := p.waiting || p.tracked

end Phase

/-- The requests in some phases whose address has a key. -/
def tallyBy {K : Type} [DecidableEq K] (q : Phase → Bool) (key : IpAddr → K) (reqs : List Req)
    (k : K) : Nat :=
  reqs.countP fun r => q r.phase && decide (key r.ip = k)

section

variable {K : Type} [DecidableEq K] {q : Phase → Bool} {key : IpAddr → K} {l₁ l₂ : List Req}
  {ip : IpAddr} {phase : Phase} {next : Option Phase} {k : K}

/-- A move changes a count by what the request adds to it before and after. -/
lemma countP_move {p : Req → Bool} :
    (l₁ ++ ((next.map (Req.mk ip)).toList ++ l₂)).countP p + (if p ⟨ip, phase⟩ then 1 else 0)
      = (l₁ ++ ⟨ip, phase⟩ :: l₂).countP p
        + if next.any (fun ph => p ⟨ip, ph⟩) then 1 else 0 := by
  simp only [List.countP_append, List.countP_cons]
  cases next with
  | none =>
    simp only [Option.map_none, Option.toList_none, List.countP_nil, Option.any_none,
      Bool.false_eq_true, if_false]
    omega
  | some ph =>
    simp only [Option.map_some, Option.toList_some, List.countP_singleton, Option.any_some]
    omega

/-- A move changes the tally by its own request. -/
lemma tallyBy_move :
    tallyBy q key (l₁ ++ ((next.map (Req.mk ip)).toList ++ l₂)) k
        + (if q phase && decide (key ip = k) then 1 else 0)
      = tallyBy q key (l₁ ++ ⟨ip, phase⟩ :: l₂) k
        + if next.any q && decide (key ip = k) then 1 else 0 := by
  have hany : (next.any fun ph => q ph && decide (key ip = k))
      = (next.any q && decide (key ip = k)) := by
    cases next with
    | none => rfl
    | some ph => rfl
  have hmove := @countP_move l₁ l₂ ip phase next fun r => q r.phase && decide (key r.ip = k)
  rwa [hany] at hmove

/-- It does not if the phases count alike. -/
lemma tallyBy_stay (h : next.any q = q phase) :
    tallyBy q key (l₁ ++ ((next.map (Req.mk ip)).toList ++ l₂)) k
      = tallyBy q key (l₁ ++ ⟨ip, phase⟩ :: l₂) k := by
  have hmove := @tallyBy_move K _ q key l₁ l₂ ip phase next k
  rw [h] at hmove
  exact Nat.add_right_cancel hmove

/-- A move that the count does not gain from. -/
lemma tallyBy_le (h : (next.any q && decide (key ip = k)) = true → q phase = true) :
    tallyBy q key (l₁ ++ ((next.map (Req.mk ip)).toList ++ l₂)) k
      ≤ tallyBy q key (l₁ ++ ⟨ip, phase⟩ :: l₂) k := by
  have hmove := @tallyBy_move K _ q key l₁ l₂ ip phase next k
  by_cases hgain : (next.any q && decide (key ip = k)) = true
  case pos =>
    obtain ⟨-, hk⟩ := Bool.and_eq_true_iff.mp hgain
    rw [h hgain, if_pos hgain, hk, Bool.true_and, if_pos rfl] at hmove
    exact Nat.le_of_add_le_add_right hmove.le
  case neg =>
    rw [if_neg hgain, Nat.add_zero] at hmove
    exact Nat.le.intro hmove

/-- A request that begins to count adds one to its key. -/
lemma tallyBy_gain (hphase : q phase = false) (hnext : next.any q = true) :
    tallyBy q key (l₁ ++ ((next.map (Req.mk ip)).toList ++ l₂)) k
      = tallyBy q key (l₁ ++ ⟨ip, phase⟩ :: l₂) k + if k = key ip then 1 else 0 := by
  have hmove := @tallyBy_move K _ q key l₁ l₂ ip phase next k
  rw [hphase, hnext] at hmove
  simpa [eq_comm] using hmove

/-- One that ends takes one away. -/
lemma tallyBy_lose (hphase : q phase = true) (hnext : next.any q = false) :
    tallyBy q key (l₁ ++ ⟨ip, phase⟩ :: l₂) k
      = tallyBy q key (l₁ ++ ((next.map (Req.mk ip)).toList ++ l₂)) k
        + if k = key ip then 1 else 0 := by
  have hmove := @tallyBy_move K _ q key l₁ l₂ ip phase next k
  rw [hphase, hnext] at hmove
  simpa [eq_comm] using hmove.symm

end

namespace Flight

/-- The trackers count exactly the requests that are in them. -/
structure Exact (s : Flight) : Prop where
  conns : Tally s.conns.inner (tallyBy Phase.tracked id s.reqs)
  subnets : Tally s.subnets.inFlight (tallyBy Phase.inSubnet subnetKey s.reqs)

variable {crates : Crates} {s s' : Flight} {a : Act} {ip : IpAddr} {phase : Phase}
  {conns : ConnTracker} {subnets : SubnetTracker} {next : Option Phase} {l₁ l₂ : List Req}

/-- A move that is no refusal keeps the connection tracker right. -/
lemma move_conns (hm : Move crates s ip phase a conns subnets next) (ha : a ≠ .refuse)
    (h : Tally s.conns.inner (tallyBy Phase.tracked id (l₁ ++ ⟨ip, phase⟩ :: l₂))) :
    Tally conns.inner
      (tallyBy Phase.tracked id (l₁ ++ ((next.map (Req.mk ip)).toList ++ l₂))) := by
  cases hm with
  | refuse => exact absurd rfl ha
  | @hit v hv =>
    have hins : s.conns.inner.insert ip (v + 1) = s.conns.inner.upsert ip 0 (· + 1) := by
      rw [HashMap.upsert, hv, Option.getD_some]
    show Tally (s.conns.inner.insert ip (v + 1)) _
    rw [hins]
    exact h.succ fun j => tallyBy_gain rfl rfl
  | insert => exact h.succ fun j => tallyBy_gain rfl rfl
  | dec => exact h.pred fun j => tallyBy_lose rfl rfl
  | miss | room | place | answer | depart => exact h.congr fun j => tallyBy_stay rfl
  | decide hip hconns =>
    rw [Engine.evaluate_trackers.1, hconns]
    exact h.congr fun j => tallyBy_stay rfl

/-- A move keeps the subnet tracker right. -/
lemma move_subnets (hm : Move crates s ip phase a conns subnets next)
    (h : Tally s.subnets.inFlight (tallyBy Phase.inSubnet subnetKey (l₁ ++ ⟨ip, phase⟩ :: l₂))) :
    Tally subnets.inFlight
      (tallyBy Phase.inSubnet subnetKey (l₁ ++ ((next.map (Req.mk ip)).toList ++ l₂))) := by
  cases hm with
  | hit | miss | room | refuse | insert | answer | dec => exact h.congr fun j => tallyBy_stay rfl
  | place => exact h.succ fun j => tallyBy_gain rfl rfl
  | depart => exact h.pred fun j => tallyBy_lose rfl rfl
  | @decide e disk ctx nowMs hip hconns hsubnets =>
    suffices hold : Tally (e.evaluate crates disk ctx nowMs).2.1.subnets.inFlight
        (tallyBy Phase.inSubnet subnetKey (l₁ ++ ⟨ip, .placed⟩ :: l₂)) from
      hold.congr fun j => tallyBy_stay rfl
    obtain ⟨-, hsame | hswept⟩ := @Engine.evaluate_trackers crates e disk ctx nowMs
    · rw [hsame, hsubnets]
      exact h
    · rw [hswept, hsubnets, SubnetTracker.maybeGc]
      split
      case isTrue => exact h
      case isFalse => exact h.retain fun _ _ => decide_eq_true

/-- A request that has passed the ceiling does not count yet. -/
lemma tallyBy_pass {K : Type} [DecidableEq K] {q : Phase → Bool} {key : IpAddr → K} {k : K}
    (hq : q .passed = false) : tallyBy q key (s.reqs ++ [⟨ip, .passed⟩]) k = tallyBy q key s.reqs k := by
  rw [tallyBy, List.countP_append, List.countP_singleton, hq]
  rfl

/-- A step that is no refusal keeps the trackers right. -/
lemma Exact.step (h : Exact s) (hs : s.Step crates a s') (ha : a ≠ .refuse) : Exact s' := by
  have hswept : ∀ {K : Type} (p : K → Bool) (k : K) (v : Int), 0 < v →
      (decide (0 < v) || !p k) = true := fun p k v hv => by rw [decide_eq_true hv, Bool.true_or]
  cases hs with
  | turnAway => exact h
  | pass =>
    exact ⟨h.conns.congr fun _ => tallyBy_pass rfl, h.subnets.congr fun _ => tallyBy_pass rfl⟩
  | move hreqs hm =>
    have hconns := h.conns
    have hsubnets := h.subnets
    rw [hreqs] at hconns hsubnets
    exact ⟨move_conns hm ha hconns, move_subnets hm hsubnets⟩
  | sweep => exact ⟨h.conns.retain (hswept _), h.subnets⟩
  | sweepSubnets => exact ⟨h.conns, h.subnets.retain (hswept _)⟩

/-- No step of the run is a refusal of a full tracker. -/
def Unrefused (tr : List (Flight × Act)) : Prop := ∀ x ∈ tr, x.2 ≠ .refuse

/-- The accounts are exact throughout a run. -/
lemma Run.exact {tr : List (Flight × Act)} (h : Run crates tr s) (hu : Unrefused tr) : Exact s := by
  induction h with
  | start => exact ⟨Tally.empty, Tally.empty⟩
  | @step tr s a s' _ hs ih =>
    have hpre := ih fun x hx => hu x (List.mem_append_left _ hx)
    exact hpre.step hs (hu (s, a) (List.mem_append_right _ (.head _)))

/-- The table of the connection tracker has room in every state of the run. -/
def Fits (tr : List (Flight × Act)) : Prop :=
  ∀ x ∈ tr, x.1.conns.inner.size ≤ ConnTracker.maxEntries

/-- The steps of a run are steps of the states before them. -/
lemma Run.steps {tr : List (Flight × Act)} (h : Run crates tr s) :
    ∀ x ∈ tr, ∃ s', x.1.Step crates x.2 s' := by
  induction h with
  | start => exact fun x hx => absurd hx List.not_mem_nil
  | @step tr s₀ a s₁ _ hs ih =>
    intro x hx
    obtain hx | hx := List.mem_append.mp hx
    · exact ih x hx
    · rw [List.mem_singleton.mp hx]
      exact ⟨s₁, hs⟩

/-- A tracker that has room refuses nothing. -/
lemma Run.unrefused {tr : List (Flight × Act)} (h : Run crates tr s) (hfits : Fits tr) :
    Unrefused tr := by
  rintro ⟨s₁, a⟩ hx rfl
  obtain ⟨s', hs⟩ := h.steps _ hx
  cases hs with
  | move _ hm =>
    cases hm with
    | refuse hfull => exact absurd (hfits _ hx) (not_le.mpr hfull)

namespace Exact

/-- The number of an address is that of its tracked requests. -/
lemma current (h : Exact s) (ip : IpAddr) :
    s.conns.current ip = tallyBy Phase.tracked id s.reqs ip := h.conns ip

/-- The total is that of all tracked requests. -/
lemma total (h : Exact s) :
    s.conns.total = (s.reqs.countP fun r => r.phase.tracked : Nat) :=
  Tally.sum_values h.conns

/-- The clamp of `dec` is not taken for an address with a request in the tracker. -/
lemma noClamp (h : Exact s) {r : Req} (hr : r ∈ s.reqs) (hp : r.phase.tracked = true) :
    ∃ v, s.conns.inner.lookup r.ip = some v ∧ 0 < v := by
  refine h.conns.pos (List.countP_pos_iff.mpr ⟨r, hr, ?_⟩)
  rw [hp]
  exact decide_eq_true rfl

/-- The clamp of `dec_inflight` is not taken for a subnet with a request in the tracker. -/
lemma noClamp_subnet (h : Exact s) {r : Req} (hr : r ∈ s.reqs) (hp : r.phase.inSubnet = true) :
    ∃ v, s.subnets.inFlight.lookup (subnetKey r.ip) = some v ∧ 0 < v := by
  refine h.subnets.pos (List.countP_pos_iff.mpr ⟨r, hr, ?_⟩)
  rw [hp]
  exact decide_eq_true rfl

end Exact

/-- The accounting is exact. In every state of a run in which the table of the connection tracker has
room, `current` of an address is the number of its requests between `inc` and `dec`, `total` that of
all of them, and the value of a subnet the number of requests of its addresses between
`inc_inflight` and `dec_inflight`; and no request that can take `dec` or `dec_inflight` finds a value
that it clamps. -/
theorem accounting_exact {tr : List (Flight × Act)} (hrun : Run crates tr s) (hfits : Fits tr) :
    (∀ ip, s.conns.current ip
        = (s.reqs.countP fun r => r.phase.tracked && decide (r.ip = ip) : Nat))
      ∧ s.conns.total = (s.reqs.countP fun r => r.phase.tracked : Nat)
      ∧ (∀ key, (s.subnets.inFlight.lookup key).getD 0
        = (s.reqs.countP fun r => r.phase.inSubnet && decide (subnetKey r.ip = key) : Nat))
      ∧ (∀ r ∈ s.reqs, r.phase.tracked = true →
        ∃ v, s.conns.inner.lookup r.ip = some v ∧ 0 < v)
      ∧ ∀ r ∈ s.reqs, r.phase.inSubnet = true →
        ∃ v, s.subnets.inFlight.lookup (subnetKey r.ip) = some v ∧ 0 < v := by
  have h := hrun.exact (hrun.unrefused hfits)
  exact ⟨h.current, h.total, h.subnets, fun _ => h.noClamp, fun _ => h.noClamp_subnet⟩

/-- A visitor of the subnet of the sample. -/
def neighbour : IpAddr := .v4 (.new 1 2 3 5)

/-- The tracker with the request of the neighbour, with the sample as well, and after the neighbour has
left and its entry is swept. -/
def oneIn : ConnTracker := { inner := (∅ : HashMap IpAddr Int).upsert neighbour 0 (· + 1) }
def bothIn : ConnTracker := { inner := oneIn.inner.upsert Engine.sampleCtx.clientIp 0 (· + 1) }
def swept : ConnTracker := (bothIn.dec neighbour).sweep fun _ => true

def onePlaced : SubnetTracker := ({} : SubnetTracker).incInflight neighbour
def bothPlaced : SubnetTracker := onePlaced.incInflight Engine.sampleCtx.clientIp

/-- The request of the neighbour in one phase and the sample in another. -/
def pair (phase phase' : Phase) : List Req := [⟨neighbour, phase⟩, ⟨Engine.sampleCtx.clientIp, phase'⟩]

/-- The engine that decides on the sample. -/
def reader : Engine := { Engine.sampleEngine with conns := swept, subnets := bothPlaced }

/-- The steps of two requests of one subnet: the neighbour is answered by an endpoint and leaves, and its
entry is swept, before the sample is decided. -/
def sampleTrace : List (Flight × Act) :=
  [({}, .pass Engine.sampleEngine),
    ({ reqs := [⟨neighbour, .passed⟩] }, .miss),
    ({ reqs := [⟨neighbour, .missed⟩] }, .pass Engine.sampleEngine),
    ({ reqs := pair .missed .passed }, .miss),
    ({ reqs := pair .missed .missed }, .room),
    ({ reqs := pair .room .missed }, .room),
    ({ reqs := pair .room .room }, .insert),
    (⟨oneIn, {}, pair .counted .room⟩, .place),
    (⟨oneIn, onePlaced, pair .placed .room⟩, .insert),
    (⟨bothIn, onePlaced, pair .placed .counted⟩, .answer),
    (⟨bothIn, onePlaced, pair (.decided false) .counted⟩, .dec),
    (⟨bothIn.dec neighbour, onePlaced, pair .leaving .counted⟩, .sweep),
    (⟨swept, onePlaced, pair .leaving .counted⟩, .place),
    (⟨swept, bothPlaced, pair .leaving .placed⟩, .decide reader Engine.sampleCtx 1700000000000)]

/-- The state after them. -/
def decided : Flight :=
  ⟨(reader.evaluate idleCrates (fun _ => none) Engine.sampleCtx 1700000000000).2.1.conns,
    (reader.evaluate idleCrates (fun _ => none) Engine.sampleCtx 1700000000000).2.1.subnets,
    pair .leaving (.decided ((reader.evaluate idleCrates (fun _ => none)
      Engine.sampleCtx 1700000000000).1.action == .allow))⟩

/-- The neighbour moves, whatever the sample does. -/
lemma Step.neighbour {phase phase' a conns subnets next} (hreqs : s.reqs = pair phase phase')
    (h : Move crates s neighbour phase a conns subnets (some next)) :
    s.Step crates a ⟨conns, subnets, pair next phase'⟩ :=
  @Step.move _ _ [] [⟨Engine.sampleCtx.clientIp, phase'⟩] _ _ _ _ _ _ hreqs h

/-- The sample moves, whatever the neighbour does. -/
lemma Step.sample {phase phase' a conns subnets next} (hreqs : s.reqs = pair phase phase')
    (h : Move crates s Engine.sampleCtx.clientIp phase' a conns subnets (some next)) :
    s.Step crates a ⟨conns, subnets, pair phase next⟩ :=
  @Step.move _ _ [⟨Flight.neighbour, phase⟩] [] _ _ _ _ _ _ hreqs h

lemma sampleTrace_run : Run idleCrates sampleTrace decided := by
  have below : Engine.sampleEngine.atCapacity = false := by decide
  have first : Step idleCrates {} (.pass Engine.sampleEngine) { reqs := [⟨neighbour, .passed⟩] } :=
    .pass rfl below
  have missed : Step idleCrates { reqs := [⟨neighbour, .passed⟩] } .miss
      { reqs := [⟨neighbour, .missed⟩] } := @Step.last _ _ _ [] _ _ _ _ _ rfl (.miss rfl)
  have second : Step idleCrates { reqs := [⟨neighbour, .missed⟩] } (.pass Engine.sampleEngine)
      { reqs := pair .missed .passed } := .pass rfl below
  have both : Run idleCrates _ ⟨{}, {}, pair .missed .missed⟩ :=
    .step (.step (.step (.step .start first) missed) second) (.sample rfl (.miss rfl))
  have inside : Run idleCrates _ ⟨oneIn, onePlaced, pair .placed .room⟩ :=
    .step (.step (.step (.step both (.neighbour rfl (.room (Nat.zero_le _))))
      (.sample rfl (.room (Nat.zero_le _)))) (.neighbour rfl .insert)) (.neighbour rfl .place)
  have left : Run idleCrates _ ⟨bothIn.dec neighbour, onePlaced, pair .leaving .counted⟩ :=
    .step (.step (.step inside (.sample rfl .insert)) (.neighbour rfl .answer)) (.neighbour rfl .dec)
  exact .step (.step (.step left .sweep) (.sample rfl .place))
    (.sample rfl (.decide rfl rfl rfl))

lemma sampleTrace_fits : Fits sampleTrace := by
  intro x hx
  simp only [sampleTrace, List.mem_cons, List.not_mem_nil, or_false] at hx
  obtain rfl | rfl | rfl | rfl | rfl | rfl | rfl | rfl | rfl | rfl | rfl | rfl | rfl | rfl := hx
  all_goals decide

/-- Two requests, one of which has left. -/
theorem accounting_exact_witness :
    (∀ ip, decided.conns.current ip
        = (decided.reqs.countP fun r => r.phase.tracked && decide (r.ip = ip) : Nat))
      ∧ decided.conns.total = (decided.reqs.countP fun r => r.phase.tracked : Nat)
      ∧ (∀ key, (decided.subnets.inFlight.lookup key).getD 0
        = (decided.reqs.countP fun r => r.phase.inSubnet && decide (subnetKey r.ip = key) : Nat))
      ∧ (∀ r ∈ decided.reqs, r.phase.tracked = true →
        ∃ v, decided.conns.inner.lookup r.ip = some v ∧ 0 < v)
      ∧ ∀ r ∈ decided.reqs, r.phase.inSubnet = true →
        ∃ v, decided.subnets.inFlight.lookup (subnetKey r.ip) = some v ∧ 0 < v :=
  accounting_exact sampleTrace_run sampleTrace_fits

/-! ## The cap of an address -/

/-- A decision on a request of the address is made under the cap `c`, and the address is on no allow
list and not of a verified crawler. -/
def Capped (ip : IpAddr) (c : Int) : Act → Prop
  | .decide e ctx nowMs => ctx.clientIp = ip → e.runtime.connCap = c ∧ ¬ Engine.AllowListed e ip
    ∧ ∀ name, e.verdict ctx nowMs ≠ .goodBotVerified name
  | _ => True

/-- An allowed request of the address has found it within the cap. -/
lemma allowed_current {e : Engine} {disk : Disk} {ctx : RequestCtx} {nowMs : Nat} {c : Int}
    (hpos : 0 < c) (hcap : e.runtime.connCap = c) (hlist : ¬ Engine.AllowListed e ctx.clientIp)
    (hbot : ∀ name, e.verdict ctx nowMs ≠ .goodBotVerified name)
    (h : (e.evaluate crates disk ctx nowMs).1.action = .allow) :
    e.conns.current ctx.clientIp ≤ c := by
  obtain hal | ⟨-, name, hv⟩ | hp := Engine.pipeline_allow_iff.mp h
  · exact absurd hal hlist
  · exact absurd hv (hbot name)
  · have hover := Engine.overCap_none_iff.mp hp.1.overCap
    rw [hcap] at hover
    exact hover hpos

/-- Requests on their way upstream are in the tracker. -/
lemma open_le_tracked {reqs : List Req} :
    tallyBy Phase.isOpen id reqs ip ≤ tallyBy Phase.tracked id reqs ip := by
  refine List.countP_mono_left fun r _ hr => ?_
  obtain ⟨hopen, hip⟩ := Bool.and_eq_true_iff.mp hr
  have htracked : r.phase.tracked = true := by
    cases hp : r.phase with
    | decided allowed => rfl
    | passed | missed | room | counted | placed | leaving =>
      rw [hp] at hopen
      cases hopen
  rw [htracked, hip]
  rfl

/-- A move keeps the requests of an address on their way upstream within its cap. -/
lemma move_open {c : Int} (hm : Move crates s ip phase a conns subnets next) {ip' : IpAddr}
    (hpos : 0 < c) (ha : Capped ip' c a) (hexact : Exact s)
    (hreqs : s.reqs = l₁ ++ ⟨ip, phase⟩ :: l₂)
    (h : (tallyBy Phase.isOpen id (l₁ ++ ⟨ip, phase⟩ :: l₂) ip' : Int) ≤ c) :
    (tallyBy Phase.isOpen id (l₁ ++ ((next.map (Req.mk ip)).toList ++ l₂)) ip' : Int) ≤ c := by
  cases hm with
  | hit | miss | room | refuse | insert | place | answer | dec | depart =>
    refine (Nat.cast_le.mpr (tallyBy_le fun hgain => ?_)).trans h
    exact absurd (Bool.and_eq_true_iff.mp hgain).1 Bool.false_ne_true
  | @decide e disk ctx nowMs hip hconns hsubnets =>
    by_cases hnew : (e.evaluate crates disk ctx nowMs).1.action = .allow ∧ ip = ip'
    case pos =>
      -- the request itself is counted before it is decided
      obtain ⟨hallow, rfl⟩ := hnew
      subst hip
      obtain ⟨hcap, hlist, hbot⟩ := ha rfl
      have hcurrent := allowed_current hpos hcap hlist hbot hallow
      rw [hconns, hexact.current, hreqs] at hcurrent
      refine le_trans (Nat.cast_le.mpr (open_le_tracked.trans_eq ?_)) hcurrent
      exact tallyBy_stay rfl
    case neg =>
      refine (Nat.cast_le.mpr (tallyBy_le fun hgain => ?_)).trans h
      obtain ⟨hopen, hk⟩ := Bool.and_eq_true_iff.mp hgain
      refine absurd ⟨?_, of_decide_eq_true hk⟩ hnew
      rw [Option.any_some] at hopen
      cases hb : (e.evaluate crates disk ctx nowMs).1.action == Action.allow with
      | true => exact eq_of_beq hb
      | false =>
        rw [hb] at hopen
        cases hopen

/-- A step keeps the requests of an address on their way upstream within its cap. -/
lemma step_open {c : Int} (hs : s.Step crates a s') (hpos : 0 < c) (ha : Capped ip c a)
    (hexact : Exact s) (h : (tallyBy Phase.isOpen id s.reqs ip : Int) ≤ c) :
    (tallyBy Phase.isOpen id s'.reqs ip : Int) ≤ c := by
  cases hs with
  | turnAway | sweep | sweepSubnets => exact h
  | pass =>
    rw [tallyBy_pass rfl]
    exact h
  | move hreqs hm =>
    refine move_open hm hpos ha hexact hreqs ?_
    rw [← hreqs]
    exact h

/-- The cap of an address is kept. In every state of a run in which the tracker has room, at most `c`
requests of the address have been allowed and are not logged yet, if `c` is its cap at every
decision. -/
theorem open_le_cap {tr : List (Flight × Act)} {c : Int} (hrun : Run crates tr s) (hfits : Fits tr)
    (hpos : 0 < c) (hcapped : ∀ x ∈ tr, Capped ip c x.2) :
    (s.reqs.countP fun r => r.phase.isOpen && decide (r.ip = ip) : Nat) ≤ c := by
  have hu := hrun.unrefused hfits
  clear hfits
  induction hrun with
  | start => exact hpos.le
  | @step tr s a s' run hs ih =>
    have hu' : Unrefused tr := fun x hx => hu x (List.mem_append_left _ hx)
    have hcapped' : ∀ x ∈ tr, Capped ip c x.2 := fun x hx => hcapped x (List.mem_append_left _ hx)
    exact step_open hs hpos (hcapped (s, a) (List.mem_append_right _ (.head _))) (run.exact hu')
      (ih hcapped' hu')

lemma sampleTrace_capped : ∀ x ∈ sampleTrace, Capped Engine.sampleCtx.clientIp 200 x.2 := by
  have unlisted : ¬ Engine.AllowListed reader Engine.sampleCtx.clientIp := by
    rintro (h | h)
    · cases h
    · cases h
  have cap : reader.runtime.connCap = 200 := by decide
  intro x hx
  simp only [sampleTrace, List.mem_cons, List.not_mem_nil, or_false] at hx
  obtain rfl | rfl | rfl | rfl | rfl | rfl | rfl | rfl | rfl | rfl | rfl | rfl | rfl | rfl := hx
  case inr.inr.inr.inr.inr.inr.inr.inr.inr.inr.inr.inr.inr =>
    exact fun _ => ⟨cap, unlisted, fun _ => nofun⟩
  all_goals trivial

/-- The same run, with a cap. -/
theorem open_le_cap_witness :
    (decided.reqs.countP fun r => r.phase.isOpen && decide (r.ip = Engine.sampleCtx.clientIp) : Nat)
      ≤ (200 : Int) :=
  open_le_cap sampleTrace_run sampleTrace_fits (by decide) sampleTrace_capped

/-! ## The ceiling -/

/-- The requests past the ceiling that are not logged yet. -/
def inFlight (s : Flight) : Nat := s.reqs.countP fun r => r.phase.inFlight

/-- The requests past the ceiling that are not counted yet. -/
def waiting (s : Flight) : Nat := s.reqs.countP fun r => r.phase.waiting

/-- A request that passes the check leaves room for those that have passed it and are not counted
yet. -/
def Spare : Flight × Act → Prop
  | (s, .pass e) => s.conns.total + s.waiting < e.runtime.globalInflightCap
  | _ => True

/-- The checks are made with the ceiling `cap`. -/
def Ceiling (cap : Nat) (tr : List (Flight × Act)) : Prop :=
  ∀ s e, (s, .pass e) ∈ tr → e.runtime.globalInflightCap = cap

/-- A request past the ceiling is either counted or waiting. -/
lemma inFlight_split : s.inFlight = (s.reqs.countP fun r => r.phase.tracked) + s.waiting := by
  have hphase : ∀ p : Phase, (if p.inFlight then 1 else 0)
      = (if p.tracked then 1 else 0) + if p.waiting then 1 else 0 := by
    intro p
    cases p with
    | passed | missed | room | counted | placed | decided | leaving => rfl
  unfold inFlight waiting
  induction s.reqs with
  | nil => rfl
  | cons r rs ih =>
    rw [List.countP_cons, List.countP_cons, List.countP_cons, ih, hphase]
    omega

/-- Only passing the check puts a request in flight. -/
lemma step_inFlight (hs : s.Step crates a s') (ha : ∀ e, a ≠ .pass e) : s'.inFlight ≤ s.inFlight := by
  cases hs with
  | turnAway | sweep | sweepSubnets => exact le_rfl
  | pass => exact absurd rfl (ha _)
  | @move l₁ l₂ ip phase a conns subnets next hreqs hm =>
    have hmove := @countP_move l₁ l₂ ip phase next fun r => r.phase.inFlight
    show List.countP _ _ ≤ List.countP _ s.reqs
    rw [hreqs]
    cases hm with
    | hit | miss | room | refuse | insert | place | answer | decide =>
      exact (Nat.add_right_cancel hmove).le
    | dec => exact (Nat.le_succ _).trans hmove.le
    | depart => exact hmove.le

/-- Passing the check puts one request more in flight. -/
lemma pass_inFlight {e : Engine} (hs : s.Step crates (.pass e) s') :
    s'.inFlight = s.inFlight + 1 := by
  cases hs with
  | pass => exact List.countP_append.trans rfl
  | move _ hm => cases hm

/-- A step keeps the ceiling iff it leaves room. -/
lemma step_ceiling {cap : Nat} (hs : s.Step crates a s') (hexact : Exact s)
    (hcap : ∀ e, a = .pass e → e.runtime.globalInflightCap = cap) (h : s.inFlight ≤ cap) :
    s'.inFlight ≤ cap ↔ Spare (s, a) := by
  by_cases hpass : ∃ e, a = .pass e
  case pos =>
    obtain ⟨e, rfl⟩ := hpass
    have hsplit := @inFlight_split s
    show _ ↔ s.conns.total + s.waiting < e.runtime.globalInflightCap
    rw [pass_inFlight hs, hcap e rfl, hexact.total]
    omega
  case neg =>
    have ha : ∀ e, a ≠ .pass e := fun e he => hpass ⟨e, he⟩
    have hspare : Spare (s, a) := by
      cases a with
      | pass e => exact absurd rfl (ha e)
      | turnAway | hit | miss | room | refuse | insert | place | answer | decide | dec | depart
      | sweep | sweepSubnets => trivial
    exact ⟨fun _ => hspare, fun _ => (step_inFlight hs ha).trans h⟩

/-- The ceiling in a run without a refusal. At most `cap` requests are past the check and not logged
in every state iff whenever one passes it, the total and the requests that have passed it and are not
counted yet are below `cap`. -/
theorem inFlight_le_iff {tr : List (Flight × Act)} {cap : Nat} (hrun : Run crates tr s)
    (hcap : Ceiling cap tr) (hu : Unrefused tr) :
    ((∀ x ∈ tr, x.1.inFlight ≤ cap) ∧ s.inFlight ≤ cap) ↔ ∀ x ∈ tr, Spare x := by
  induction hrun with
  | start => exact ⟨fun _ _ hx => absurd hx List.not_mem_nil,
      fun _ => ⟨fun _ hx => absurd hx List.not_mem_nil, Nat.zero_le _⟩⟩
  | @step tr s a s' run hs ih =>
    have hu' : Unrefused tr := fun x hx => hu x (List.mem_append_left _ hx)
    have hcap' : Ceiling cap tr := fun s e hx => hcap s e (List.mem_append_left _ hx)
    have ih := ih hcap' hu'
    have hlast : ∀ e, a = .pass e → e.runtime.globalInflightCap = cap := by
      rintro e rfl
      exact hcap s e (List.mem_append_right _ (.head _))
    have hstep := step_ceiling hs (run.exact hu') hlast
    simp only [List.forall_mem_append, List.forall_mem_singleton]
    rw [ih.symm]
    constructor
    · rintro ⟨hall, hnext⟩
      exact ⟨hall, (hstep hall.2).mp hnext⟩
    · rintro ⟨hall, hspare⟩
      exact ⟨hall, (hstep hall.2).mpr hspare⟩

lemma sampleTrace_ceiling : Ceiling 20000 sampleTrace := by
  intro s e h
  simp only [sampleTrace, List.mem_cons, Prod.mk.injEq, Act.pass.injEq, reduceCtorEq, and_false,
    List.not_mem_nil, or_false, false_or] at h
  obtain ⟨-, rfl⟩ | ⟨-, rfl⟩ := h
  · rfl
  · rfl

/-- The same run, with a ceiling. -/
theorem inFlight_le_iff_witness :
    ((∀ x ∈ sampleTrace, x.1.inFlight ≤ 20000) ∧ decided.inFlight ≤ 20000)
      ↔ ∀ x ∈ sampleTrace, Spare x :=
  inFlight_le_iff sampleTrace_run sampleTrace_ceiling
    (sampleTrace_run.unrefused sampleTrace_fits)

/-- An engine with a ceiling of one request. -/
def narrow : Engine :=
  { Engine.sampleEngine with
    runtime := { Engine.sampleEngine.runtime with globalInflightCap := 1 } }

/-- Two requests pass the check of a ceiling of one before either is counted. -/
theorem two_pass_ceiling_one :
    ∃ tr s, Run idleCrates tr s ∧ Ceiling 1 tr ∧ Unrefused tr ∧ s.inFlight = 2 := by
  have below : narrow.atCapacity = false := by decide
  let req : Req := ⟨Engine.sampleCtx.clientIp, .passed⟩
  have first : Step idleCrates {} (.pass narrow) { reqs := [req] } := .pass rfl below
  have second : Step idleCrates { reqs := [req] } (.pass narrow) { reqs := [req, req] } :=
    .pass rfl below
  refine ⟨_, _, .step (.step .start first) second, ?_, ?_, rfl⟩
  · intro s e h
    simp only [List.nil_append, List.cons_append, List.mem_cons, Prod.mk.injEq, Act.pass.injEq,
      List.not_mem_nil, or_false] at h
    obtain ⟨-, rfl⟩ | ⟨-, rfl⟩ := h
    · rfl
    · rfl
  · intro x h
    simp only [List.nil_append, List.cons_append, List.mem_cons, List.not_mem_nil, or_false] at h
    obtain rfl | rfl := h
    · nofun
    · nofun

end Flight

end Waf
