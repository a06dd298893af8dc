import Waf.Signal.Gate

/-!
# Lookups in flight

Runs of `classify` calls and of the lookups they spawn. A call reads the cache (`read`) and, when it
finds no live entry, later inserts a pending one and spawns a lookup (`start`); calls and lookups of
all addresses interleave, and a lookup completes after any time, with any answers of the resolver.

The pending entry keeps later calls from spawning a second lookup until it expires. So no address has
two lookups in flight iff whatever a call overtakes has completed: the lookups whose entry was inserted
after the call had read the cache, or had expired when it did (`single_flight_iff`).

A live entry that is not pending is that of the last lookup of its address to complete
(`Desk.Recorded`). The suffixes that this one was made with are those of another user agent. So the
verdicts are justified iff the last lookup suits the crawler that the call claims, or another one does
(`justified_iff`).
-/

namespace Waf
open Lib

namespace Goodbot

namespace GoodBotVerifier

/-- `classify` before the pending entry: the verdict, or the crawler to look up. -/
def read (g : GoodBotVerifier) (ip : IpAddr) (ua : Str) (now : Nat) : Verdict ⊕ Bot :=
  if ua.isEmpty then .inl .notABot
  else
    match claimedBot ua with
    | none => .inl .notABot
    | some bot =>
      match g.live ip now with
      | some e =>
        match e.state with
        | .verified n => .inl (.goodBotVerified n)
        | .rejected => .inl (.goodBotSpoofed bot.name)
        | .pending => .inl .goodBotPending
      | none => .inr bot

/-- The rest of `classify`. -/
def start (g : GoodBotVerifier) (ip : IpAddr) (bot : Bot) (now : Nat) : GoodBotVerifier where
  cache := g.cache.insert ip ⟨.pending, (now + PENDING_TTL_SECS) % 2 ^ 64, none⟩
  spawned := g.spawned ++ [⟨ip, bot.suffixes, bot.name⟩]

variable {g : GoodBotVerifier} {ip : IpAddr} {ua : Str} {now : Nat}

/-- A call answers from the cache, or asks for a lookup. -/
lemma classify_eq : g.classify ip ua now =
    match g.read ip ua now with
    | .inl v => (v, g)
    | .inr bot => (.goodBotPending, g.start ip bot now) := by
  rw [classify, read]
  by_cases hempty : ua.isEmpty = true
  case pos => rw [if_pos hempty, if_pos hempty]
  case neg =>
    rw [if_neg hempty, if_neg hempty]
    cases claimedBot ua with
    | none => rfl
    | some bot =>
      cases hlive : g.live ip now with
      | none => rfl
      | some e =>
        obtain ⟨state, expires, ptr⟩ := e
        cases state with
        | pending => rfl
        | verified => rfl
        | rejected => rfl

/-- A text without letters names no crawler. -/
lemma claimedBot_nil : claimedBot [] = none := by decide

/-- A crawler is looked up in the live entries. -/
lemma read_of_claimed {bot : Bot} (hbot : claimedBot ua = some bot) : g.read ip ua now =
    match g.live ip now with
    | some e =>
      match e.state with
      | .verified n => .inl (.goodBotVerified n)
      | .rejected => .inl (.goodBotSpoofed bot.name)
      | .pending => .inl .goodBotPending
    | none => .inr bot := by
  have hempty : ¬ ua.isEmpty = true := by
    intro h
    rw [List.isEmpty_iff.mp h, claimedBot_nil] at hbot
    cases hbot
  rw [read, if_neg hempty, hbot]

/-- Whoever claims no crawler is none. -/
lemma read_of_unclaimed (hbot : claimedBot ua = none) : g.read ip ua now = .inl .notABot := by
  rw [read, hbot]
  exact ite_self _

/-- The verdict on a call that claims a crawler is the state of the live entry. -/
lemma classify_verified_iff {name : Str} : (g.classify ip ua now).1 = .goodBotVerified name ↔
    (∃ bot, claimedBot ua = some bot) ∧ ∃ e, g.live ip now = some e ∧ e.state = .verified name := by
  rw [classify_eq]
  cases hbot : claimedBot ua with
  | none => simp [read_of_unclaimed hbot]
  | some bot =>
    rw [read_of_claimed hbot]
    cases hlive : g.live ip now with
    | none => simp
    | some e => cases hstate : e.state <;> simp [hstate]

/-- A call is told spoofed iff it claims a crawler and a live entry rejects the address. -/
lemma classify_spoofed_iff {name : Str} : (g.classify ip ua now).1 = .goodBotSpoofed name ↔
    (∃ bot, claimedBot ua = some bot ∧ bot.name = name) ∧
      ∃ e, g.live ip now = some e ∧ e.state = .rejected := by
  rw [classify_eq]
  cases hbot : claimedBot ua with
  | none => simp [read_of_unclaimed hbot]
  | some bot =>
    rw [read_of_claimed hbot]
    cases hlive : g.live ip now with
    | none => simp
    | some e => cases hstate : e.state <;> simp [hstate]

end GoodBotVerifier

/-! ## Runs -/

/-- A call that is about to insert a pending entry, and the step in which it has read the cache. -/
structure Call where
  ip : IpAddr
  bot : Bot
  now : Nat
  step : Nat

/-- A lookup in flight, the time of its pending entry and the step in which that was inserted. -/
structure Task where
  lookup : Lookup
  now : Nat
  step : Nat

/-- What the resolver answers to a lookup, and whether its blocking task fails. -/
structure Dns where
  addr : Option Str
  host : Str → Option (List IpAddr)
  crashed : Bool := false

/-- A lookup that has completed. -/
structure Done where
  task : Task
  dns : Dns
  time : Nat

structure Desk where
  verifier : GoodBotVerifier := {}
  waiting : List Call := []
  running : List Task := []
  done : List Done := []
  steps : Nat := 0

/-- A call reads the cache, a call goes on, or a lookup completes. -/
inductive Op where
  | classify (ip : IpAddr) (ua : Str)
  | insert (i : Nat)
  | complete (i : Nat) (dns : Dns)

def Task.ip (t : Task) : IpAddr := t.lookup.ip

/-- The end of the pending entry of a lookup. -/
def Task.expires (t : Task) : Nat := (t.now + PENDING_TTL_SECS) % 2 ^ 64

namespace Done

def ip (c : Done) : IpAddr := c.task.lookup.ip

def outcome (c : Done) : Option (Bool × Str) :=
  if c.dns.crashed then none
  else some (GoodBotVerifier.verifyBlocking c.dns.addr c.dns.host c.task.lookup)

def passed (c : Done) : Bool := (c.outcome.map Prod.fst).getD false

/-- The host name that was found, in lower case. -/
def ptr (c : Done) : Str := (c.outcome.map Prod.snd).getD []

/-- The entry that a lookup leaves in the cache. -/
def entry (c : Done) : CacheEntry :=
  match c.outcome with
  | some (true, ptr) => ⟨.verified c.task.lookup.name, (c.time + POSITIVE_TTL_SECS) % 2 ^ 64, some ptr⟩
  | some (false, ptr) =>
    ⟨.rejected, (c.time + NEGATIVE_TTL_SECS) % 2 ^ 64, if ptr.isEmpty then none else some ptr⟩
  | none => ⟨.rejected, (c.time + NEGATIVE_TTL_SECS) % 2 ^ 64, none⟩

/-- A lookup that passed verifies the address for an hour. -/
lemma entry_of_passed {c : Done} (h : c.passed = true) :
    c.entry.state = .verified c.task.lookup.name ∧
      c.entry.expiresAt = (c.time + POSITIVE_TTL_SECS) % 2 ^ 64 := by
  rw [passed] at h
  rw [entry]
  generalize c.outcome = outcome at h ⊢
  obtain _ | ⟨_ | _, ptr⟩ := outcome
  · cases h
  · cases h
  · exact ⟨rfl, rfl⟩

/-- One that failed rejects it. -/
lemma entry_of_failed {c : Done} (h : c.passed = false) : c.entry.state = .rejected := by
  rw [passed] at h
  rw [entry]
  generalize c.outcome = outcome at h ⊢
  obtain _ | ⟨_ | _, ptr⟩ := outcome
  · rfl
  · rfl
  · cases h

/-- A lookup that passed suits a crawler that has a suffix of its host name, one that failed a crawler
with the suffixes that it was made with. -/
def Suits (c : Done) (bot : Bot) : Prop :=
  if c.passed then ∃ s ∈ bot.suffixes, endsWith c.ptr s else c.task.lookup.suffixes = bot.suffixes

end Done

namespace Desk

def step (d : Desk) (o : Nat × Op) : Desk :=
  match o.2 with
  | .classify ip ua =>
    match d.verifier.read ip ua o.1 with
    | .inl _ => { d with steps := d.steps + 1 }
    | .inr bot =>
      { d with waiting := d.waiting ++ [⟨ip, bot, o.1, d.steps⟩], steps := d.steps + 1 }
  | .insert i =>
    match d.waiting[i]? with
    | none => { d with steps := d.steps + 1 }
    | some c =>
      { d with
        verifier := d.verifier.start c.ip c.bot c.now
        waiting := d.waiting.eraseIdx i
        running := d.running ++ [⟨⟨c.ip, c.bot.suffixes, c.bot.name⟩, c.now, d.steps⟩]
        steps := d.steps + 1 }
  | .complete i dns =>
    match d.running[i]? with
    | none => { d with steps := d.steps + 1 }
    | some t =>
      { d with
        verifier := d.verifier.complete t.lookup (Done.mk t dns o.1).outcome o.1
        running := d.running.eraseIdx i
        done := d.done ++ [⟨t, dns, o.1⟩]
        steps := d.steps + 1 }

def run (ops : List (Nat × Op)) : Desk := ops.foldl step {}

/-! ## One lookup at a time -/

/-- No address has two lookups in flight. -/
def Single (d : Desk) : Prop := d.running.Pairwise fun t t' => t.ip ≠ t'.ip

/-- The lookups of an address have completed in the order in which they were started. -/
def InOrder (d : Desk) : Prop :=
  d.done.Pairwise fun c c' => c.ip = c'.ip → c.task.step < c'.task.step

/-- A call has read the cache before the pending entry of a lookup was inserted, or when it had
expired. -/
def Overtakes (c : Call) (t : Task) : Prop := c.step < t.step ∨ t.expires ≤ c.now

/-- What a call overtakes has completed when it goes on. -/
def Clear (d : Desk) (i : Nat) : Prop :=
  ∀ c ∈ d.waiting[i]?, ∀ t ∈ d.running, t.ip = c.ip → ¬ Overtakes c t

/-- The pending entries of the lookups in flight are in the cache, and the calls that go on overtake
them. -/
structure Guarded (d : Desk) : Prop where
  single : d.Single
  inOrder : d.InOrder
  entry : ∀ t ∈ d.running, d.verifier.cache.lookup t.ip = some ⟨.pending, t.expires, none⟩
  waiting : ∀ c ∈ d.waiting, ∀ t ∈ d.running, t.ip = c.ip → Overtakes c t
  done : ∀ c ∈ d.done, ∀ t ∈ d.running, t.ip = c.ip → c.task.step < t.step
  called : ∀ c ∈ d.waiting, c.step < d.steps
  started : ∀ t ∈ d.running, t.step < d.steps
  ended : ∀ c ∈ d.done, c.task.step < d.steps

variable {d : Desk} {ip : IpAddr} {ua : Str} {now i : Nat} {dns : Dns} {ops : List (Nat × Op)}

lemma guarded_start : Guarded {} :=
  ⟨.nil, .nil, nofun, nofun, nofun, nofun, nofun, nofun⟩

/-- A step in which nothing happens. -/
lemma Guarded.tick (h : d.Guarded) : Guarded { d with steps := d.steps + 1 } where
  single := h.single
  inOrder := h.inOrder
  entry := h.entry
  waiting := h.waiting
  done := h.done
  called c hc := (h.called c hc).trans (Nat.lt_succ_self _)
  started t ht := (h.started t ht).trans (Nat.lt_succ_self _)
  ended c hc := (h.ended c hc).trans (Nat.lt_succ_self _)

/-- A call goes on only when there is no live entry. -/
lemma read_inr {g : GoodBotVerifier} {bot : Bot} (h : g.read ip ua now = .inr bot) :
    g.live ip now = none ∧ claimedBot ua = some bot := by
  rw [GoodBotVerifier.read] at h
  split at h
  case isTrue => cases h
  case isFalse =>
    split at h
    case h_1 => cases h
    case h_2 bot' hbot =>
      split at h
      case h_1 e _ =>
        split at h
        · cases h
        · cases h
        · cases h
      case h_2 hlive =>
        cases h
        exact ⟨hlive, hbot⟩

/-- A call keeps the lookups guarded. -/
lemma guarded_classify (h : d.Guarded) : (d.step (now, .classify ip ua)).Guarded := by
  cases hread : d.verifier.read ip ua now with
  | inl v =>
    have hstep : d.step (now, .classify ip ua) = { d with steps := d.steps + 1 } := by
      simp only [step, hread]
    rw [hstep]
    exact h.tick
  | inr bot =>
    have hstep : d.step (now, .classify ip ua) =
        { d with waiting := d.waiting ++ [⟨ip, bot, now, d.steps⟩], steps := d.steps + 1 } := by
      simp only [step, hread]
    obtain ⟨hlive, -⟩ := read_inr hread
    rw [hstep]
    refine { h.tick with waiting := fun c hc t ht hip => ?_, called := fun c hc => ?_ }
    · obtain hc | hc := List.mem_append.mp hc
      · exact h.waiting c hc t ht hip
      · obtain rfl := List.mem_singleton.mp hc
        refine .inr ?_
        have hentry := h.entry t ht
        rw [hip] at hentry
        rw [GoodBotVerifier.live, HashMap.get, hentry, Option.filter_some] at hlive
        split at hlive
        case isTrue => cases hlive
        case isFalse hnot => exact Nat.not_lt.mp fun hlt => hnot (decide_eq_true hlt)
    · obtain hc | hc := List.mem_append.mp hc
      · exact (h.called c hc).trans (Nat.lt_succ_self _)
      · obtain rfl := List.mem_singleton.mp hc
        exact Nat.lt_succ_self _

/-- What inserting a key changes. -/
lemma step_insert {c : Call} (hget : d.waiting[i]? = some c) : d.step (now, .insert i) =
    { d with
      verifier := d.verifier.start c.ip c.bot c.now
      waiting := d.waiting.eraseIdx i
      running := d.running ++ [⟨⟨c.ip, c.bot.suffixes, c.bot.name⟩, c.now, d.steps⟩]
      steps := d.steps + 1 } := by
  simp only [step, hget]

/-- A clear insertion keeps the lookups guarded. -/
lemma guarded_insert (now : Nat) (h : d.Guarded) (hclear : d.Clear i) :
    (d.step (now, .insert i)).Guarded := by
  cases hget : d.waiting[i]? with
  | none =>
    have hstep : d.step (now, .insert i) = { d with steps := d.steps + 1 } := by
      simp only [step, hget]
    rw [hstep]
    exact h.tick
  | some c =>
    have hfree : ∀ t ∈ d.running, t.ip ≠ c.ip := fun t ht hip =>
      hclear c hget t ht hip (h.waiting c (List.mem_of_getElem? hget) t ht hip)
    rw [step_insert hget]
    constructor
    case single =>
      refine List.pairwise_append.mpr ⟨h.single, List.pairwise_singleton _ _, fun t ht t' ht' => ?_⟩
      obtain rfl := List.mem_singleton.mp ht'
      exact hfree t ht
    case inOrder => exact h.inOrder
    case entry =>
      intro t ht
      obtain ht | ht := List.mem_append.mp ht
      · exact (AList.lookup_insert_ne (hfree t ht)).trans (h.entry t ht)
      · obtain rfl := List.mem_singleton.mp ht
        exact AList.lookup_insert _
    case waiting =>
      intro c' hc' t ht hip
      have hc' := List.mem_of_mem_eraseIdx hc'
      obtain ht | ht := List.mem_append.mp ht
      · exact h.waiting c' hc' t ht hip
      · obtain rfl := List.mem_singleton.mp ht
        exact .inl (h.called c' hc')
    case done =>
      intro c' hc' t ht hip
      obtain ht | ht := List.mem_append.mp ht
      · exact h.done c' hc' t ht hip
      · obtain rfl := List.mem_singleton.mp ht
        exact h.ended c' hc'
    case called =>
      exact fun c' hc' => (h.called c' (List.mem_of_mem_eraseIdx hc')).trans (Nat.lt_succ_self _)
    case started =>
      intro t ht
      obtain ht | ht := List.mem_append.mp ht
      · exact (h.started t ht).trans (Nat.lt_succ_self _)
      · obtain rfl := List.mem_singleton.mp ht
        exact Nat.lt_succ_self _
    case ended => exact fun c' hc' => (h.ended c' hc').trans (Nat.lt_succ_self _)

/-- What completing a lookup changes. -/
lemma step_complete {t : Task} (hget : d.running[i]? = some t) : d.step (now, .complete i dns) =
    { d with
      verifier := d.verifier.complete t.lookup (Done.mk t dns now).outcome now
      running := d.running.eraseIdx i
      done := d.done ++ [⟨t, dns, now⟩]
      steps := d.steps + 1 } := by
  simp only [step, hget]

/-- The other lookups in flight are of other addresses. -/
lemma Single.others {t t' : Task} (h : d.Single) (hget : d.running[i]? = some t)
    (ht' : t' ∈ d.running.eraseIdx i) : t'.ip ≠ t.ip := by
  obtain ⟨hi, rfl⟩ := List.getElem?_eq_some_iff.mp hget
  have hperm := List.getElem_cons_eraseIdx_perm hi
  have hpair := (hperm.pairwise_iff fun h => Ne.symm h).mpr h
  exact ((List.pairwise_cons.mp hpair).1 t' ht').symm

/-- A completed lookup keeps the others guarded. -/
lemma guarded_complete (h : d.Guarded) : (d.step (now, .complete i dns)).Guarded := by
  cases hget : d.running[i]? with
  | none =>
    have hstep : d.step (now, .complete i dns) = { d with steps := d.steps + 1 } := by
      simp only [step, hget]
    rw [hstep]
    exact h.tick
  | some t =>
    have ht := List.mem_of_getElem? hget
    have hmem : ∀ t' ∈ d.running.eraseIdx i, t' ∈ d.running := fun _ => List.mem_of_mem_eraseIdx
    rw [step_complete hget]
    constructor
    case single => exact h.single.sublist (List.eraseIdx_sublist _ _)
    case inOrder =>
      refine List.pairwise_append.mpr ⟨h.inOrder, List.pairwise_singleton _ _, fun c hc c' hc' => ?_⟩
      obtain rfl := List.mem_singleton.mp hc'
      exact fun hip => h.done c hc t ht hip.symm
    case entry =>
      intro t' ht'
      exact (AList.lookup_insert_ne (h.single.others hget ht')).trans (h.entry t' (hmem t' ht'))
    case waiting => exact fun c hc t' ht' => h.waiting c hc t' (hmem t' ht')
    case done =>
      intro c hc t' ht' hip
      obtain hc | hc := List.mem_append.mp hc
      · exact h.done c hc t' (hmem t' ht') hip
      · obtain rfl := List.mem_singleton.mp hc
        cases h.single.others hget ht' hip
    case called => exact h.tick.called
    case started => exact fun t' ht' => h.tick.started t' (hmem t' ht')
    case ended =>
      intro c hc
      obtain hc | hc := List.mem_append.mp hc
      · exact h.tick.ended c hc
      · obtain rfl := List.mem_singleton.mp hc
        exact (h.started t ht).trans (Nat.lt_succ_self _)

lemma guarded_run (h : ∀ pre now i, pre ++ [(now, .insert i)] <+: ops → (run pre).Clear i) :
    (run ops).Guarded := by
  induction ops using List.reverseRecOn with
  | nil => exact guarded_start
  | append_singleton ops o ih =>
    have hguarded := ih fun pre now i hpre => h pre now i (hpre.trans (List.prefix_append ops [o]))
    rw [run, List.foldl_append]
    obtain ⟨now, op⟩ := o
    cases op with
    | classify ip ua => exact guarded_classify hguarded
    | insert i => exact guarded_insert now hguarded (h ops now i List.prefix_rfl)
    | complete i dns => exact guarded_complete hguarded

/-- A call that goes on while a lookup of its address is in flight starts a second one. -/
lemma clear_of_single (now : Nat) (h : (d.step (now, .insert i)).Single) : d.Clear i := by
  intro c hget t ht hip _
  rw [Single, step_insert hget] at h
  obtain ⟨-, -, hcross⟩ := List.pairwise_append.mp h
  exact hcross t ht _ (List.mem_singleton_self _) hip

/-- No address ever has two lookups in flight, and none overwrites the verdict of a later one, iff
what a call overtakes has always completed when the call goes on. -/
theorem single_flight_iff : (∀ pre, pre <+: ops → (run pre).Single ∧ (run pre).InOrder) ↔
    ∀ pre now i, pre ++ [(now, .insert i)] <+: ops → (run pre).Clear i := by
  constructor
  · intro h pre now i hpre
    have hsingle := (h _ hpre).1
    rw [run, List.foldl_append] at hsingle
    exact clear_of_single now hsingle
  · intro h pre hpre
    have hguarded := guarded_run fun pre' now i hpre' => h pre' now i (hpre'.trans hpre)
    exact ⟨hguarded.single, hguarded.inOrder⟩

def crawler : IpAddr := .v4 (.new 157 55 39 1)

/-- A lookup that takes longer than its pending entry lives is joined by a second one. -/
theorem slow_lookup_doubled :
    ¬ ∀ pre, pre <+: [(1000, .classify crawler "googlebot"), (1000, .insert 0),
        (1030, .classify crawler "googlebot"), (1030, .insert 0)] →
      (run pre).Single ∧ (run pre).InOrder := by
  intro h
  have hrunning : (run [(1000, .classify crawler "googlebot"), (1000, .insert 0),
      (1030, .classify crawler "googlebot"), (1030, .insert 0)]).running.map Task.ip =
      [crawler, crawler] := by decide
  have hsingle := List.pairwise_map.mpr (h _ List.prefix_rfl).1
  rw [hrunning] at hsingle
  exact (List.pairwise_cons.mp hsingle).1 _ (List.mem_singleton_self _) rfl

/-! ## Verdicts -/

/-- The last lookup of an address to complete. -/
def last (d : Desk) (ip : IpAddr) : Option Done := (d.done.filter fun c => c.ip = ip).getLast?

/-- The lookup whose result answers the calls for an address. -/
def Answers (d : Desk) (ip : IpAddr) (now : Nat) (c : Done) : Prop :=
  d.last ip = some c ∧ d.verifier.live ip now = some c.entry

/-- A crawler is verified after a lookup of the last hour whose host name has a suffix of the crawler
that is claimed, and spoofed after a lookup with its suffixes that has failed. -/
def Justified (d : Desk) (ip : IpAddr) (ua : Str) (now : Nat) : Prop :=
  (∀ name, (d.verifier.classify ip ua now).1 = .goodBotVerified name →
    ∃ bot ∈ claimedBot ua, ∃ c ∈ d.done, c.ip = ip ∧ now < c.time + POSITIVE_TTL_SECS ∧
      c.passed = true ∧ ∃ s ∈ bot.suffixes, endsWith c.ptr s) ∧
  ∀ name, (d.verifier.classify ip ua now).1 = .goodBotSpoofed name →
    ∃ bot ∈ claimedBot ua, ∃ c ∈ d.done, c.ip = ip ∧ c.passed = false ∧
      c.task.lookup.suffixes = bot.suffixes

/-- A lookup with the outcome of the one that answers a call, that one or another, suits the crawler that
is claimed. -/
def Suited (d : Desk) (ip : IpAddr) (ua : Str) (now : Nat) : Prop :=
  ∀ bot ∈ claimedBot ua, ∀ c, d.Answers ip now c →
    ∃ c' ∈ d.done, c'.ip = ip ∧ c'.passed = c.passed ∧
      (c.passed = true → now < c'.time + POSITIVE_TTL_SECS) ∧ c'.Suits bot

/-- An entry that is not pending is that of the last lookup of its address. -/
def Recorded (d : Desk) : Prop :=
  ∀ ip, ∀ e ∈ d.verifier.cache.lookup ip, e.state = .pending ∨ ∃ c ∈ d.last ip, e = c.entry

lemma recorded_start : Recorded {} := nofun

/-- The record depends on the cache and the completed lookups. -/
lemma Recorded.of_eq {d' : Desk} (h : d.Recorded) (hverifier : d'.verifier = d.verifier)
    (hdone : d'.done = d.done) : d'.Recorded := by
  intro ip e he
  rw [hverifier] at he
  rw [last, hdone]
  exact h ip e he

lemma last_concat {c : Done} {l : List Done} (hdone : d.done = l ++ [c]) : d.last ip =
    if c.ip = ip then some c else (l.filter fun c => c.ip = ip).getLast? := by
  rw [last, hdone, List.filter_append]
  by_cases hip : c.ip = ip
  case pos =>
    rw [if_pos hip, List.filter_cons, if_pos (decide_eq_true hip), List.filter_nil]
    exact List.getLast?_concat
  case neg =>
    rw [if_neg hip, List.filter_cons, if_neg fun h => hip (of_decide_eq_true h), List.filter_nil,
      List.append_nil]

/-- A step keeps the record. -/
lemma recorded_step (h : d.Recorded) (o : Nat × Op) : (d.step o).Recorded := by
  obtain ⟨now, op⟩ := o
  cases op with
  | classify ip ua =>
    cases hread : d.verifier.read ip ua now with
    | inl v => exact h.of_eq (by simp only [step, hread]) (by simp only [step, hread])
    | inr bot => exact h.of_eq (by simp only [step, hread]) (by simp only [step, hread])
  | insert i =>
    cases hget : d.waiting[i]? with
    | none => exact h.of_eq (by simp only [step, hget]) (by simp only [step, hget])
    | some c =>
      rw [step_insert hget]
      intro ip e he
      by_cases hip : ip = c.ip
      case pos =>
        subst hip
        obtain rfl := Option.some.inj ((AList.lookup_insert _).symm.trans he)
        exact .inl rfl
      case neg => exact h ip e ((AList.lookup_insert_ne hip).symm.trans he)
  | complete i dns =>
    cases hget : d.running[i]? with
    | none => exact h.of_eq (by simp only [step, hget]) (by simp only [step, hget])
    | some t =>
      rw [step_complete hget]
      intro ip e he
      rw [last_concat rfl]
      by_cases hip : t.ip = ip
      case pos =>
        subst hip
        obtain rfl := Option.some.inj ((AList.lookup_insert _).symm.trans he)
        rw [if_pos (show (Done.mk t dns now).ip = t.ip from rfl)]
        exact .inr ⟨_, rfl, rfl⟩
      case neg =>
        rw [if_neg (show (Done.mk t dns now).ip ≠ ip from hip)]
        exact h ip e ((AList.lookup_insert_ne (Ne.symm hip)).symm.trans he)

lemma recorded_run : (run ops).Recorded := by
  rw [run]
  induction ops using List.reverseRecOn with
  | nil => exact recorded_start
  | append_singleton ops o ih =>
    rw [List.foldl_append]
    exact recorded_step ih o

/-- A crawler is verified or spoofed from the entry of the lookup that answers. -/
lemma Recorded.answers (h : d.Recorded) {e : CacheEntry} (hlive : d.verifier.live ip now = some e)
    (hstate : e.state ≠ .pending) : ∃ c, d.Answers ip now c ∧ e = c.entry := by
  have hentry := (Option.filter_eq_some_iff.mp hlive).1
  obtain hpending | ⟨c, hlast, rfl⟩ := h ip e hentry
  · cases hstate hpending
  · exact ⟨c, ⟨hlast, hlive⟩, rfl⟩

/-- A lookup that passed suits the crawlers whose suffixes the name has. -/
lemma suits_of_passed {c : Done} {bot : Bot} (h : c.passed = true) :
    c.Suits bot ↔ ∃ s ∈ bot.suffixes, endsWith c.ptr s := by
  rw [Done.Suits, if_pos h]

/-- One that failed suits those with the same suffixes. -/
lemma suits_of_failed {c : Done} {bot : Bot} (h : c.passed = false) :
    c.Suits bot ↔ c.task.lookup.suffixes = bot.suffixes := by
  rw [Done.Suits, if_neg (by rw [h]; exact Bool.false_ne_true)]

/-- A justified verdict has a lookup that suits it. -/
lemma suited_of_justified (h : d.Justified ip ua now) : d.Suited ip ua now := by
  intro bot hbot c hanswers
  cases hpassed : c.passed with
  | true =>
    obtain ⟨bot', hbot', c', hc', hip, hrecent, hpassed', hsuffix⟩ := h.1 c.task.lookup.name
      (GoodBotVerifier.classify_verified_iff.mpr
        ⟨⟨bot, hbot⟩, c.entry, hanswers.2, (Done.entry_of_passed hpassed).1⟩)
    obtain rfl := Option.mem_unique hbot hbot'
    exact ⟨c', hc', hip, hpassed', fun _ => hrecent, (suits_of_passed hpassed').mpr hsuffix⟩
  | false =>
    obtain ⟨bot', hbot', c', hc', hip, hfailed, hsuffixes⟩ := h.2 bot.name
      (GoodBotVerifier.classify_spoofed_iff.mpr
        ⟨⟨bot, hbot, rfl⟩, c.entry, hanswers.2, Done.entry_of_failed hpassed⟩)
    obtain rfl := Option.mem_unique hbot hbot'
    exact ⟨c', hc', hip, hfailed, nofun, (suits_of_failed hfailed).mpr hsuffixes⟩

/-- With a lookup that suits, a recorded verdict is justified. -/
lemma justified_of_suited (hrecorded : d.Recorded) (h : d.Suited ip ua now) :
    d.Justified ip ua now := by
  constructor
  · intro name hverdict
    obtain ⟨⟨bot, hbot⟩, e, hlive, hstate⟩ := GoodBotVerifier.classify_verified_iff.mp hverdict
    obtain ⟨c, hanswers, rfl⟩ := hrecorded.answers hlive (by rw [hstate]; nofun)
    have hpassed : c.passed = true := by
      by_contra hfailed
      rw [Done.entry_of_failed (Bool.not_eq_true _ ▸ hfailed)] at hstate
      cases hstate
    obtain ⟨c', hc', hip, hsame, hrecent, hsuits⟩ := h bot hbot c hanswers
    have hpassed' := hsame.trans hpassed
    exact ⟨bot, hbot, c', hc', hip, hrecent hpassed, hpassed', (suits_of_passed hpassed').mp hsuits⟩
  · intro name hverdict
    obtain ⟨⟨bot, hbot, rfl⟩, e, hlive, hstate⟩ := GoodBotVerifier.classify_spoofed_iff.mp hverdict
    obtain ⟨c, hanswers, rfl⟩ := hrecorded.answers hlive (by rw [hstate]; nofun)
    have hfailed : c.passed = false := by
      by_contra hpassed
      rw [(Done.entry_of_passed (Bool.not_eq_false _ ▸ hpassed)).1] at hstate
      cases hstate
    obtain ⟨c', hc', hip, hsame, -, hsuits⟩ := h bot hbot c hanswers
    have hfailed' := hsame.trans hfailed
    exact ⟨bot, hbot, c', hc', hip, hfailed', (suits_of_failed hfailed').mp hsuits⟩

/-- The verdicts of a run are justified iff the lookups that answer the calls suit them. -/
theorem justified_iff :
    (∀ pre now ip ua, pre ++ [(now, .classify ip ua)] <+: ops → (run pre).Justified ip ua now) ↔
    ∀ pre now ip ua, pre ++ [(now, .classify ip ua)] <+: ops → (run pre).Suited ip ua now := by
  constructor
  · exact fun h pre now ip ua hpre => suited_of_justified (h pre now ip ua hpre)
  · exact fun h pre now ip ua hpre => justified_of_suited recorded_run (h pre now ip ua hpre)

/-- A crawler is verified by its name, and then the address calls itself another one. -/
def borrowed : List (Nat × Op) := [
  (1000, .classify crawler "bingbot"),
  (1000, .insert 0),
  (1001, .complete 0 ⟨some "msnbot.search.msn.com", fun _ => some [crawler], false⟩),
  (1002, .classify crawler "googlebot")]

/-- An address that a lookup has found to be of one crawler is verified as any other. -/
theorem borrowed_verified : ¬ ∀ pre now ip ua, pre ++ [(now, .classify ip ua)] <+: borrowed →
    (run pre).Justified ip ua now := by
  intro h
  have hjustified := h (borrowed.take 3) 1002 crawler "googlebot" List.prefix_rfl
  obtain ⟨bot, hbot, c, hc, -, -, -, s, hs, hsuffix⟩ := hjustified.1 "Bingbot" (by decide)
  have hnone : ∀ bot ∈ claimedBot "googlebot", ∀ c ∈ (run (borrowed.take 3)).done,
      ∀ s ∈ bot.suffixes, endsWith c.ptr s = false := by decide
  rw [hnone bot hbot c hc s hs] at hsuffix
  cases hsuffix

end Desk

end Goodbot

end Waf
