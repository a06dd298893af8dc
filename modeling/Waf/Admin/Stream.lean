import Waf.Events

/-!
# The live stream

A connection of `stream_events` in `admin.rs` reads the events after the last one it has sent out of
the ring, once a second. Its cursor is the millisecond of the last event of a batch, and `since`
compares with `>`. So an event is skipped when it is recorded with a millisecond that the cursor has
reached, and one is repeated when an earlier one stands behind it in a batch.

To tell equal events apart, the events of a run are numbered. The numbered run is one of a feed
(`Feed`), of which the stream is the erasure (`streamed_erases`).
-/

namespace Waf
open Lib

/-- The ring, `last_event_ts` and the events of each message. -/
structure Stream where
  log : EventLog
  lastEventTs : Nat := 0
  sent : List (List Event) := []

/-- A decision is recorded, or the interval of the loop ticks. -/
inductive StreamOp where
  | record (ctx : RequestCtx) (d : Decision) (nowMs : Nat)
  | tick

namespace Stream

def step (s : Stream) : StreamOp → Stream
  | .record ctx d nowMs => { s with log := s.log.record ctx d nowMs }
  | .tick =>
    let evs := s.log.since s.lastEventTs 200
    { s with
      lastEventTs := (evs.getLast?.map Event.tsMs).getD s.lastEventTs
      sent := s.sent ++ [evs] }

/-- A run of the loop, and of the calls that record. -/
def run (s : Stream) (ops : List StreamOp) : Stream := ops.foldl step s

/-- A stream after its first poll. -/
def connect (log : EventLog) : Stream := ({ log } : Stream).step .tick

end Stream

/-! ## The numbered run -/

/-- The millisecond of a numbered event. -/
def stampOf (x : Event × Nat) : Nat := x.1.tsMs

/-- The steps of a run, with the recorded events numbered from `n` on. -/
def numbered : Nat → List StreamOp → List (FeedOp (Event × Nat))
  | _, [] => []
  | n, .record ctx d nowMs :: ops =>
    .record (Event.ofDecision ctx d nowMs, n) :: numbered (n + 1) ops
  | n, .tick :: ops => .poll :: numbered n ops

namespace EventLog
variable (log : EventLog)

/-- A ring whose events are numbered, after the first poll of a stream. -/
def feed : Feed (Event × Nat) :=
  Feed.step stampOf log.cap 200 { queue := log.inner.zipIdx } .poll

/-- The steps of a run, in which the events of the ring come first. -/
def feedOps (ops : List StreamOp) : List (FeedOp (Event × Nat)) := numbered log.inner.length ops

/-- A run after the first poll. -/
def streamed (ops : List StreamOp) : Feed (Event × Nat) :=
  log.feed.run stampOf log.cap 200 (log.feedOps ops)

end EventLog

/-- A stream is a feed without its numbers. -/
structure Erases (f : Feed (Event × Nat)) (s : Stream) : Prop where
  queue : f.queue.map Prod.fst = s.log.inner
  cursor : f.cursor = s.lastEventTs
  sent : f.sent.map (List.map Prod.fst) = s.sent

variable {f : Feed (Event × Nat)} {s : Stream} {log : EventLog} {ops : List StreamOp} {n cap : Nat}

/-- A bounded list of images is that of the elements. -/
lemma pushCapped_map {α β : Type} {g : α → β} {xs : List α} {x : α} :
    (pushCapped cap xs x).map g = pushCapped cap (xs.map g) (g x) := by
  rw [pushCapped, pushCapped, List.map_append, List.length_map]
  split
  case isTrue => rw [List.map_drop]; rfl
  case isFalse => rfl

/-- A record keeps the feed that of the log, without the numbers. -/
lemma erases_record {ctx : RequestCtx} {d : Decision} {nowMs : Nat} (h : Erases f s) :
    Erases (f.step stampOf s.log.cap 200 (.record (Event.ofDecision ctx d nowMs, n)))
      (s.step (.record ctx d nowMs)) where
  queue := by
    show (pushCapped s.log.cap f.queue _).map Prod.fst = pushCapped s.log.cap s.log.inner _
    rw [pushCapped_map, h.queue]
  cursor := h.cursor
  sent := h.sent

lemma erases_poll (h : Erases f s) :
    Erases (f.step stampOf cap 200 .poll) (s.step .tick) := by
  have hbatch : (f.batch stampOf 200).map Prod.fst = s.log.since s.lastEventTs 200 := by
    rw [EventLog.since, ← h.queue, ← h.cursor]
    exact later_map
  have hlast : (f.batch stampOf 200).getLast?.map stampOf
      = (s.log.since s.lastEventTs 200).getLast?.map Event.tsMs := by
    rw [← hbatch, List.getLast?_map, Option.map_map]
    rfl
  refine ⟨h.queue, ?_, ?_⟩
  · show ((f.batch stampOf 200).getLast?.map stampOf).getD f.cursor = _
    rw [hlast, h.cursor]
    rfl
  · show (f.sent ++ [f.batch stampOf 200]).map (List.map Prod.fst) = _
    rw [List.map_append, h.sent, List.map_singleton, hbatch]
    rfl

lemma erases_run (h : Erases f s) (hcap : s.log.cap = cap) :
    Erases (f.run stampOf cap 200 (numbered n ops)) (s.run ops) := by
  induction ops generalizing f s n with
  | nil => exact h
  | cons op ops ih =>
    cases op with
    | record ctx d nowMs => exact ih (hcap ▸ erases_record h) hcap
    | tick => exact ih (erases_poll h) hcap

/-- The run of a stream is its numbered run without the numbers. -/
lemma streamed_erases : Erases (log.streamed ops) ((Stream.connect log).run ops) := by
  refine erases_run (erases_poll ⟨?_, rfl, rfl⟩) rfl
  exact List.zipIdx_map_fst ..

/-! ## Numbers are not used twice -/

/-- All numbers are below the next one. -/
structure Below (n : Nat) (f : Feed (Event × Nat)) : Prop where
  queue : ∀ x ∈ f.queue, x.2 < n
  news : ∀ x ∈ f.news, x.2 < n
  sent : ∀ b ∈ f.sent, ∀ x ∈ b, x.2 < n

/-- A record takes the next number. -/
lemma below_record {ev : Event} (h : Below n f) :
    Below (n + 1) (f.step stampOf cap 200 (.record (ev, n))) := by
  have hlt : ∀ {x : Event × Nat}, x.2 < n → x.2 < n + 1 := fun hx => hx.trans (Nat.lt_succ_self n)
  refine ⟨fun x hx => ?_, fun x hx => ?_, fun b hb x hx => hlt (h.sent b hb x hx)⟩
  · obtain hx | rfl := Feed.mem_of_mem_record hx
    · exact hlt (h.queue x hx)
    · exact Nat.lt_succ_self n
  · obtain hx | hx := List.mem_append.mp hx
    · exact hlt (h.news x hx)
    · obtain rfl := List.mem_singleton.mp hx
      exact Nat.lt_succ_self n

/-- A poll takes none. -/
lemma below_poll (h : Below n f) : Below n (f.step stampOf cap 200 .poll) := by
  refine ⟨h.queue, h.news, fun b hb x hx => ?_⟩
  obtain hb | hb := List.mem_append.mp hb
  · exact h.sent b hb x hx
  · obtain rfl := List.mem_singleton.mp hb
    exact h.queue x (Feed.mem_pending.mp (Feed.mem_of_mem_batch hx)).1

/-- The next number is a new one. -/
lemma fresh_of_below {ev : Event} (h : Below n f) : f.Fresh (.record (ev, n)) := by
  refine ⟨fun hx => ?_, fun hx => ?_, Feed.times_eq_zero fun b hb hx => ?_⟩
  · exact absurd (h.queue _ hx) (lt_irrefl n)
  · exact absurd (h.news _ hx) (lt_irrefl n)
  · exact absurd (h.sent b hb _ hx) (lt_irrefl n)

/-- All numbers of a run are new. -/
lemma numbered_fresh (h : Below n f) :
    Feed.Each stampOf cap 200 Feed.Fresh f (numbered n ops) := by
  induction ops generalizing f n with
  | nil => exact trivial
  | cons op ops ih =>
    cases op with
    | record => exact ⟨fresh_of_below h, ih (below_record h)⟩
    | tick => exact ⟨trivial, ih (below_poll h)⟩

/-- The log is numbered from zero. -/
lemma below_feed : Below log.inner.length log.feed := by
  refine below_poll ⟨fun x hx => ?_, nofun, nofun⟩
  exact (List.mem_zipIdx' hx).1

lemma feedOps_fresh : Feed.Each stampOf log.cap 200 Feed.Fresh log.feed (log.feedOps ops) :=
  numbered_fresh below_feed

lemma numbered_append {pre post : List StreamOp} :
    ∃ m, numbered n (pre ++ post) = numbered n pre ++ numbered m post := by
  induction pre generalizing n with
  | nil => exact ⟨n, rfl⟩
  | cons op pre ih =>
    cases op with
    | record =>
      obtain ⟨m, hm⟩ := ih
      exact ⟨m, congrArg _ hm⟩
    | tick =>
      obtain ⟨m, hm⟩ := ih
      exact ⟨m, congrArg _ hm⟩

/-! ## Each event in one message -/

/-- No event that is recorded after the first poll leaves the ring while it is due. -/
def EventLog.Keeps (log : EventLog) (ops : List StreamOp) : Prop :=
  Feed.Each stampOf log.cap 200 (Feed.Lossless stampOf log.cap) log.feed (log.feedOps ops)

/-- Each event is recorded with a millisecond after the last event sent, and at each tick the events
due of which the message has room are those that are not later than the last of them. -/
def EventLog.InOrder (log : EventLog) (ops : List StreamOp) : Prop :=
  Feed.Each stampOf log.cap 200 (Feed.Sound stampOf 200) log.feed (log.feedOps ops)

/-- At the start everything is pending once. -/
lemma feed_exact : log.feed.Exact stampOf := nofun

/-- The messages of a stream are the batches of the numbered run. When none of the events recorded
after the first poll is due any more, each of them is in exactly one message iff the run is in order.
In such a run each event gets sent. -/
theorem streamed_once_iff (hkeeps : log.Keeps ops) :
    ((Stream.connect log).run ops).sent = (log.streamed ops).sent.map (List.map Prod.fst)
      ∧ ((∀ x ∈ (log.streamed ops).news, x ∉ (log.streamed ops).pending stampOf) →
        ((∀ x ∈ (log.streamed ops).news, (log.streamed ops).times x = 1) ↔ log.InOrder ops))
      ∧ (log.InOrder ops → ∀ pre post, ops = pre ++ post → ∀ x ∈ (log.streamed pre).news,
        (log.streamed pre).sent.length + ((log.streamed pre).pending stampOf).length
          ≤ (log.streamed ops).sent.length → (log.streamed ops).times x = 1) := by
  refine ⟨streamed_erases.sent.symm, fun hend => ?_, ?_⟩
  · exact Feed.times_iff_sound (by decide) feed_exact feedOps_fresh hkeeps hend
  · intro hsound pre post hops x hx hlen
    subst hops
    obtain ⟨m, hm⟩ : ∃ m, log.feedOps (pre ++ post) = log.feedOps pre ++ numbered m post :=
      numbered_append
    have hfresh : Feed.Each stampOf log.cap 200 Feed.Fresh log.feed (log.feedOps (pre ++ post)) :=
      feedOps_fresh
    rw [EventLog.Keeps, hm, Feed.each_append] at hkeeps
    rw [EventLog.InOrder, hm, Feed.each_append] at hsound
    rw [hm, Feed.each_append] at hfresh
    rw [EventLog.streamed, EventLog.streamed, hm, Feed.run_append] at hlen
    rw [EventLog.streamed, hm, Feed.run_append]
    refine Feed.run_times (by decide) ?_ hfresh.2 hkeeps.2 hsound.2 hx hlen
    exact Feed.run_exact (by decide) feed_exact hfresh.1 hkeeps.1 hsound.1

/-- Two requests of one millisecond, each of them followed by a tick. -/
def sameMillisecond : List StreamOp :=
  [.record pageCtx (Decision.allow "1") 1700000000000, .tick,
    .record pageCtx (Decision.allow "2") 1700000000000, .tick]

/-- The queue is long enough for the first sample. -/
lemma sameMillisecond_keeps : ({} : EventLog).Keeps sameMillisecond :=
  ⟨fun h => absurd h (by decide), trivial, fun h => absurd h (by decide), trivial, trivial⟩

/-- The second event of a millisecond is in no message. -/
theorem sameMillisecond_skipped : ¬ ∀ (log : EventLog) (ops : List StreamOp), log.Keeps ops →
    (∀ x ∈ (log.streamed ops).news, x ∉ (log.streamed ops).pending stampOf) →
      ∀ x ∈ (log.streamed ops).news, (log.streamed ops).times x = 1 := by
  intro h
  have hone := h {} sameMillisecond sameMillisecond_keeps (by decide)
    (Event.ofDecision pageCtx (Decision.allow "2") 1700000000000, 1) (by decide)
  have hzero : (({} : EventLog).streamed sameMillisecond).times
      (Event.ofDecision pageCtx (Decision.allow "2") 1700000000000, 1) = 0 := by decide
  exact absurd (hone.symm.trans hzero) (by decide)

/-- Two requests in the order of their milliseconds, each of them followed by a tick. -/
def twoMilliseconds : List StreamOp :=
  [.record pageCtx (Decision.allow "1") 1700000000000, .tick,
    .record pageCtx (Decision.allow "2") 1700000000001, .tick]

lemma twoMilliseconds_keeps : ({} : EventLog).Keeps twoMilliseconds :=
  ⟨fun h => absurd h (by decide), trivial, fun h => absurd h (by decide), trivial, trivial⟩

/-- Events of two milliseconds, with a poll in between. -/
theorem twoMilliseconds_once_iff :
    (∀ x ∈ (({} : EventLog).streamed twoMilliseconds).news,
        (({} : EventLog).streamed twoMilliseconds).times x = 1)
      ↔ ({} : EventLog).InOrder twoMilliseconds :=
  (streamed_once_iff twoMilliseconds_keeps).2.1 (by decide)

end Waf
