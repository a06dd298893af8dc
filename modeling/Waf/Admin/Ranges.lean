import Waf.Storage.Query
import Waf.Admin

/-!
# Events of a time range

`GET /api/events/range` reads a range from the query (`parse_range`) and asks SQLite for its newest
events, by a comparison of signed integers; without a store, or when the query fails, it answers with the
ring of recent events. A range whose end is past `2 ^ 63` ends before it begins when signed, and the ring
is not asked for the range at all. `range_iff` says when the answer is that of the range all the same.
-/

namespace Waf
open Lib

/-- Since when and until when. -/
def parseRange (q : HashMap Str Str) (nowMs : Nat) : Nat × Nat :=
  match (q.get "since").bind parseU64, (q.get "until").bind parseU64 with
  | some s, some u => (s, max u s)
  | _, _ =>
    let spanMs :=
      match (q.get "range").map String.ofList with
      | some "30m" => 30 * 60 * 1000
      | some "6h" => 6 * 3600 * 1000
      | some "24h" => 24 * 3600 * 1000
      | some "1h" => 3600 * 1000
      | _ => 30 * 60 * 1000
    (nowMs - spanMs, nowMs)

/-- The number of events that `route_timeframe` asks for. -/
def rangeLimit (q : HashMap Str Str) : Nat := min (((q.get "limit").bind parseU64).getD 500) 5000

/-- The newest events of the ring. -/
def EventLog.recent (log : EventLog) (n : Nat) : List Event := log.inner.reverse.take n

/-- No store, one that the query fails on, or the rows of one. -/
inductive Db where
  | closed
  | fails
  | rows (events : List Event)

/-- What `route_timeframe` may answer to `GET /api/events/range`. -/
def Responds (req : ParsedReq) (nowMs : Nat) (db : Db) (log : EventLog) (out : List Event) : Prop :=
  match db with
  | .rows events => QueryReadonly events (parseRange req.query nowMs).1 (parseRange req.query nowMs).2
    (rangeLimit req.query) out
  | .closed | .fails => out = log.recent (rangeLimit req.query)

/-- The events that the answer is about. -/
def Db.events (db : Db) (log : EventLog) : List Event :=
  match db with
  | .rows events => events
  | .closed | .fails => log.inner

/-- Is the event in the range of a request? -/
def inRange (req : ParsedReq) (nowMs : Nat) (e : Event) : Bool :=
  (parseRange req.query nowMs).1 ≤ e.tsMs ∧ e.tsMs ≤ (parseRange req.query nowMs).2

/-- There is an answer. -/
lemma exists_responds {req : ParsedReq} {nowMs : Nat} {db : Db} {log : EventLog} :
    ∃ out, Responds req nowMs db log out := by
  cases db with
  | closed => exact ⟨_, rfl⟩
  | fails => exact ⟨_, rfl⟩
  | rows events => exact exists_newest

/-- Every answer is the newest events of the range, newest first. -/
def ExactRange (req : ParsedReq) (nowMs : Nat) (db : Db) (log : EventLog) : Prop :=
  ∀ out, Responds req nowMs db log out →
    Newest Event.tsMs (inRange req nowMs) (rangeLimit req.query) (db.events log) out

variable {req : ParsedReq} {q : HashMap Str Str} {nowMs sinceMs untilMs : Nat} {db : Db}
  {log : EventLog} {events : List Event} {e e' : Event}

/-! ## The range of a request -/

lemma parseU64_lt {s : Str} {n : Nat} (h : parseU64 s = some n) : n < 2 ^ 64 := by
  rw [parseU64, parseNat] at h
  split at h
  case isTrue hcond =>
    cases h
    exact hcond.2.2
  case isFalse => cases h

/-- A range given by its bounds is that one. -/
lemma parseRange_given (hs : (q.get "since").bind parseU64 = some sinceMs)
    (hu : (q.get "until").bind parseU64 = some untilMs) (hle : sinceMs ≤ untilMs) :
    parseRange q nowMs = (sinceMs, untilMs) := by
  rw [parseRange, hs, hu]
  exact congrArg (sinceMs, ·) (Nat.max_eq_left hle)

/-- A range does not end before it begins, and fits in 64 bits. -/
lemma parseRange_le (hnow : nowMs < 2 ^ 64) :
    (parseRange q nowMs).1 ≤ (parseRange q nowMs).2 ∧ (parseRange q nowMs).2 < 2 ^ 64 := by
  have hspan : ∀ span : Nat, nowMs - span ≤ nowMs ∧ nowMs < 2 ^ 64 :=
    fun span => ⟨Nat.sub_le _ _, hnow⟩
  rw [parseRange]
  cases hs : (q.get "since").bind parseU64 with
  | none => exact hspan _
  | some s =>
    cases hu : (q.get "until").bind parseU64 with
    | none => exact hspan _
    | some u =>
      obtain ⟨text, -, htext⟩ := Option.bind_eq_some_iff.mp hs
      obtain ⟨text', -, htext'⟩ := Option.bind_eq_some_iff.mp hu
      exact ⟨Nat.le_max_right _ _, Nat.max_lt.mpr ⟨parseU64_lt htext', parseU64_lt htext⟩⟩

/-! ## Exact answers -/

/-- The store answers exactly iff the range is on one side of `2 ^ 63`, or there is nothing to answer. -/
lemma exactRange_rows_iff (hnow : nowMs < 2 ^ 64) (htimes : ∀ e ∈ events, e.tsMs < 2 ^ 64) :
    ExactRange req nowMs (.rows events) log
      ↔ ¬ ((parseRange req.query nowMs).1 < 2 ^ 63 ∧ 2 ^ 63 ≤ (parseRange req.query nowMs).2)
        ∨ (∀ e ∈ events, inRange req nowMs e = false) ∨ rangeLimit req.query = 0 := by
  obtain ⟨hle, hlt⟩ := parseRange_le (q := req.query) hnow
  have hlimit : min (rangeLimit req.query) 5000 = rangeLimit req.query :=
    Nat.min_eq_left (Nat.min_le_right _ _)
  have hresponds : ∀ out, Responds req nowMs (.rows events) log out
      ↔ Newest (fun e => asI64 e.tsMs)
        (signedIn (parseRange req.query nowMs).1 (parseRange req.query nowMs).2)
        (rangeLimit req.query) events out := by
    intro out
    rw [Responds, QueryReadonly, hlimit]
  rw [ExactRange]
  by_cases hacross : (parseRange req.query nowMs).1 < 2 ^ 63 ∧ 2 ^ 63 ≤ (parseRange req.query nowMs).2
  case pos =>
    have hnone : ∀ e ∈ events,
        signedIn (parseRange req.query nowMs).1 (parseRange req.query nowMs).2 e = false :=
      fun e _ => signedIn_across hacross.1 hacross.2 hlt
    have hempty : ∀ out, Responds req nowMs (.rows events) log out ↔ out = [] :=
      fun out => (hresponds out).trans (newest_nil_of_none hnone)
    constructor
    · intro hexact
      rcases newest_nil.mp (hexact [] ((hempty []).mpr rfl)) with hzero | hall
      · exact .inr (.inr hzero)
      · exact .inr (.inl hall)
    · rintro (hside | hall) out hout
      · exact absurd hacross hside
      · rw [(hempty out).mp hout]
        exact newest_nil.mpr hall.symm
  case neg =>
    refine iff_of_true (fun out hout => ?_) (.inl hacross)
    refine (newest_congr (fun e he => ?_) fun a ha hpa b hb hpb => ?_).mp ((hresponds out).mp hout)
    · exact signedIn_eq hle hlt (htimes e he) hacross
    · rw [signedIn_eq hle hlt (htimes a ha) hacross, decide_eq_true_iff] at hpa
      rw [signedIn_eq hle hlt (htimes b hb) hacross, decide_eq_true_iff] at hpb
      exact asI64_le_iff (by omega)

/-- The ring answers exactly iff its newest events are all in the range, in the order of their times, and
no earlier event of the range is newer than one of them. -/
lemma exactRange_ring_iff (hdb : db = .closed ∨ db = .fails) : ExactRange req nowMs db log
    ↔ (∀ e ∈ log.recent (rangeLimit req.query), inRange req nowMs e = true)
      ∧ Descending Event.tsMs (log.recent (rangeLimit req.query))
      ∧ ∀ e ∈ log.inner.reverse.drop (rangeLimit req.query), inRange req nowMs e = true →
        ∀ e' ∈ log.recent (rangeLimit req.query), e.tsMs ≤ e'.tsMs := by
  have hring : ExactRange req nowMs db log ↔ Newest Event.tsMs (inRange req nowMs)
      (rangeLimit req.query) log.inner (log.recent (rangeLimit req.query)) := by
    rcases hdb with rfl | rfl
    · exact forall_eq
    · exact forall_eq
  rw [hring, EventLog.recent]
  exact newest_take_iff (List.reverse_perm _)

/-- `GET /api/events/range` answers exactly iff, of a store, the range does not lie across `2 ^ 63` or
has no events or none are asked for; without, the newest events of the ring are those of the range. -/
theorem range_iff (hnow : nowMs < 2 ^ 64) :
    (∀ events : List Event, (∀ e ∈ events, e.tsMs < 2 ^ 64) →
      (ExactRange req nowMs (.rows events) log
        ↔ ¬ ((parseRange req.query nowMs).1 < 2 ^ 63 ∧ 2 ^ 63 ≤ (parseRange req.query nowMs).2)
          ∨ (∀ e ∈ events, inRange req nowMs e = false) ∨ rangeLimit req.query = 0))
      ∧ ∀ db, db = .closed ∨ db = .fails →
        (ExactRange req nowMs db log
          ↔ (∀ e ∈ log.recent (rangeLimit req.query), inRange req nowMs e = true)
            ∧ Descending Event.tsMs (log.recent (rangeLimit req.query))
            ∧ ∀ e ∈ log.inner.reverse.drop (rangeLimit req.query), inRange req nowMs e = true →
              ∀ e' ∈ log.recent (rangeLimit req.query), e.tsMs ≤ e'.tsMs) :=
  ⟨fun _ htimes => exactRange_rows_iff hnow htimes, fun _ hdb => exactRange_ring_iff hdb⟩

/-- A request for the events of a range. -/
def rangeReq (start stop : Str) : ParsedReq where
  method := "GET"
  path := "/api/events/range"
  query := (AList.insert "until".toList stop (∅ : HashMap Str Str)).insert "since".toList start

/-- An allowed request. -/
def pageEvent (tsMs : Nat) : Event := Event.ofDecision pageCtx (Decision.allow "1") tsMs

/-- Three events of a store, the first two in the range. -/
theorem range_iff_page : parseRange (rangeReq "10" "20").query 1000 = (10, 20)
    ∧ (ExactRange (rangeReq "10" "20") 1000 (.rows [pageEvent 15, pageEvent 12, pageEvent 25]) {}
      ↔ ¬ ((parseRange (rangeReq "10" "20").query 1000).1 < 2 ^ 63
          ∧ 2 ^ 63 ≤ (parseRange (rangeReq "10" "20").query 1000).2)
        ∨ (∀ e ∈ [pageEvent 15, pageEvent 12, pageEvent 25],
          inRange (rangeReq "10" "20") 1000 e = false)
        ∨ rangeLimit (rangeReq "10" "20").query = 0)
    ∧ ∃ out, Responds (rangeReq "10" "20") 1000 (.rows [pageEvent 15, pageEvent 12, pageEvent 25]) {} out
      ∧ Newest Event.tsMs (inRange (rangeReq "10" "20") 1000) (rangeLimit (rangeReq "10" "20").query)
        [pageEvent 15, pageEvent 12, pageEvent 25] out := by
  have hrange : parseRange (rangeReq "10" "20").query 1000 = (10, 20) :=
    parseRange_given (by decide) (by decide) (by decide)
  have hiff := (@range_iff (rangeReq "10" "20") 1000 {} (by decide)).1
    [pageEvent 15, pageEvent 12, pageEvent 25] (by decide)
  have hbelow : ¬ ((parseRange (rangeReq "10" "20").query 1000).1 < 2 ^ 63
      ∧ 2 ^ 63 ≤ (parseRange (rangeReq "10" "20").query 1000).2) := by
    rw [hrange]
    decide
  obtain ⟨out, hout⟩ : ∃ out, Responds (rangeReq "10" "20") 1000
    (.rows [pageEvent 15, pageEvent 12, pageEvent 25]) {} out := exists_responds
  exact ⟨hrange, hiff, out, hout, hiff.mpr (.inl hbelow) out hout⟩

/-- All events up to `2 ^ 63` are none; the ring answers with an event before the range. -/
theorem range_not_exact :
    (¬ ∀ (req : ParsedReq) (nowMs : Nat) (events : List Event) (log : EventLog), nowMs < 2 ^ 64 →
      (∀ e ∈ events, e.tsMs < 2 ^ 64) → ExactRange req nowMs (.rows events) log)
      ∧ ¬ ∀ (req : ParsedReq) (nowMs : Nat) (log : EventLog), nowMs < 2 ^ 64 →
        ExactRange req nowMs .closed log := by
  constructor
  · intro h
    have hexact := h (rangeReq "0" "9223372036854775808") 1000 [pageEvent 15] {} (by decide) (by decide)
    rw [exactRange_rows_iff (by decide) (by decide)] at hexact
    have hacross : (parseRange (rangeReq "0" "9223372036854775808").query 1000).1 < 2 ^ 63
        ∧ 2 ^ 63 ≤ (parseRange (rangeReq "0" "9223372036854775808").query 1000).2
        ∧ inRange (rangeReq "0" "9223372036854775808") 1000 (pageEvent 15) = true
        ∧ rangeLimit (rangeReq "0" "9223372036854775808").query ≠ 0 := by decide
    rcases hexact with hside | hnone | hzero
    · exact hside ⟨hacross.1, hacross.2.1⟩
    · exact Bool.false_ne_true ((hnone _ (.head _)).symm.trans hacross.2.2.1)
    · exact hacross.2.2.2 hzero
  · intro h
    have hexact := (exactRange_ring_iff (.inl rfl)).mp
      (h (rangeReq "10" "20") 1000 { inner := [pageEvent 5] } (by decide))
    have hin := hexact.1 (pageEvent 5) (.head _)
    have hnot : inRange (rangeReq "10" "20") 1000 (pageEvent 5) = false := by decide
    exact Bool.false_ne_true (hnot.symm.trans hin)

end Waf
