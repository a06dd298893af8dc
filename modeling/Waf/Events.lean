import Waf.Decision
import Waf.Lib.Feed

/-!
# Recorded decisions

Every decision leaves an event in the ring of recent ones (`events.rs`) and, when a store is
attached, in the queue of its writer (`Sink` in `storage.rs`). Values of sensitive headers are
blanked.
-/

namespace Waf
open Lib

structure Event where
  tsMs : Nat
  requestId : Str
  ip : Str
  method : Str
  host : Str
  path : Str
  query : Str
  userAgent : Str
  country : Option Str
  action : Action
  status : Nat
  score : Nat
  ruleId : Option Str
  category : Option Str
  httpVersion : Str
  ja4h : Str
  reasons : List DecisionReason
  headerOrder : List Str
  headers : List (Str × Str)
  deriving DecidableEq

/-- `redact_header`, and `redact` in `engine.rs`. -/
def redactHeader (name value : Str) : Str :=
  let sensitive : List Str :=
    ["cookie", "authorization", "proxy-authorization", "x-api-key", "x-auth-token"]
  if sensitive.contains name then "•••" else value.take 256

/-- The event of a decision, as `record` and `finalize` both build it. -/
def Event.ofDecision (ctx : RequestCtx) (d : Decision) (nowMs : Nat) : Event where
  tsMs := nowMs
  requestId := d.requestId
  ip := ctx.clientIp.toStr
  method := ctx.method
  host := ctx.host
  path := ctx.path
  query := ctx.query.take 192
  userAgent := ctx.userAgent.take 192
  country := ctx.country
  action := d.action
  status := d.status
  score := d.score
  ruleId := d.reasons.head?.map (·.ruleId)
  category := d.reasons.head?.map (·.category)
  httpVersion := ctx.httpVersion
  ja4h := ctx.ja4h
  reasons := d.reasons
  headerOrder := ctx.headerOrder
  headers := ctx.headerOrder.filterMap fun n =>
    (ctx.headers.get n).map fun v => (n, redactHeader n v)

structure EventLog where
  inner : List Event := []
  cap : Nat := 500

def EventLog.record (log : EventLog) (ctx : RequestCtx) (d : Decision) (nowMs : Nat) : EventLog :=
  { log with inner := pushCapped log.cap log.inner (Event.ofDecision ctx d nowMs) }

/-- The oldest events after a time, at most `max`. -/
def EventLog.since (log : EventLog) (sinceMs max : Nat) : List Event :=
  later Event.tsMs sinceMs max log.inner

/-- The sending end of the queue: what has been sent and not received, whether the writer is gone, and
the counters of the queue. -/
structure Sink where
  sent : List Event := []
  closed : Bool := false
  queued : Nat := 0
  drained : Nat := 0
  dropped : Nat := 0

def Sink.MAX_QUEUE : Nat := 16384

def Sink.submit (s : Sink) (ev : Event) : Sink :=
  if MAX_QUEUE < s.queued - s.drained then { s with dropped := s.dropped + 1 }
  else
    let s := { s with queued := s.queued + 1 }
    if s.closed then { s with dropped := s.dropped + 1 } else { s with sent := s.sent ++ [ev] }

/-- A request for a page. -/
def pageCtx : RequestCtx where
  requestId := "1"
  clientIp := .v4 (.new 10 0 0 1)
  method := "GET"
  uri := "/"
  path := "/"

end Waf
