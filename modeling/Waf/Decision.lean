import Waf.Lib.HashMap
import Waf.Lib.Ring
import Waf.Net.Addr

/-!
# Requests and decisions

The view of a request that the proxy hands to the engine (`request.rs`), the decision that comes back
(`decision.rs`) and the scores of the rules (`score.rs`). A signal that fires adds its reason to a
decision, and its score to the total, which saturates: `Decision.addReasons_score` gives the total of a
list of signals.
-/

namespace Waf
open Lib

/-- A request. Header names are in lower case, and the first line of a name is the one kept. -/
structure RequestCtx where
  requestId : Str
  clientIp : IpAddr
  method : Str
  uri : Str
  path : Str
  query : Str := []
  host : Str := []
  userAgent : Str := []
  httpVersion : Str := "HTTP/1.1"
  headers : HashMap Str Str := ∅
  headerOrder : List Str := []
  cookieOrder : List Str := []
  cookies : HashMap Str Str := ∅
  bodyPreview : List UInt8 := []
  contentLength : Option Nat := none
  country : Option Str := none
  ja4h : Str := []

def RequestCtx.cookie (ctx : RequestCtx) (name : Str) : Option Str := ctx.cookies.lookup name

inductive Action where
  | allow
  | challenge
  | block
  | tarpit
  deriving DecidableEq

structure DecisionReason where
  ruleId : Str
  category : Str
  score : Nat
  detail : Str
  deriving DecidableEq

structure Decision where
  action : Action
  status : Nat
  score : Nat
  reasons : List DecisionReason
  requestId : Str
  deriving DecidableEq

namespace Decision

def allow (requestId : Str) : Decision := ⟨.allow, 200, 0, [], requestId⟩

def block (requestId : Str) (status : Nat) (reason : DecisionReason) : Decision :=
  ⟨.block, status, reason.score, [reason], requestId⟩

def challenge (requestId : Str) (score : Nat) (reasons : List DecisionReason) : Decision :=
  ⟨.challenge, 403, score, reasons, requestId⟩

def tarpit (requestId : Str) (score : Nat) (reasons : List DecisionReason) : Decision :=
  ⟨.tarpit, 200, score, reasons, requestId⟩

def addReason (d : Decision) (r : DecisionReason) : Decision :=
  { d with score := satAdd32 d.score r.score, reasons := d.reasons ++ [r] }

/-- Add reasons in order. -/
def addReasons (d : Decision) (rs : List DecisionReason) : Decision := rs.foldl addReason d

end Decision

/-- The saturating sum of the scores of a list of reasons. -/
def totalScore (rs : List DecisionReason) : Nat :=
  rs.foldl (fun n r => satAdd32 n r.score) 0

lemma Decision.addReasons_score {d : Decision} {rs} :
    (d.addReasons rs).score = rs.foldl (fun n r => satAdd32 n r.score) d.score := by
  induction rs generalizing d with
  | nil => rfl
  | cons r rs ih => exact ih

/-- A fresh decision with reasons added carries their total. -/
lemma Decision.addReasons_allow_score {requestId rs} :
    ((Decision.allow requestId).addReasons rs).score = totalScore rs :=
  addReasons_score

def SCORE_RL_HIT : Nat := 30
def SCORE_BAD_METHOD : Nat := 100
def SCORE_OVERSIZE_URI : Nat := 100
def SCORE_OVERSIZE_HEAD : Nat := 100
def SCORE_OVERSIZE_BODY : Nat := 100
def SCORE_DENY_REPUTATION : Nat := 100
def SCORE_GEO_BLOCKED : Nat := 100
def SCORE_GEO_SUSPICIOUS : Nat := 15
def SCORE_SQLI_HIGH : Nat := 80
def SCORE_XSS_HIGH : Nat := 80
def SCORE_TRAVERSAL : Nat := 70
def SCORE_CMDI : Nat := 80
def SCORE_LFI : Nat := 70
def SCORE_BAD_UA : Nat := 60
def SCORE_MISSING_UA : Nat := 10
def SCORE_MISSING_HOST : Nat := 100
def SCORE_SUSPICIOUS_HEADER : Nat := 25
def SCORE_HEADERLESS : Nat := 20

end Waf
