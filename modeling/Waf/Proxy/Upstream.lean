import Waf.Net.AddrText
import Waf.Proxy.ClientIp

/-!
# What goes upstream

`upstream_request_filter` of `proxy.rs` stamps the header of a request that is passed on: the id of the
request, the address of the client and the scheme each take the place of all lines of their name. So the
origin reads what the firewall has found and nothing that the client has written there, and the other
lines are as the client sent them.

A firewall is read like any other proxy by one behind it. In a row of firewalls that trust at least one
hop, all judge the address that the first one saw (`row_sees_client`).
-/

namespace Waf
open Lib

/-- `insert_header`: the value takes the place of the first line of the name, and the others go. -/
def insertHeader (name : Str) (value : HeaderValue) : List HeaderLine → List HeaderLine
  | [] => [⟨name, value⟩]
  | l :: lines =>
    if l.name = name then ⟨name, value⟩ :: lines.filter fun l => l.name ≠ name
    else l :: insertHeader name value lines

def upstreamRequestFilter (tls : Bool) (requestId clientIp : Str) (lines : List HeaderLine) :
    List HeaderLine :=
  let lines := insertHeader "x-waf-request-id" (utf8 requestId) lines
  let lines := insertHeader "x-real-ip" (utf8 clientIp) lines
  let lines := insertHeader "x-forwarded-for" (utf8 clientIp) lines
  insertHeader "x-forwarded-proto" (utf8 (if tls then "https" else "http")) lines

/-- The names that are stamped. -/
def stamped : List Str :=
  ["x-waf-request-id", "x-real-ip", "x-forwarded-for", "x-forwarded-proto"]

/-- The lines that are passed on as they are. -/
def untouched (lines : List HeaderLine) : List HeaderLine :=
  lines.filter fun l => !stamped.contains l.name

variable {lines : List HeaderLine} {name other : Str} {value : HeaderValue}

/-! ## One line -/

/-- The name that is set has one line. -/
lemma headerValues_insert : headerValues (insertHeader name value lines) name = [value] := by
  induction lines with
  | nil => simp [insertHeader, headerValues]
  | cons l lines ih =>
    rw [insertHeader]
    split
    case isTrue => simp [headerValues, List.filter_filter]
    case isFalse hne =>
      rw [headerValues, List.filter_cons_of_neg (by simpa using hne)]
      exact ih

/-- The lines that a condition picks are the same if it does not pick those of the name. -/
lemma filter_insert {p : HeaderLine → Bool} (hp : ∀ l : HeaderLine, l.name = name → p l = false) :
    (insertHeader name value lines).filter p = lines.filter p := by
  induction lines with
  | nil =>
    rw [insertHeader, List.filter_cons_of_neg (by rw [hp _ rfl]; nofun)]
  | cons l lines ih =>
    rw [insertHeader]
    split
    case isTrue hname =>
      have hrest : (lines.filter fun l => l.name ≠ name).filter p = lines.filter p := by
        rw [List.filter_filter]
        refine List.filter_congr fun x _ => ?_
        by_cases hx : x.name = name
        · rw [hp x hx, Bool.false_and]
        · simp [hx]
      rw [List.filter_cons_of_neg (by rw [hp _ rfl]; nofun), hrest,
        List.filter_cons_of_neg (by rw [hp _ hname]; nofun)]
    case isFalse =>
      rw [List.filter_cons, List.filter_cons, ih]

lemma headerValues_insert_ne (hne : other ≠ name) :
    headerValues (insertHeader name value lines) other = headerValues lines other := by
  rw [headerValues, headerValues, filter_insert]
  intro l hl
  rw [hl]
  exact beq_false_of_ne hne.symm

/-- Setting a stamped name leaves the other lines alone. -/
lemma untouched_insert (h : stamped.contains name = true) :
    untouched (insertHeader name value lines) = untouched lines := by
  rw [untouched, untouched, filter_insert]
  intro l hl
  rw [hl, h, Bool.not_true]

/-! ## All of them -/

/-- What stands under the stamped names. -/
structure Stamped (tls : Bool) (requestId clientIp : Str) (lines : List HeaderLine) : Prop where
  requestId : headerValues lines "x-waf-request-id" = [utf8 requestId]
  realIp : headerValues lines "x-real-ip" = [utf8 clientIp]
  forwardedFor : headerValues lines "x-forwarded-for" = [utf8 clientIp]
  proto : headerValues lines "x-forwarded-proto" = [utf8 (if tls then "https" else "http")]

/-- The filter stamps what it passes on. -/
lemma stamped_filter (tls : Bool) (requestId clientIp : Str) (lines : List HeaderLine) :
    Stamped tls requestId clientIp (upstreamRequestFilter tls requestId clientIp lines) := by
  unfold upstreamRequestFilter
  constructor
  · rw [headerValues_insert_ne (by decide), headerValues_insert_ne (by decide),
      headerValues_insert_ne (by decide), headerValues_insert]
  · rw [headerValues_insert_ne (by decide), headerValues_insert_ne (by decide), headerValues_insert]
  · rw [headerValues_insert_ne (by decide), headerValues_insert]
  · rw [headerValues_insert]

/-- It leaves the other lines alone. -/
lemma untouched_filter (tls : Bool) (requestId clientIp : Str) (lines : List HeaderLine) :
    untouched (upstreamRequestFilter tls requestId clientIp lines) = untouched lines := by
  unfold upstreamRequestFilter
  rw [untouched_insert (by decide), untouched_insert (by decide), untouched_insert (by decide),
    untouched_insert (by decide)]

/-! ## Firewalls in a row -/

/-- A firewall in front of another: its settings, the id that it gives the request, and its peer. -/
structure Link where
  trustedHops : Nat
  tls : Bool
  requestId : Str
  peer : Option SocketAddr

namespace Link

/-- The address that it judges. -/
def sees (l : Link) (lines : List HeaderLine) : IpAddr := resolveClientIp l.peer lines l.trustedHops

/-- What it passes on. -/
def passes (l : Link) (lines : List HeaderLine) : List HeaderLine :=
  upstreamRequestFilter l.tls l.requestId (l.sees lines).toStr lines

end Link

/-- The addresses that the firewalls judge. -/
def judged : List Link → List HeaderLine → List IpAddr
  | [], _ => []
  | l :: row, lines => l.sees lines :: judged row (l.passes lines)

/-- What comes out at the end. -/
def passedOn (row : List Link) (lines : List HeaderLine) : List HeaderLine :=
  row.foldl (fun lines l => l.passes lines) lines

/-- A trusted hop reads the address that a firewall has stamped. -/
lemma sees_stamped {l : Link} {ip : IpAddr} {tls : Bool} {requestId : Str}
    (h : Stamped tls requestId ip.toStr lines) (hops : 0 < l.trustedHops) : l.sees lines = ip := by
  obtain ⟨n, hn⟩ := Nat.exists_eq_succ_of_ne_zero hops.ne'
  let e : Entry := ⟨ip.toStr, ip, IpAddr.parse_toStr ip⟩
  have hline : (headerValues lines "x-forwarded-for").head?
      = some (([] : List Hop).foldl (fun l h => h.extendLine l) (utf8 e.text)) := by
    rw [h.forwardedFor]
    rfl
  have htext : HeaderValue.toStr (utf8 e.text) = some e.text := Entry.toStr_text
  have hzero : [e.text].length + ([] : List Hop).length - (n + 1) = 0 := by
    simp only [List.length_singleton, List.length_nil]
    omega
  rw [Link.sees, hn, Nat.succ_eq_add_one, resolveClientIp_of_line hline, htext, Option.bind_some,
    Entry.xffParts_text, hzero]
  simp [e.valid, e]

/-- A row of firewalls behind one that has stamped an address. -/
lemma row_stamped {row : List Link} {ip : IpAddr} {tls : Bool} {requestId : Str}
    (h : Stamped tls requestId ip.toStr lines) (hops : ∀ l ∈ row, 0 < l.trustedHops) :
    judged row lines = List.replicate row.length ip
      ∧ (∃ tls requestId, Stamped tls requestId ip.toStr (passedOn row lines))
      ∧ untouched (passedOn row lines) = untouched lines := by
  induction row generalizing lines tls requestId with
  | nil => exact ⟨rfl, ⟨tls, requestId, h⟩, rfl⟩
  | cons l row ih =>
    have hsees := sees_stamped h (hops l (.head _))
    have hpasses : l.passes lines = upstreamRequestFilter l.tls l.requestId ip.toStr lines := by
      rw [Link.passes, hsees]
    have hnext := stamped_filter l.tls l.requestId ip.toStr lines
    rw [← hpasses] at hnext
    obtain ⟨hjudged, hstamped, hlines⟩ := ih hnext fun l hl => hops l (.tail _ hl)
    refine ⟨?_, hstamped, ?_⟩
    · rw [judged, hsees, hjudged]
      rfl
    · rw [passedOn, List.foldl_cons]
      refine hlines.trans ?_
      rw [hpasses, untouched_filter]

/-- All firewalls of a row judge the address that the first one saw, and the origin finds this address,
and nothing else, under the names that carry it. The client's other lines arrive as they were sent. -/
theorem row_sees_client (front : Link) (row : List Link) (lines : List HeaderLine)
    (hops : ∀ l ∈ row, 0 < l.trustedHops) :
    judged (front :: row) lines = List.replicate (row.length + 1) (front.sees lines)
      ∧ (∃ tls requestId,
        Stamped tls requestId (front.sees lines).toStr (passedOn (front :: row) lines))
      ∧ untouched (passedOn (front :: row) lines) = untouched lines := by
  have hfront := stamped_filter front.tls front.requestId (front.sees lines).toStr lines
  obtain ⟨hjudged, hstamped, hlines⟩ := row_stamped hfront hops
  refine ⟨?_, hstamped, ?_⟩
  · rw [judged]
    exact congrArg _ hjudged
  · exact hlines.trans (untouched_filter _ _ _ _)

/-- A firewall at the edge, and one behind it. -/
def edge : Link := ⟨0, true, "e1", some (.inet (.v4 (.new 192 0 2 7)))⟩

def inner : Link := ⟨1, false, "e2", some (.inet (.v4 (.new 10 0 0 1)))⟩

/-- The lines of a client that names other addresses. -/
def boasting : List HeaderLine :=
  [⟨"x-forwarded-for", utf8 "10.0.0.1"⟩, ⟨"accept", utf8 "*/*"⟩, ⟨"x-real-ip", utf8 "127.0.0.1"⟩]

/-- Two firewalls, and a client that names other addresses. -/
theorem row_sees_client_witness :
    judged [edge, inner] boasting = [.v4 (.new 192 0 2 7), .v4 (.new 192 0 2 7)]
      ∧ headerValues (passedOn [edge, inner] boasting) "x-real-ip" = [utf8 "192.0.2.7"] := by
  obtain ⟨hjudged, ⟨tls, requestId, hstamped⟩, -⟩ := row_sees_client edge [inner] boasting (by decide)
  have hedge : edge.sees boasting = .v4 (.new 192 0 2 7) := rfl
  have htext : (IpAddr.v4 (.new 192 0 2 7)).toStr = "192.0.2.7".toList := by decide
  rw [hedge] at hjudged hstamped
  rw [htext] at hstamped
  exact ⟨hjudged, hstamped.realIp⟩

end Waf
