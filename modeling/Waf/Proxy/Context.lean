import Waf.Net.Fingerprint
import Waf.Proxy.ClientIp
import Waf.Engine.Allow

/-!
# The view of a request

How `proxy.rs` makes a `RequestCtx` from the request that Pingora has read. The lines of the header
become a map: of each name the first line whose value is text. A line is `Shown` if it is one of
those; the others, a second line of a name or a value that is no text, are not seen by what reads the
map, though Pingora passes them on to the origin. `lines_checked_iff` says when the checks on the map
are checks on all lines.
-/

namespace Waf
open Lib

/-- What the proxy reads of a session. -/
structure Session where
  clientAddr : Option SocketAddr
  method : Str
  uri : Str
  path : Str
  query : Option Str
  pathAndQuery : Option Str
  version : Str
  headers : List HeaderLine

/-- The names in arrival order and the map, after some lines. -/
structure HeaderTable where
  order : List Str := []
  map : HashMap Str Str := ∅

namespace HeaderTable

/-- A line that is text is kept unless there is one of its name. -/
def add (t : HeaderTable) (l : HeaderLine) : HeaderTable :=
  match l.value.toStr with
  | none => t
  | some vs =>
    let name := toAsciiLower l.name
    { order := if t.order.contains name then t.order else t.order ++ [name]
      map := if t.map.containsKey name then t.map else t.map.insert name vs }

def ofLines (lines : List HeaderLine) : HeaderTable := lines.foldl add {}

end HeaderTable

/-- `build_request_ctx`, with the request id that `gen_request_id` makes. -/
def buildRequestCtx (crates : Crates) (s : Session) (trustedHops : Nat) (requestId : Str) :
    RequestCtx :=
  let table := HeaderTable.ofLines s.headers
  let headers := table.map
  let cookie := headers.get "cookie"
  let cookies := (cookie.map parseCookieHeader).getD ∅
  let cookieOrder := (cookie.map cookieNames).getD []
  { requestId := requestId
    clientIp := resolveClientIp s.clientAddr s.headers trustedHops
    method := s.method
    uri := s.uri
    path := s.path
    query := s.query.getD []
    host := (headers.get "host").getD []
    userAgent := (headers.get "user-agent").getD []
    httpVersion := s.version
    headers := headers
    headerOrder := table.order
    cookieOrder := cookieOrder
    cookies := cookies
    contentLength := (headers.get "content-length").bind parseU64
    ja4h := Fingerprint.compute crates s.method s.version table.order headers cookieOrder cookies }

/-! ## The lines that are shown -/

/-- The names of lines are in lower case, as `HeaderName` has them. -/
def LowerNames (lines : List HeaderLine) : Prop := ∀ l ∈ lines, toAsciiLower l.name = l.name

/-- The first text of a name. -/
def firstText (lines : List HeaderLine) (name : Str) : Option Str :=
  (headerValues lines name).findSome? HeaderValue.toStr

/-- Is the line the one of its name that the map shows? -/
def Shown (lines : List HeaderLine) (l : HeaderLine) : Prop :=
  l ∈ lines ∧ ∃ s, l.value.toStr = some s ∧ firstText lines l.name = some s

variable {lines : List HeaderLine} {l : HeaderLine} {name : Str} {s : Str}

lemma firstText_append : firstText (lines ++ [l]) name
    = (firstText lines name).or (if l.name = name then l.value.toStr else none) := by
  unfold firstText headerValues
  rw [List.filter_append, List.map_append, List.findSome?_append]
  congr 1
  rw [List.filter_singleton]
  by_cases h : l.name = name
  case pos =>
    rw [if_pos h, beq_iff_eq.mpr h]
    simp only [cond_true, List.map_cons, List.map_nil, List.findSome?_cons, List.findSome?_nil]
    cases l.value.toStr with
    | none => rfl
    | some vs => rfl
  case neg =>
    rw [if_neg h, beq_false_of_ne h]
    rfl

/-- The lines of a list without its last one are in lower case too. -/
lemma LowerNames.init (h : LowerNames (lines ++ [l])) : LowerNames lines := fun x hx =>
  h x (List.mem_append_left _ hx)

lemma ofLines_append (h : LowerNames (lines ++ [l])) {vs : Str} (hvs : l.value.toStr = some vs) :
    (HeaderTable.ofLines (lines ++ [l])).map
      = if (HeaderTable.ofLines lines).map.containsKey l.name then (HeaderTable.ofLines lines).map
        else (HeaderTable.ofLines lines).map.insert l.name vs := by
  have hl : toAsciiLower l.name = l.name := h l (List.mem_append_right _ (.head _))
  rw [HeaderTable.ofLines, List.foldl_append]
  show ((HeaderTable.ofLines lines).add l).map = _
  simp only [HeaderTable.add, hvs, hl]

/-- The map has the first text of each name. -/
lemma lookup_ofLines (h : LowerNames lines) :
    (HeaderTable.ofLines lines).map.lookup name = firstText lines name := by
  induction lines using List.reverseRecOn with
  | nil => rfl
  | append_singleton lines l ih =>
    have ih := ih h.init
    rw [firstText_append, ← ih]
    cases hvs : l.value.toStr with
    | none =>
      have hadd : HeaderTable.ofLines (lines ++ [l]) = HeaderTable.ofLines lines := by
        rw [HeaderTable.ofLines, List.foldl_append]
        show (HeaderTable.ofLines lines).add l = _
        simp only [HeaderTable.add, hvs]
      rw [hadd, ite_self, Option.or_none]
    | some vs =>
      rw [ofLines_append h hvs]
      have ihl : (HeaderTable.ofLines lines).map.containsKey l.name
          = ((HeaderTable.ofLines lines).map.lookup l.name).isSome := rfl
      by_cases hname : l.name = name
      case pos =>
        subst hname
        rw [if_pos rfl, ihl]
        cases hv : (HeaderTable.ofLines lines).map.lookup l.name with
        | some v => exact hv
        | none => exact AList.lookup_insert _
      case neg =>
        rw [if_neg hname, Option.or_none]
        split
        case isTrue => rfl
        case isFalse => exact AList.lookup_insert_ne fun e => hname e.symm

/-- A name has a text iff a line of it is shown. -/
lemma firstText_eq_some : firstText lines name = some s
    ↔ ∃ l, Shown lines l ∧ l.name = name ∧ l.value.toStr = some s := by
  constructor
  · intro h
    obtain ⟨v, hv, hs⟩ := List.exists_of_findSome?_eq_some h
    obtain ⟨l, hfilter, rfl⟩ := List.mem_map.mp hv
    obtain ⟨hmem, hname⟩ := List.mem_filter.mp hfilter
    obtain rfl := beq_iff_eq.mp hname
    exact ⟨l, ⟨hmem, s, hs, h⟩, rfl, hs⟩
  · rintro ⟨l, ⟨-, s', hs', hfirst⟩, rfl, hs⟩
    obtain rfl := Option.some.inj (hs'.symm.trans hs)
    exact hfirst

/-- The names of the lines that are text. -/
def textNames (lines : List HeaderLine) : List Str :=
  ((lines.filter fun l => l.value.toStr.isSome).map (·.name)).dedup

lemma mem_textNames : name ∈ textNames lines ↔ ∃ s, firstText lines name = some s := by
  rw [textNames, List.mem_dedup, List.mem_map]
  constructor
  · rintro ⟨l, hl, rfl⟩
    obtain ⟨hl, htext⟩ := List.mem_filter.mp hl
    have hsome : ((headerValues lines l.name).findSome? HeaderValue.toStr).isSome = true := by
      rw [List.findSome?_isSome_iff]
      exact ⟨l.value, List.mem_map.mpr ⟨l, List.mem_filter.mpr ⟨hl, beq_self_eq_true _⟩, rfl⟩,
        htext⟩
    exact Option.isSome_iff_exists.mp hsome
  · rintro ⟨s, hs⟩
    obtain ⟨l, hl, rfl, htext⟩ := firstText_eq_some.mp hs
    refine ⟨l, List.mem_filter.mpr ⟨hl.1, ?_⟩, rfl⟩
    rw [htext]
    rfl

/-- The map has an entry for each name with a text. -/
lemma size_ofLines (h : LowerNames lines) :
    (HeaderTable.ofLines lines).map.size = (textNames lines).length := by
  have hnodup : (textNames lines).Nodup := List.nodup_dedup _
  have hperm : (HeaderTable.ofLines lines).map.keys.Perm (textNames lines) := by
    rw [List.perm_ext_iff_of_nodup (AList.keys_nodup _) hnodup]
    intro name
    rw [← AList.mem_keys, ← AList.lookup_isSome, lookup_ofLines h, Option.isSome_iff_exists,
      ← mem_textNames]
  rw [← hperm.length_eq]
  exact (List.length_map _).symm

/-- The values of the map are the texts of the lines that are shown. -/
lemma mem_values_ofLines (h : LowerNames lines) : s ∈ (HeaderTable.ofLines lines).map.values
    ↔ ∃ l, Shown lines l ∧ l.value.toStr = some s := by
  rw [HashMap.mem_values]
  constructor
  · rintro ⟨name, hname⟩
    rw [lookup_ofLines h] at hname
    obtain ⟨l, hl, -, hs⟩ := firstText_eq_some.mp hname
    exact ⟨l, hl, hs⟩
  · rintro ⟨l, hl, hs⟩
    exact ⟨l.name, (lookup_ofLines h).trans (firstText_eq_some.mpr ⟨l, hl, rfl, hs⟩)⟩

/-! ## The checks on the map -/

/-- The lines as a `HeaderMap` has them: names in lower case, no line feed in a value. -/
structure WireLines (lines : List HeaderLine) : Prop where
  names : LowerNames lines
  values : ∀ l ∈ lines, 10 ∉ l.value

/-- A line as it is written. -/
def HeaderLine.bytes (l : HeaderLine) : List UInt8 := utf8 (l.name ++ ": ") ++ l.value

/-- Does a value contain `chunked`, in either case? -/
def HeaderValue.chunked (v : HeaderValue) : Bool :=
  contains "chunked" (toAsciiLower (v.map fun b => Char.ofNat b.toNat))

/-- The request meets the hard limits, as far as its lines are shown. -/
structure Session.Within (s : Session) (l : LimitsCfg) : Prop where
  method : ∃ m ∈ l.allowedMethods, eqIgnoreCase m s.method = true
  uri : byteLen s.uri ≤ l.maxUriBytes
  names : (textNames s.headers).length ≤ l.maxHeaders
  values : ∀ h, Shown s.headers h → h.value.length ≤ l.maxHeaderValueBytes
  body : ∀ v cl, firstText s.headers "content-length" = some v → parseU64 v = some cl →
    cl ≤ l.maxBodyBytes

section

variable {crates : Crates} {sess : Session} {hops : Nat} {requestId : Str} {e : Engine}

/-- What `hard_limits` checks of the lines. -/
lemma hardLimits_ctx (h : WireLines sess.headers) :
    e.hardLimits (buildRequestCtx crates sess hops requestId) = none
      ↔ sess.Within e.cfg.limits := by
  have hlookup : ∀ name, (HeaderTable.ofLines sess.headers).map.lookup name
      = firstText sess.headers name := fun name => lookup_ofLines h.names
  have hlen : ∀ {v : HeaderValue} {s}, v.toStr = some s → byteLen s = v.length := fun hs => by
    rw [byteLen, HeaderValue.utf8_of_toStr hs]
  rw [Engine.hardLimits_none_iff]
  constructor
  · intro w
    refine ⟨w.method, w.uri, (size_ofLines h.names).symm.trans_le w.headers, ?_, ?_⟩
    · rintro l ⟨hl, s, hs, hfirst⟩
      rw [← hlen hs]
      exact w.values s ((mem_values_ofLines h.names).mpr ⟨l, ⟨hl, s, hs, hfirst⟩, hs⟩)
    · intro v cl hv hcl
      refine w.body cl ?_
      show ((HeaderTable.ofLines sess.headers).map.lookup _).bind parseU64 = some cl
      rw [hlookup, hv]
      exact hcl
  · intro w
    refine ⟨w.method, w.uri, (size_ofLines h.names).trans_le w.names, ?_, ?_⟩
    · intro s hs
      obtain ⟨l, hl, hls⟩ := (mem_values_ofLines h.names).mp hs
      rw [hlen hls]
      exact w.values l hl
    · intro cl hcl
      have hcl' : ((HeaderTable.ofLines sess.headers).map.lookup "content-length".toList).bind
          parseU64 = some cl := hcl
      rw [hlookup] at hcl'
      obtain ⟨v, hv, hcl'⟩ := Option.bind_eq_some_iff.mp hcl'
      exact w.body v cl hv hcl'

/-- A line is its name, a colon and its value. -/
lemma bytes_eq (hs : l.value.toStr = some s) : utf8 (l.name ++ ": " ++ s) = l.bytes := by
  rw [utf8_append, HeaderValue.utf8_of_toStr hs, HeaderLine.bytes]

/-- What the surface has of the lines. -/
lemma infix_headersConcat (h : WireLines sess.headers) {v : HeaderValue} (hv : 10 ∉ v) :
    v <:+: utf8 (Surface.ofCtx crates (buildRequestCtx crates sess hops requestId)).headersConcat
      ↔ v = [] ∨ ∃ l, Shown sess.headers l ∧ isSkipHeader l.name = false ∧ v <:+: l.bytes := by
  have hsep : utf8 ['\n'] = [10] := by decide
  have hconcat : (Surface.ofCtx crates (buildRequestCtx crates sess hops requestId)).headersConcat
      = ['\n'].intercalate (((HeaderTable.ofLines sess.headers).map.toPairs.filter fun e =>
        !isSkipHeader e.1).map fun e => e.1 ++ ": " ++ e.2) := rfl
  rw [hconcat, utf8_intercalate, hsep, infix_intercalate hv]
  refine or_congr_right ⟨?_, ?_⟩
  · rintro ⟨seg, hseg, hin⟩
    obtain ⟨text, htext, rfl⟩ := List.mem_map.mp hseg
    obtain ⟨⟨name, s⟩, he, rfl⟩ := List.mem_map.mp htext
    obtain ⟨hpair, hskip⟩ := List.mem_filter.mp he
    have hfirst : firstText sess.headers name = some s :=
      (lookup_ofLines h.names).symm.trans (HashMap.mem_toPairs.mp hpair)
    obtain ⟨l, hl, rfl, hs⟩ := firstText_eq_some.mp hfirst
    rw [bytes_eq hs] at hin
    rw [Bool.not_eq_true'] at hskip
    exact ⟨l, hl, hskip, hin⟩
  · rintro ⟨l, hl, hskip, hin⟩
    obtain ⟨s, hs, hfirst⟩ := hl.2
    have hpair : (l.name, s) ∈ (HeaderTable.ofLines sess.headers).map.toPairs :=
      HashMap.mem_toPairs.mpr ((lookup_ofLines h.names).trans hfirst)
    have he : (l.name, s) ∈ (HeaderTable.ofLines sess.headers).map.toPairs.filter fun e =>
        !isSkipHeader e.1 := List.mem_filter.mpr ⟨hpair, by rw [hskip]; rfl⟩
    refine ⟨_, List.mem_map_of_mem (List.mem_map_of_mem he), ?_⟩
    rw [bytes_eq hs]
    exact hin

/-- When `HDR-CL-TE` is reported. -/
lemma reports_clTe (h : WireLines sess.headers) :
    (∃ r ∈ Engine.headerReasons (buildRequestCtx crates sess hops requestId), r.ruleId = "HDR-CL-TE")
      ↔ (∃ v, firstText sess.headers "content-length" = some v)
        ∧ ∃ l, Shown sess.headers l ∧ l.name = "transfer-encoding".toList
          ∧ l.value.chunked = true := by
  have hfires : (∃ r ∈ Engine.headerReasons (buildRequestCtx crates sess hops requestId),
      r.ruleId = "HDR-CL-TE".toList)
      ↔ ((HeaderTable.ofLines sess.headers).map.lookup "content-length".toList).isSome = true
        ∧ ((HeaderTable.ofLines sess.headers).map.lookup "transfer-encoding".toList).any (fun v =>
          contains "chunked" (toAsciiLower v)) = true := by
    rw [← Bool.and_eq_true_iff]
    constructor
    · rintro ⟨r, hr, hid⟩
      simp only [Engine.headerReasons, List.mem_append, mem_fire] at hr
      obtain ((⟨-, rfl⟩ | ⟨-, rfl⟩) | ⟨-, rfl⟩) | ⟨hboth, -⟩ := hr
      · exact absurd hid (by decide)
      · exact absurd hid (by decide)
      · have hne : "HDR-MINIMAL".toList ≠ "HDR-CL-TE".toList := by decide
        exact absurd hid hne
      · exact hboth
    · intro hboth
      exact ⟨_, List.mem_append_right _ (mem_fire.mpr ⟨hboth, rfl⟩), rfl⟩
  have hchunked : ∀ {v : HeaderValue} {s}, v.toStr = some s →
      v.chunked = contains "chunked" (toAsciiLower s) := by
    intro v s hs
    unfold HeaderValue.toStr at hs
    split at hs
    case isTrue => rw [← Option.some.inj hs, HeaderValue.chunked]
    case isFalse => cases hs
  rw [hfires, lookup_ofLines h.names, lookup_ofLines h.names, Option.isSome_iff_exists]
  refine and_congr_right fun _ => ⟨fun hany => ?_, ?_⟩
  · obtain ⟨s, hs, hc⟩ := (Option.any_eq_true _ _).mp hany
    obtain ⟨l, hl, hname, hls⟩ := firstText_eq_some.mp hs
    exact ⟨l, hl, hname, (hchunked hls).trans hc⟩
  · rintro ⟨l, hl, hname, hc⟩
    obtain ⟨s, hs, hfirst⟩ := hl.2
    rw [← hname, hfirst, Option.any_some, ← hchunked hs]
    exact hc

/-- What it takes for the checks on the map to be checks on all lines: the lines are few enough, and
of those that are not shown none is too long, each that is scanned stands in one that is shown, and
the two lines of a smuggled request are not among them. -/
structure Covered (l : LimitsCfg) (lines : List HeaderLine) : Prop where
  count : lines.length ≤ l.maxHeaders
  hidden : ∀ x ∈ lines, ¬ Shown lines x → x.value.length ≤ l.maxHeaderValueBytes
    ∧ (isSkipHeader x.name = false → x.value = []
      ∨ ∃ y, Shown lines y ∧ isSkipHeader y.name = false ∧ x.value <:+: y.bytes)
  smuggling : (∃ x ∈ lines, x.name = "content-length".toList) →
    (∃ x ∈ lines, x.name = "transfer-encoding".toList ∧ x.value.chunked = true) →
    (∃ v, firstText lines "content-length" = some v)
      ∧ ∃ y, Shown lines y ∧ y.name = "transfer-encoding".toList ∧ y.value.chunked = true

/-- When the checks are checks on all lines. If a request that meets the hard limits has at most
`max_headers` lines, none of them too long, all scanned ones in the surface, and a reported conflict
of `Content-Length` and `Transfer-Encoding` whenever there is one, is decided by the lines that the
map does not show. -/
theorem lines_checked_iff (h : WireLines sess.headers) :
    (e.hardLimits (buildRequestCtx crates sess hops requestId) = none →
      sess.headers.length ≤ e.cfg.limits.maxHeaders
        ∧ (∀ x ∈ sess.headers, x.value.length ≤ e.cfg.limits.maxHeaderValueBytes)
        ∧ (∀ x ∈ sess.headers, isSkipHeader x.name = false → x.value <:+:
          utf8 (Surface.ofCtx crates (buildRequestCtx crates sess hops requestId)).headersConcat)
        ∧ ((∃ x ∈ sess.headers, x.name = "content-length".toList) →
          (∃ x ∈ sess.headers, x.name = "transfer-encoding".toList ∧ x.value.chunked = true) →
          ∃ r ∈ Engine.headerReasons (buildRequestCtx crates sess hops requestId),
            r.ruleId = "HDR-CL-TE"))
      ↔ (sess.Within e.cfg.limits → Covered e.cfg.limits sess.headers) := by
  rw [hardLimits_ctx h]
  refine forall_congr' fun w => ?_
  constructor
  · rintro ⟨hcount, hlen, hscan, hsmuggle⟩
    refine ⟨hcount, fun x hx _ => ⟨hlen x hx, fun hskip => ?_⟩, fun hcl hte => ?_⟩
    · exact (infix_headersConcat h (h.values x hx)).mp (hscan x hx hskip)
    · exact (reports_clTe h).mp (hsmuggle hcl hte)
  · rintro ⟨hcount, hhidden, hsmuggle⟩
    refine ⟨hcount, fun x hx => ?_, fun x hx hskip => ?_, fun hcl hte => ?_⟩
    · by_cases hs : Shown sess.headers x
      case pos => exact w.values x hs
      case neg => exact (hhidden x hx hs).1
    · refine (infix_headersConcat h (h.values x hx)).mpr ?_
      by_cases hs : Shown sess.headers x
      case pos => exact .inr ⟨x, hs, hskip, (List.suffix_append _ _).isInfix⟩
      case neg => exact (hhidden x hx hs).2 hskip
    · exact (reports_clTe h).mpr (hsmuggle hcl hte)

end

/-- A request that hides an attack in the second line of a name. -/
def repeated : Session where
  clientAddr := some (.inet (.v4 (.new 1 2 3 4)))
  method := "GET"
  uri := "/"
  path := "/"
  query := none
  pathAndQuery := some "/"
  version := "HTTP/1.1"
  headers := [⟨"host", utf8 "h"⟩, ⟨"x-id", utf8 "1"⟩, ⟨"x-id", utf8 "<script>"⟩,
    ⟨"content-length", utf8 "5"⟩, ⟨"transfer-encoding", utf8 "gzip"⟩,
    ⟨"transfer-encoding", utf8 "chunked"⟩]

/-- The sample lines can come over the wire. -/
lemma repeated_wire : WireLines repeated.headers where
  names := by
    unfold LowerNames
    decide
  values := by decide

/-- What the proxy makes of it. -/
def repeatedCtx : RequestCtx := buildRequestCtx idleCrates repeated 0 "t"

/-- Two lines of one name. -/
theorem lines_checked_iff_witness :
    (Engine.sampleEngine.hardLimits repeatedCtx = none →
      repeated.headers.length ≤ Engine.sampleCfg.limits.maxHeaders
        ∧ (∀ x ∈ repeated.headers, x.value.length ≤ Engine.sampleCfg.limits.maxHeaderValueBytes)
        ∧ (∀ x ∈ repeated.headers, isSkipHeader x.name = false →
          x.value <:+: utf8 (Surface.ofCtx idleCrates repeatedCtx).headersConcat)
        ∧ ((∃ x ∈ repeated.headers, x.name = "content-length".toList) →
          (∃ x ∈ repeated.headers, x.name = "transfer-encoding".toList
            ∧ x.value.chunked = true) →
          ∃ r ∈ Engine.headerReasons repeatedCtx, r.ruleId = "HDR-CL-TE"))
      ↔ (repeated.Within Engine.sampleCfg.limits →
        Covered Engine.sampleCfg.limits repeated.headers) := by
  exact @lines_checked_iff idleCrates repeated 0 "t" Engine.sampleEngine repeated_wire

/-- The request meets the hard limits. Its attack is not in the surface, and the conflict of its
`Content-Length` and `Transfer-Encoding` is not reported. -/
theorem repeated_unchecked :
    Engine.sampleEngine.hardLimits repeatedCtx = none
      ∧ (∃ x ∈ repeated.headers, isSkipHeader x.name = false
        ∧ ¬ x.value <:+: utf8 (Surface.ofCtx idleCrates repeatedCtx).headersConcat)
      ∧ (∃ x ∈ repeated.headers, x.name = "content-length".toList)
      ∧ (∃ x ∈ repeated.headers, x.name = "transfer-encoding".toList ∧ x.value.chunked = true)
      ∧ ¬ ∃ r ∈ Engine.headerReasons repeatedCtx, r.ruleId = "HDR-CL-TE".toList := by
  decide

end Waf
