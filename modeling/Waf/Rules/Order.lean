import Waf.Rules.Patterns
import Waf.Lib.Regex.Joined

/-!
# The order of the headers

A surface joins the header lines in the enumeration order of a hash map. All patterns that the scans
apply to them match a part of a text wherever it stands, but for the one that looks for a comment at
the end. So two orders can only differ in the matches that read a line break between two headers, and
in which header comes last.
-/

namespace Waf
open Lib Lib.Regex

/-! ## Header lines -/

/-- The lines of the headers that are not left out, in the order of the map. -/
def headerLines (headers : HashMap Str Str) : List Str :=
  (headers.toPairs.filter fun e => !isSkipHeader e.1).map fun e => e.1 ++ ": " ++ e.2

/-- The text of the joined lines, with the line breaks between them marked. -/
def markedText (lines : List Str) : List (Option Char) :=
  [none].intercalate (lines.map fun l => l.map some)

/-- A marked line break is read like any other. -/
def lineReader (u : Tables) : Regex.Reader CharSet (Option Char) := u.reader.comap (·.getD '\n')

variable {crates : Crates} {u : Tables} {ctx : RequestCtx} {headers : HashMap Str Str}
  {patterns lines : List Str} {l : Str} {r : Regex CharSet}

/-- The headers are their lines with marks for the line ends. -/
lemma headersConcat_eq : (Surface.ofCtx crates ctx).headersConcat
    = (markedText (headerLines ctx.headers)).map (·.getD '\n') := by
  rw [markedText, map_join, List.map_map]
  have he : (List.map (fun c : Option Char => c.getD '\n') ∘ fun l : Str => l.map some) = id := by
    funext l
    rw [Function.comp_apply, List.map_map]
    exact List.map_id l
  rw [he, List.map_id]
  rfl

/-- Within a line the marks make no difference. -/
lemma matches_line : Matches (lineReader u) r (l.map some) ↔ Matches u.reader r l := by
  rw [lineReader, ← matches_map, List.map_map]
  show Matches u.reader r (l.map id) ↔ _
  rw [List.map_id]

/-- A mark is no word character. -/
lemma lineReader_none : (lineReader u).word none = false := by
  show u.word '\n' = false
  rw [u.word_ascii _ (by decide)]
  rfl

/-- A line has a colon, behind the name. -/
lemma colon_mem (hl : l ∈ headerLines headers) : ':' ∈ l := by
  obtain ⟨e, -, rfl⟩ := List.mem_map.mp hl
  exact List.mem_append_left _ (List.mem_append_right _ (.head _))

/-! ## What depends on the order -/

/-- A match of the patterns reads a line break between two lines. -/
def CrossesLines (u : Tables) (patterns : List Str) (lines : List Str) : Prop :=
  ∃ r ∈ exprs patterns, Crosses (lineReader u) r none (markedText lines)

/-- One of the patterns matches the last line. -/
def LastLineHit (crates : Crates) (patterns : List Str) (lines : List Str) : Prop :=
  ∃ l ∈ lines.getLast?, regexSetMatch crates patterns l = true

/-- One of the patterns matches some line on its own. -/
def LineHit (crates : Crates) (patterns : List Str) (lines : List Str) : Prop :=
  ∃ l ∈ lines, regexSetMatch crates patterns l = true

/-- Floating patterns match the headers in one line or across a line break. -/
lemma floating_headers
    (docs : ∀ p ∈ patterns, crates.regex p = (parse p).map (search u.reader))
    (hf : ∀ r ∈ exprs patterns, r.floats = true) :
    regexSetMatch crates patterns (Surface.ofCtx crates ctx).headersConcat = true
      ↔ LineHit crates patterns (headerLines ctx.headers)
        ∨ CrossesLines u patterns (headerLines ctx.headers) := by
  have key : ∀ r ∈ exprs patterns,
      Matches u.reader r (Surface.ofCtx crates ctx).headersConcat
        ↔ (∃ l ∈ headerLines ctx.headers, Matches u.reader r l)
          ∨ Crosses (lineReader u) r none (markedText (headerLines ctx.headers)) := by
    intro r hr
    rw [headersConcat_eq, matches_map, markedText, ← lineReader,
      matches_join_iff (hf r hr) lineReader_none]
    simp only [List.mem_map, exists_exists_and_eq_and, matches_line]
  rw [regexSetMatch_iff docs]
  constructor
  · rintro ⟨r, hr, h⟩
    obtain ⟨l, hl, h⟩ | h := (key r hr).mp h
    · exact .inl ⟨l, hl, (regexSetMatch_iff docs).mpr ⟨r, hr, h⟩⟩
    · exact .inr ⟨r, hr, h⟩
  · rintro (⟨l, hl, h⟩ | ⟨r, hr, h⟩)
    · obtain ⟨r, hr, h⟩ := (regexSetMatch_iff docs).mp h
      exact ⟨r, hr, (key r hr).mpr (.inl ⟨l, hl, h⟩)⟩
    · exact ⟨r, hr, (key r hr).mpr (.inr h)⟩

/-- An expression for the end of a text that does not read colons matches the last line. -/
def EndsLine (r : Regex CharSet) : Prop :=
  r.stopped = true ∧ r.opens = false ∧ r.nullable = false
    ∧ ∀ s ∈ r.sets, s.mem asciiTables ':' = false

/-- Patterns for the end of a text match the headers in the last line. -/
lemma closing_headers
    (docs : ∀ p ∈ patterns, crates.regex p = (parse p).map (search u.reader))
    (hc : ∀ r ∈ exprs patterns, EndsLine r) :
    regexSetMatch crates patterns (Surface.ofCtx crates ctx).headersConcat = true
      ↔ LastLineHit crates patterns (headerLines ctx.headers) := by
  have key : ∀ r ∈ exprs patterns,
      Matches u.reader r (Surface.ofCtx crates ctx).headersConcat
        ↔ ∃ l ∈ (headerLines ctx.headers).getLast?, Matches u.reader r l := by
    intro r hr
    obtain ⟨hstop, ho, hn, hs⟩ := hc r hr
    rw [headersConcat_eq, matches_map, markedText, ← lineReader,
      matches_join_last hstop ho hn lineReader_none, List.getLast?_map]
    · simp only [Option.mem_map, exists_exists_and_eq_and, matches_line]
    · intro m hm
      obtain ⟨l, hl, rfl⟩ := List.mem_map.mp hm
      refine ⟨some ':', List.mem_map_of_mem (colon_mem hl), fun s hs' => ?_⟩
      show s.mem u ':' = false
      rw [CharSet.mem_ascii (by decide)]
      exact hs s hs'
  rw [regexSetMatch_iff docs]
  constructor
  · rintro ⟨r, hr, h⟩
    obtain ⟨l, hl, h⟩ := (key r hr).mp h
    exact ⟨l, hl, (regexSetMatch_iff docs).mpr ⟨r, hr, h⟩⟩
  · rintro ⟨l, hl, h⟩
    obtain ⟨r, hr, h⟩ := (regexSetMatch_iff docs).mp h
    exact ⟨r, hr, (key r hr).mpr ⟨l, hl, h⟩⟩

/-! ## Enumeration orders -/

/-- The headers of the request, in some order. -/
def RequestCtx.Order (ctx : RequestCtx) (headers : HashMap Str Str) : Prop :=
  headers.entries.Perm ctx.headers.entries

/-- The surface of the request when its headers come in the given order. -/
def surfaceIn (crates : Crates) (ctx : RequestCtx) (headers : HashMap Str Str) : Surface :=
  Surface.ofCtx crates { ctx with headers }

/-- The scans that search the headers hit alike. -/
structure HitAlike (crates : Crates) (s s' : Surface) : Prop where
  sqli : (Sqli.scan crates s).isSome = (Sqli.scan crates s').isSome
  xss : (Xss.scan crates s).isSome = (Xss.scan crates s').isSome
  cmdi : (Cmdi.scan crates s).isSome = (Cmdi.scan crates s').isSome

/-- No two orders of the headers differ in what the scans find. -/
def OrderBlind (crates : Crates) (ctx : RequestCtx) : Prop :=
  ∀ m m', ctx.Order m → ctx.Order m' →
    HitAlike crates (surfaceIn crates ctx m) (surfaceIn crates ctx m')

/-- A line break between two lines is read, or the last line ends in a match. -/
def Straddles (crates : Crates) (u : Tables) (floating closing : List Str)
    (headers : HashMap Str Str) : Prop :=
  CrossesLines u floating (headerLines headers) ∨ LastLineHit crates closing (headerLines headers)

/-- The order of the headers does not matter: another text is hit, or a header line on its own, or the
orders all straddle lines or all do not. -/
def Settled (crates : Crates) (u : Tables) (floating closing : List Str) (ctx : RequestCtx) : Prop :=
  (∃ t ∈ (Surface.ofCtx crates ctx).targets,
      regexSetMatch crates (floating ++ closing) t = true)
    ∨ LineHit crates floating (headerLines ctx.headers)
    ∨ (∀ m, ctx.Order m → ¬ Straddles crates u floating closing m)
    ∨ ∀ m, ctx.Order m → Straddles crates u floating closing m

/-- The patterns of a scan, by where in the headers they can match. -/
structure Sorted (patterns floating closing : List Str) : Prop where
  perm : patterns.Perm (floating ++ closing)
  floats : ∀ r ∈ exprs floating, r.floats = true
  ends : ∀ r ∈ exprs closing, EndsLine r

variable {floating closing : List Str} {m : HashMap Str Str}

lemma regexSetMatch_append {text : Str} :
    regexSetMatch crates (floating ++ closing) text = true
      ↔ regexSetMatch crates floating text = true ∨ regexSetMatch crates closing text = true := by
  rw [regexSetMatch, List.any_append, Bool.or_eq_true]
  rfl

/-- Hits within a line do not depend on the order. -/
lemma lineHit_order (h : ctx.Order m) : LineHit crates patterns (headerLines m)
    ↔ LineHit crates patterns (headerLines ctx.headers) := by
  have hp : (headerLines m).Perm (headerLines ctx.headers) := ((h.map _).filter _).map _
  exact exists_congr fun l => and_congr_left' hp.mem_iff

namespace Sorted
variable (hs : Sorted patterns floating closing)
  (docs : ∀ p ∈ patterns, crates.regex p = (parse p).map (search u.reader))
include hs

/-- Patterns may be sorted. -/
lemma match_iff {text : Str} : regexSetMatch crates patterns text = true
    ↔ regexSetMatch crates (floating ++ closing) text = true := by
  rw [regexSetMatch, hs.perm.any_eq]
  rfl

include docs

/-- What a scan finds with the headers in the order `m`. -/
lemma hit_iff (h : ctx.Order m) :
    (surfaceIn crates ctx m).texts.any (regexSetMatch crates patterns) = true
      ↔ ((∃ t ∈ (Surface.ofCtx crates ctx).targets,
            regexSetMatch crates (floating ++ closing) t = true)
          ∨ LineHit crates floating (headerLines ctx.headers))
        ∨ Straddles crates u floating closing m := by
  have docs' : ∀ p ∈ floating ++ closing, crates.regex p = (parse p).map (search u.reader) :=
    fun p hp => docs p (hs.perm.mem_iff.mpr hp)
  have hheaders : regexSetMatch crates patterns (surfaceIn crates ctx m).headersConcat = true
      ↔ LineHit crates floating (headerLines ctx.headers)
        ∨ Straddles crates u floating closing m := by
    rw [hs.match_iff, regexSetMatch_append, surfaceIn,
      floating_headers (fun p hp => docs' p (List.mem_append_left _ hp)) hs.floats,
      closing_headers (fun p hp => docs' p (List.mem_append_right _ hp)) hs.ends, or_assoc]
    exact or_congr_left (lineHit_order h)
  have htexts : (surfaceIn crates ctx m).texts.any (regexSetMatch crates patterns) = true
      ↔ (∃ t ∈ (Surface.ofCtx crates ctx).targets, regexSetMatch crates patterns t = true)
        ∨ regexSetMatch crates patterns (surfaceIn crates ctx m).headersConcat = true := by
    rw [Surface.any_texts, Bool.or_eq_true, List.any_eq_true]
    rfl
  rw [htexts, hheaders, or_assoc]
  simp only [hs.match_iff]

/-- The orders agree on a scan iff they do not matter for its patterns. -/
lemma agree_iff : (∀ m m', ctx.Order m → ctx.Order m' →
      (surfaceIn crates ctx m).texts.any (regexSetMatch crates patterns)
        = (surfaceIn crates ctx m').texts.any (regexSetMatch crates patterns))
    ↔ Settled crates u floating closing ctx := by
  constructor
  · intro h
    by_contra hn
    rw [Settled, ← or_assoc, not_or] at hn
    obtain ⟨hk, hd⟩ := hn
    push Not at hd
    obtain ⟨hd, hd'⟩ := hd
    obtain ⟨m, hm, hs₁⟩ := hd
    obtain ⟨m', hm', hs₂⟩ := hd'
    have hit := (hs.hit_iff docs hm).mpr (.inr hs₁)
    rw [h m m' hm hm', hs.hit_iff docs hm'] at hit
    exact hit.elim hk hs₂
  · intro h m m' hm hm'
    rw [Bool.eq_iff_iff, hs.hit_iff docs hm, hs.hit_iff docs hm']
    obtain h | h | h | h := h
    · exact iff_of_true (.inl (.inl h)) (.inl (.inl h))
    · exact iff_of_true (.inl (.inr h)) (.inl (.inr h))
    · rw [or_iff_left (h m hm), or_iff_left (h m' hm')]
    · exact iff_of_true (.inr (h m hm)) (.inr (h m' hm'))

end Sorted

/-! ## The scans -/

/-- The pattern for a comment at the end of a text, the one with an anchor. -/
def commentEnd : Str := r"(?:--|#)\s*$"

/-- All but one of the patterns float, and that one closes. -/
lemma sqli_sorted :
    Sorted Sqli.PATTERNS (Sqli.PATTERNS.erase commentEnd) [commentEnd] where
  perm := by
    have hmem : commentEnd ∈ Sqli.PATTERNS := by
      unfold Sqli.PATTERNS commentEnd
      repeat rw [String.toList_ofList]
      decide
    exact (List.perm_cons_erase hmem).trans (List.perm_append_singleton _ _).symm
  floats := by
    unfold Sqli.PATTERNS commentEnd
    repeat rw [String.toList_ofList]
    set_option maxRecDepth 8000 in decide
  ends := by
    unfold commentEnd EndsLine
    repeat rw [String.toList_ofList]
    decide

lemma xss_sorted : Sorted Xss.PATTERNS Xss.PATTERNS [] where
  perm := by rw [List.append_nil]
  floats := by
    unfold Xss.PATTERNS
    repeat rw [String.toList_ofList]
    decide
  ends _ hr := by cases hr

lemma cmdi_sorted : Sorted Cmdi.PATTERNS Cmdi.PATTERNS [] where
  perm := by rw [List.append_nil]
  floats := by
    unfold Cmdi.PATTERNS
    repeat rw [String.toList_ofList]
    set_option maxRecDepth 8000 in decide
  ends _ hr := by cases hr

/-- The scans do not depend on the enumeration order of the headers iff it does not matter for any
family: another text is hit, or a header line on its own by a pattern other than the one for a comment
at the end, or the orders all give a match across a line break or a comment at the end of the last
line, or none of them does. -/
theorem orderBlind_iff (docs : RegexDocs crates u) : OrderBlind crates ctx
    ↔ Settled crates u (Sqli.PATTERNS.erase commentEnd) [commentEnd] ctx
      ∧ Settled crates u Xss.PATTERNS [] ctx ∧ Settled crates u Cmdi.PATTERNS [] ctx := by
  rw [← sqli_sorted.agree_iff docs.sqli, ← xss_sorted.agree_iff docs.xss,
    ← cmdi_sorted.agree_iff docs.cmdi]
  constructor
  · intro h
    refine ⟨fun m m' hm hm' => ?_, fun m m' hm hm' => ?_, fun m m' hm hm' => ?_⟩
    · rw [← Sqli.scan_isSome, ← Sqli.scan_isSome]
      exact (h m m' hm hm').sqli
    · rw [← Xss.scan_isSome, ← Xss.scan_isSome]
      exact (h m m' hm hm').xss
    · rw [← Cmdi.scan_isSome, ← Cmdi.scan_isSome]
      exact (h m m' hm hm').cmdi
  · rintro ⟨hsqli, hxss, hcmdi⟩ m m' hm hm'
    constructor
    · rw [Sqli.scan_isSome, Sqli.scan_isSome]
      exact hsqli m m' hm hm'
    · rw [Xss.scan_isSome, Xss.scan_isSome]
      exact hxss m m' hm hm'
    · rw [Cmdi.scan_isSome, Cmdi.scan_isSome]
      exact hcmdi m m' hm hm'

/-- Two headers, the first with a value that ends like a comment. -/
def noteFirst : HashMap Str Str :=
  ⟨[⟨"x-note", "draft --"⟩, ⟨"x-page", "1"⟩], by rw [List.NodupKeys]; decide⟩

/-- The same headers in the other order. -/
def noteLast : HashMap Str Str :=
  ⟨[⟨"x-page", "1"⟩, ⟨"x-note", "draft --"⟩], by rw [List.NodupKeys]; decide⟩

/-- A request with the two headers. -/
def noteRequest : RequestCtx where
  requestId := "1"
  clientIp := .v4 (.new 10 0 0 1)
  method := "GET"
  uri := "/x"
  path := "/x"
  headers := noteFirst

/-- The request is hit when the note comes last, and only then. -/
theorem noteRequest_not_orderBlind :
    RegexDocs searchCrates asciiTables ∧ ¬ OrderBlind searchCrates noteRequest := by
  refine ⟨searchCrates_docs, fun h => ?_⟩
  have docs := searchCrates_docs.sqli
  have first : (Sqli.scan searchCrates (surfaceIn searchCrates noteRequest noteFirst)).isSome
      = false := by
    rw [Sqli.scan_isSome, any_regexSetMatch docs]
    unfold Sqli.PATTERNS
    repeat rw [String.toList_ofList]
    set_option maxRecDepth 8000 in decide
  have last : (Sqli.scan searchCrates (surfaceIn searchCrates noteRequest noteLast)).isSome
      = true := by
    rw [Sqli.scan_isSome, any_regexSetMatch docs]
    unfold Sqli.PATTERNS
    repeat rw [String.toList_ofList]
    set_option maxRecDepth 8000 in decide
  have he := (h noteFirst noteLast (.refl _) (.swap _ _ _)).sqli
  rw [first, last] at he
  cases he

/-- A comment at the end of the last header. -/
theorem noteRequest_orderBlind_iff : OrderBlind searchCrates noteRequest
    ↔ Settled searchCrates asciiTables (Sqli.PATTERNS.erase commentEnd) [commentEnd] noteRequest
      ∧ Settled searchCrates asciiTables Xss.PATTERNS [] noteRequest
      ∧ Settled searchCrates asciiTables Cmdi.PATTERNS [] noteRequest :=
  orderBlind_iff searchCrates_docs

end Waf
