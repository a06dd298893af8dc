import Waf.Rules.Decode
import Waf.Lib.Regex.Syntax

/-!
# What the patterns match

The crate that compiles the patterns is a parameter of the model. `RegexDocs` says what the rules rely
on: a rule pattern compiles to a search for the expression it denotes. A scan then hits iff one of its
expressions matches one of its fields (`scanFields_isSome`, `regexSetMatch_iff`).
-/

namespace Waf
open Lib Lib.Regex

/-- The patterns of the rule families. -/
def families : List (List Str) :=
  [Sqli.PATTERNS, Xss.PATTERNS, Traversal.PATTERNS, Cmdi.PATTERNS, Lfi.PATTERNS]

/-- The crate searches for the expressions that the rule patterns denote. -/
def RegexDocs (crates : Crates) (u : Tables) : Prop :=
  ∀ ps ∈ families, ∀ p ∈ ps, crates.regex p = (parse p).map (search u.reader)

/-- Crates that search by the expressions, with the tables for ASCII, and decode as documented. -/
def searchCrates : Crates :=
  { idleCrates with
    regex := fun p => (parse p).map (search asciiTables.reader)
    percentDecode := percentDecode }

lemma searchCrates_docs : RegexDocs searchCrates asciiTables := fun _ _ _ _ => rfl

lemma searchCrates_decode : DecodeDocs searchCrates := rfl

/-- The expressions of some patterns. -/
def exprs (patterns : List Str) : List (Regex CharSet) := patterns.filterMap parse

variable {crates : Crates} {u : Tables} {patterns : List Str} {text : Str}

namespace RegexDocs
variable (docs : RegexDocs crates u)
include docs

/-- The patterns of SQL injection compile to their search. -/
lemma sqli : ∀ p ∈ Sqli.PATTERNS, crates.regex p = (parse p).map (search u.reader) :=
  docs _ (.head _)

lemma xss : ∀ p ∈ Xss.PATTERNS, crates.regex p = (parse p).map (search u.reader) :=
  docs _ (.tail _ (.head _))

lemma traversal : ∀ p ∈ Traversal.PATTERNS,
    crates.regex p = (parse p).map (search u.reader) :=
  docs _ (.tail _ (.tail _ (.head _)))

lemma cmdi : ∀ p ∈ Cmdi.PATTERNS, crates.regex p = (parse p).map (search u.reader) :=
  docs _ (.tail _ (.tail _ (.tail _ (.head _))))

lemma lfi : ∀ p ∈ Lfi.PATTERNS, crates.regex p = (parse p).map (search u.reader) :=
  docs _ (.tail _ (.tail _ (.tail _ (.tail _ (.head _)))))

end RegexDocs

/-- A set matches iff one of its expressions does. -/
lemma regexSetMatch_iff (docs : ∀ p ∈ patterns, crates.regex p = (parse p).map (search u.reader)) :
    regexSetMatch crates patterns text = true ↔ ∃ r ∈ exprs patterns, Matches u.reader r text := by
  rw [regexSetMatch, List.any_eq_true]
  constructor
  · rintro ⟨p, hp, h⟩
    rw [docs p hp, Option.any_map, Option.any_eq_true] at h
    obtain ⟨r, hr, h⟩ := h
    exact ⟨r, List.mem_filterMap.mpr ⟨p, hp, hr⟩, search_iff.mp h⟩
  · rintro ⟨r, hr, h⟩
    obtain ⟨p, hp, hr⟩ := List.mem_filterMap.mp hr
    refine ⟨p, hp, ?_⟩
    rw [docs p hp, hr]
    exact search_iff.mpr h

/-- Which texts match can be decided expression by expression. -/
lemma any_regexSetMatch {texts : List Str}
    (docs : ∀ p ∈ patterns, crates.regex p = (parse p).map (search u.reader)) :
    texts.any (regexSetMatch crates patterns)
      = (exprs patterns).any fun r => texts.any (search u.reader r) := by
  rw [Bool.eq_iff_iff]
  simp only [List.any_eq_true, regexSetMatch_iff docs, search_iff]
  constructor
  · rintro ⟨t, ht, r, hr, h⟩
    exact ⟨r, hr, t, ht, h⟩
  · rintro ⟨r, hr, t, ht, h⟩
    exact ⟨t, ht, r, hr, h⟩

/-- Fields are hit iff one of them matches. -/
lemma scanFields_isSome {ruleId category : Str} {fields : List (Str × Str)} :
    (scanFields crates ruleId category patterns fields).isSome
      = fields.any fun f => regexSetMatch crates patterns f.2 := by
  rw [scanFields, Option.isSome_map, List.isSome_find?]

/-- The texts that all scans search but those for traversal and file inclusion. -/
def Surface.texts (s : Surface) : List Str :=
  [s.queryDecoded, s.pathDecoded, s.bodyPreview, s.headersConcat, s.uri]

/-- The texts that the scans for traversal and file inclusion search. -/
def Surface.targets (s : Surface) : List Str :=
  [s.queryDecoded, s.pathDecoded, s.bodyPreview, s.uri]

variable {s : Surface}

/-- The texts are the targets and the headers. -/
lemma Surface.any_texts {p : Str → Bool} :
    s.texts.any p = (s.targets.any p || p s.headersConcat) := by
  simp only [texts, targets, List.any_cons, List.any_nil]
  ac_rfl

/-- SQL injection is looked for in all texts. -/
lemma Sqli.scan_isSome :
    (Sqli.scan crates s).isSome = s.texts.any (regexSetMatch crates Sqli.PATTERNS) :=
  scanFields_isSome

lemma Xss.scan_isSome :
    (Xss.scan crates s).isSome = s.texts.any (regexSetMatch crates Xss.PATTERNS) :=
  scanFields_isSome

lemma Cmdi.scan_isSome :
    (Cmdi.scan crates s).isSome = s.texts.any (regexSetMatch crates Cmdi.PATTERNS) :=
  scanFields_isSome

/-- File inclusion is looked for in the targets. -/
lemma Lfi.scan_isSome :
    (Lfi.scan crates s).isSome = s.targets.any (regexSetMatch crates Lfi.PATTERNS) :=
  scanFields_isSome

lemma Traversal.scan_isSome :
    (Traversal.scan crates s).isSome
      = s.targets.any (regexSetMatch crates Traversal.PATTERNS) := by
  rw [Traversal.scan, scanFields_isSome]
  simp only [Surface.targets, List.any_cons, List.any_nil]
  ac_rfl

end Waf
