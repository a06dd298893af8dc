import Waf.Rules.Patterns
import Waf.Lib.Regex.Case

/-!
# Letter case

Every rule pattern but one is closed under ASCII letter case. The pattern for stacked queries spells
its keywords in lower case and has no `(?i)`, so a scan for SQL injection sees the case of a text in
which no other pattern matches.
-/

namespace Waf
open Lib Lib.Regex

namespace Surface

def map (f : Str → Str) (s : Surface) : Surface where
  uri := f s.uri
  queryDecoded := f s.queryDecoded
  pathDecoded := f s.pathDecoded
  headersConcat := f s.headersConcat
  bodyPreview := f s.bodyPreview
  userAgent := f s.userAgent

/-- The texts of the surfaces differ in ASCII letter case alone. -/
def SameButCase (s s' : Surface) : Prop := s'.map toAsciiLower = s.map toAsciiLower

/-- The scans of both surfaces hit alike, family by family. -/
structure ScannedAlike (crates : Crates) (s s' : Surface) : Prop where
  sqli : (Sqli.scan crates s').isSome = (Sqli.scan crates s).isSome
  xss : (Xss.scan crates s').isSome = (Xss.scan crates s).isSome
  traversal : (Traversal.scan crates s').isSome = (Traversal.scan crates s).isSome
  cmdi : (Cmdi.scan crates s').isSome = (Cmdi.scan crates s).isSome
  lfi : (Lfi.scan crates s').isSome = (Lfi.scan crates s).isSome

/-- No change of letter case changes what the scans find. -/
def CaseBlind (crates : Crates) (s : Surface) : Prop :=
  ∀ s', s.SameButCase s' → s.ScannedAlike crates s'

/-- Changing a surface changes its texts. -/
lemma texts_map {f : Str → Str} (s : Surface) : (s.map f).texts = s.texts.map f := rfl

/-- It changes its targets. -/
lemma targets_map {f : Str → Str} (s : Surface) : (s.map f).targets = s.targets.map f := rfl

end Surface

/-- The pattern for stacked queries, the one with letters and without `(?i)`. -/
def stackedQuery : Str :=
  r";\s*(drop|alter|truncate|create|update|delete|insert|exec|execute)\s+"

variable {crates : Crates} {u : Tables} {patterns : List Str} {text : Str} {s s' : Surface}

/-! ## The sets of the patterns

The literals are turned into lists first, which the kernel would do byte by byte. -/

lemma xss_caseless : ∀ r ∈ exprs Xss.PATTERNS, ∀ c ∈ r.sets, c.caseless = true := by
  unfold Xss.PATTERNS
  repeat rw [String.toList_ofList]
  decide

lemma traversal_caseless : ∀ r ∈ exprs Traversal.PATTERNS, ∀ c ∈ r.sets, c.caseless = true := by
  unfold Traversal.PATTERNS
  repeat rw [String.toList_ofList]
  decide

lemma cmdi_caseless : ∀ r ∈ exprs Cmdi.PATTERNS, ∀ c ∈ r.sets, c.caseless = true := by
  unfold Cmdi.PATTERNS
  repeat rw [String.toList_ofList]
  set_option maxRecDepth 8000 in decide

lemma lfi_caseless : ∀ r ∈ exprs Lfi.PATTERNS, ∀ c ∈ r.sets, c.caseless = true := by
  unfold Lfi.PATTERNS
  repeat rw [String.toList_ofList]
  decide

/-- The sets of the other patterns against SQL injection have no case either. -/
lemma others_caseless : ∀ r ∈ exprs (Sqli.PATTERNS.erase stackedQuery), ∀ c ∈ r.sets,
    c.caseless = true := by
  unfold Sqli.PATTERNS stackedQuery
  repeat rw [String.toList_ofList]
  set_option maxRecDepth 8000 in decide

lemma stackedQuery_mem : stackedQuery ∈ Sqli.PATTERNS := by
  unfold Sqli.PATTERNS stackedQuery
  repeat rw [String.toList_ofList]
  decide

lemma stackedQuery_sets : ∀ r ∈ exprs [stackedQuery],
    r.needs CharSet.lower = true ∧ ∀ c ∈ r.sets, c.caseless = true ∨ c.lower = true := by
  unfold stackedQuery
  repeat rw [String.toList_ofList]
  decide

/-! ## Surfaces that differ in case -/

/-- The case of a text does not change whether closed patterns match it. -/
lemma regexSetMatch_toAsciiLower
    (docs : ∀ p ∈ patterns, crates.regex p = (parse p).map (search u.reader))
    (closed : ∀ r ∈ exprs patterns, ∀ c ∈ r.sets, c.caseless = true) :
    regexSetMatch crates patterns (toAsciiLower text) = regexSetMatch crates patterns text := by
  rw [Bool.eq_iff_iff, regexSetMatch_iff docs, regexSetMatch_iff docs]
  exact exists_congr fun r => and_congr_right fun hr => matches_toAsciiLower (closed r hr)

/-- Caseless patterns match lowered texts as they match the texts. -/
lemma any_map_lower (texts : List Str)
    (docs : ∀ p ∈ patterns, crates.regex p = (parse p).map (search u.reader))
    (closed : ∀ r ∈ exprs patterns, ∀ c ∈ r.sets, c.caseless = true) :
    (texts.map toAsciiLower).any (regexSetMatch crates patterns)
      = texts.any (regexSetMatch crates patterns) := by
  rw [List.any_map]
  congr 1
  funext t
  exact regexSetMatch_toAsciiLower docs closed

/-- What a scan looks at in a surface does not depend on the case, if it is there in lower case too. -/
lemma Surface.SameButCase.any (h : s.SameButCase s') {view : Surface → List Str}
    (hview : ∀ s : Surface, view (s.map toAsciiLower) = (view s).map toAsciiLower)
    (docs : ∀ p ∈ patterns, crates.regex p = (parse p).map (search u.reader))
    (closed : ∀ r ∈ exprs patterns, ∀ c ∈ r.sets, c.caseless = true) :
    (view s').any (regexSetMatch crates patterns) = (view s).any (regexSetMatch crates patterns) := by
  rw [← any_map_lower (view s) docs closed, ← any_map_lower (view s') docs closed, ← hview, ← hview]
  exact congrArg (fun s => (view s).any (regexSetMatch crates patterns)) h

/-- The families without the pattern for stacked queries scan alike whatever the case. -/
lemma Surface.SameButCase.scannedAlike (h : s.SameButCase s') (docs : RegexDocs crates u)
    (hsqli : (Sqli.scan crates s').isSome = (Sqli.scan crates s).isSome) :
    s.ScannedAlike crates s' where
  sqli := hsqli
  xss := by
    rw [Xss.scan_isSome, Xss.scan_isSome]
    exact h.any texts_map docs.xss xss_caseless
  traversal := by
    rw [Traversal.scan_isSome, Traversal.scan_isSome]
    exact h.any targets_map docs.traversal traversal_caseless
  cmdi := by
    rw [Cmdi.scan_isSome, Cmdi.scan_isSome]
    exact h.any texts_map docs.cmdi cmdi_caseless
  lfi := by
    rw [Lfi.scan_isSome, Lfi.scan_isSome]
    exact h.any targets_map docs.lfi lfi_caseless

/-- The patterns against SQL injection are the one for stacked queries and the others. -/
lemma sqli_match : regexSetMatch crates Sqli.PATTERNS text = true
    ↔ regexSetMatch crates (Sqli.PATTERNS.erase stackedQuery) text = true
      ∨ regexSetMatch crates [stackedQuery] text = true := by
  rw [regexSetMatch, (List.perm_cons_erase stackedQuery_mem).any_eq, List.any_cons,
    Bool.or_eq_true, or_comm, regexSetMatch, regexSetMatch, List.any_cons, List.any_nil,
    Bool.or_false]

section Sqli
variable (docs : RegexDocs crates u)
include docs

lemma stacked_docs : ∀ p ∈ [stackedQuery],
    crates.regex p = (parse p).map (search u.reader) := by
  intro p hp
  obtain rfl := List.mem_singleton.mp hp
  exact docs.sqli _ stackedQuery_mem

lemma others_docs : ∀ p ∈ Sqli.PATTERNS.erase stackedQuery,
    crates.regex p = (parse p).map (search u.reader) :=
  fun p hp => docs.sqli p (List.mem_of_mem_erase hp)

/-- Upper case keeps the pattern for stacked queries from matching. -/
lemma stacked_toAsciiUpper : regexSetMatch crates [stackedQuery] (toAsciiUpper text) = false := by
  rw [Bool.eq_false_iff, Ne, regexSetMatch_iff (stacked_docs docs)]
  rintro ⟨r, hr, h⟩
  exact not_matches_toAsciiUpper (stackedQuery_sets r hr).1 h

end Sqli


/-- Some other pattern against SQL injection matches a text of the surface. -/
def Surface.OtherHit (crates : Crates) (s : Surface) : Prop :=
  ∃ t ∈ s.texts, regexSetMatch crates (Sqli.PATTERNS.erase stackedQuery) t = true

/-- In lower case, some text of the surface matches the pattern for stacked queries. -/
def Surface.HasStacked (crates : Crates) (s : Surface) : Prop :=
  ∃ t ∈ s.texts, regexSetMatch crates [stackedQuery] (toAsciiLower t) = true

/-- A hit is one of the other patterns or of the stacked query. -/
lemma sqli_hit : (Sqli.scan crates s).isSome = true
    ↔ s.OtherHit crates ∨ ∃ t ∈ s.texts, regexSetMatch crates [stackedQuery] t = true := by
  rw [Sqli.scan_isSome, List.any_eq_true]
  simp only [sqli_match, and_or_left, exists_or]
  rfl

namespace Surface.SameButCase

/-- Whether another pattern hits does not depend on the case. -/
lemma otherHit (h : s.SameButCase s') (docs : RegexDocs crates u) :
    s'.OtherHit crates ↔ s.OtherHit crates := by
  have he := h.any Surface.texts_map (others_docs docs) others_caseless
  rw [Bool.eq_iff_iff, List.any_eq_true, List.any_eq_true] at he
  exact he

lemma hasStacked (h : s.SameButCase s') : s'.HasStacked crates ↔ s.HasStacked crates := by
  have key : ∀ s : Surface, s.HasStacked crates
      ↔ ∃ t ∈ (s.map toAsciiLower).texts, regexSetMatch crates [stackedQuery] t = true := by
    intro s
    show s.HasStacked crates ↔ ∃ t ∈ s.texts.map toAsciiLower, _
    simp only [List.mem_map, exists_exists_and_eq_and]
    rfl
  rw [key s', h, key s]

end Surface.SameButCase

/-- A stacked query is one in lower case. -/
lemma hasStacked_of_hit (docs : RegexDocs crates u)
    (h : ∃ t ∈ s.texts, regexSetMatch crates [stackedQuery] t = true) : s.HasStacked crates := by
  obtain ⟨t, ht, h⟩ := h
  obtain ⟨r, hr, h⟩ := (regexSetMatch_iff (stacked_docs docs)).mp h
  have h := h.toAsciiLower (stackedQuery_sets r hr).2
  exact ⟨t, ht, (regexSetMatch_iff (stacked_docs docs)).mpr ⟨r, hr, h⟩⟩

/-- Lowering twice is lowering. -/
lemma toAsciiLower_toAsciiLower : toAsciiLower (toAsciiLower text) = toAsciiLower text := by
  rw [toAsciiLower, toAsciiLower, List.map_map]
  exact List.map_congr_left fun c _ => Char.toLower_toLower_eq_toLower c

/-- A lowered surface is the same but for the case. -/
lemma sameButCase_lower : s.SameButCase (s.map toAsciiLower) := by
  have he : ∀ t, toAsciiLower (toAsciiLower t) = toAsciiLower t :=
    fun _ => toAsciiLower_toAsciiLower
  simp only [Surface.SameButCase, Surface.map, he]

lemma sameButCase_upper : s.SameButCase (s.map toAsciiUpper) := by
  have he : ∀ t, toAsciiLower (toAsciiUpper t) = toAsciiLower t :=
    fun t => eq_of_beq eqIgnoreCase_upper
  simp only [Surface.SameButCase, Surface.map, he]

/-- In upper case only the other patterns can hit. -/
lemma sqli_hit_upper (docs : RegexDocs crates u) :
    (Sqli.scan crates (s.map toAsciiUpper)).isSome = true ↔ s.OtherHit crates := by
  rw [sqli_hit, sameButCase_upper.otherHit docs]
  constructor
  · rintro (h | ⟨t, ht, h⟩)
    · exact h
    · obtain ⟨t, -, rfl⟩ : ∃ t₀ ∈ s.texts, toAsciiUpper t₀ = t := List.mem_map.mp ht
      rw [stacked_toAsciiUpper docs] at h
      cases h
  · exact Or.inl

/-- A change of letter case leaves every scan as it is iff another pattern against SQL injection
matches a text of the surface, or no text has a stacked query in any case. -/
theorem caseBlind_iff (docs : RegexDocs crates u) :
    s.CaseBlind crates ↔ s.OtherHit crates ∨ ¬ s.HasStacked crates := by
  constructor
  · intro h
    by_contra hn
    obtain ⟨ho, ⟨t, ht, hs⟩⟩ : ¬ s.OtherHit crates ∧ s.HasStacked crates := by
      rwa [not_or, not_not] at hn
    have lower : (Sqli.scan crates (s.map toAsciiLower)).isSome = true :=
      sqli_hit.mpr (.inr ⟨_, List.mem_map_of_mem ht, hs⟩)
    have upper := mt (sqli_hit_upper docs).mp ho
    rw [(h _ sameButCase_lower).sqli] at lower
    rw [(h _ sameButCase_upper).sqli] at upper
    exact upper lower
  · intro h s' hc
    refine hc.scannedAlike docs ?_
    rw [Bool.eq_iff_iff, sqli_hit, sqli_hit, hc.otherHit docs]
    obtain ho | hn := h
    · exact iff_of_true (.inl ho) (.inl ho)
    · rw [or_iff_left fun h => hn (hasStacked_of_hit docs h), or_iff_left fun h =>
        hn (hc.hasStacked.mp (hasStacked_of_hit docs h))]

/-- A request whose query drops a table. -/
def dropTable : Surface where
  uri := "/x?id=1;%20drop%20t"
  queryDecoded := "id=1; drop t"
  pathDecoded := "/x"
  headersConcat := ""
  bodyPreview := ""
  userAgent := ""

/-- The same surface is only hit in lower case. -/
theorem dropTable_not_caseBlind :
    RegexDocs searchCrates asciiTables ∧ ¬ dropTable.CaseBlind searchCrates := by
  refine ⟨searchCrates_docs, fun h => ?_⟩
  have docs := searchCrates_docs.sqli
  have lower : (Sqli.scan searchCrates dropTable).isSome = true := by
    rw [Sqli.scan_isSome, any_regexSetMatch docs]
    unfold Sqli.PATTERNS
    repeat rw [String.toList_ofList]
    decide
  have upper : (Sqli.scan searchCrates (dropTable.map toAsciiUpper)).isSome = false := by
    rw [Sqli.scan_isSome, any_regexSetMatch docs]
    unfold Sqli.PATTERNS
    repeat rw [String.toList_ofList]
    set_option maxRecDepth 8000 in decide
  rw [(h _ sameButCase_upper).sqli, lower] at upper
  cases upper

/-- A stacked query in small letters. -/
theorem dropTable_caseBlind_iff : dropTable.CaseBlind searchCrates
    ↔ dropTable.OtherHit searchCrates ∨ ¬ dropTable.HasStacked searchCrates :=
  caseBlind_iff searchCrates_docs

end Waf
