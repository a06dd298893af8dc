import Waf.Rules.Patterns
import Waf.Lib.Regex.Case
import Waf.Lib.Regex.Joined
import Waf.Lib.Regex.Respell

/-!
# Two spellings of a space

A query can spell a space as `%20` or as `+`. Decoding turns the first into a space and leaves the
second alone, and no set of a pattern has `+` but those that have almost everything. So a match of the
decoded query survives the change of spelling iff none of the spaces in question has to be whitespace
for it. In the raw URI neither spelling is a space, and no match there is lost.
-/

namespace Waf
open Lib Lib.Regex

/-! ## Queries -/

/-- The parts of a query with the spelling of a space between them. -/
def spelled (tok : Str) (parts : List Str) : Str := tok.intercalate parts

/-- The request with the query, behind the start `pre` of its URI. -/
def RequestCtx.withQuery (ctx : RequestCtx) (pre query : Str) : RequestCtx :=
  { ctx with query, uri := pre ++ query }

variable {crates : Crates} {u : Tables} {ctx : RequestCtx} {patterns parts : List Str}
  {r : Regex CharSet} {pre tok plain : Str} {c : Char}

/-- A spelled query decodes to its parts with what the token stands for. -/
lemma decode_spelled_parts (docs : DecodeDocs crates) (h : Spells tok [c]) :
    decode crates (spelled tok parts) = [c].intercalate (parts.map (decode crates)) := by
  induction parts with
  | nil => exact decode_nil docs
  | cons p parts ih =>
    cases parts with
    | nil => rw [spelled, List.map_singleton, List.intercalate_singleton, List.intercalate_singleton]
    | cons p' parts =>
      rw [spelled, List.intercalate_cons_cons, List.append_assoc, decode_spelled docs h]
      have ih : decode crates (tok.intercalate (p' :: parts))
          = [c].intercalate (decode crates p' :: parts.map (decode crates)) := ih
      rw [ih]
      exact join_cons.symm

/-- The spelling of a URL encoder. -/
def percentSpace : Str := ['%', '2', '0']

/-- The spelling of a form encoder. -/
def plusSpace : Str := ['+']

/-- `%20` stands for a space. -/
lemma spells_percent : Spells percentSpace [' '] where
  fresh := ⟨'%', rfl, rfl⟩
  ne_nil := List.cons_ne_nil _ _
  ascii c hc := by
    obtain rfl := List.mem_singleton.mp hc
    decide
  decode t := by
    show percentDecode ('%' :: '2' :: '0' :: t) = _
    rw [percentDecode_hex (x := 2) (y := 0) rfl rfl]
    rfl

/-- `+` stands for itself. -/
lemma spells_plus : Spells plusSpace ['+'] where
  fresh := ⟨'+', rfl, rfl⟩
  ne_nil := List.cons_ne_nil _ _
  ascii c hc := by
    obtain rfl := List.mem_singleton.mp hc
    decide
  decode t := by
    refine (percentDecode_of_ne (by decide)).trans ?_
    rw [utf8EncodeChar_ascii (by decide)]
    rfl

/-! ## The decoded query -/

/-- The decoded parts, with the spaces in question marked. -/
def markedQuery (crates : Crates) (parts : List Str) : List (Option Char) :=
  [none].intercalate (parts.map fun p => (decode crates p).map some)

/-- A marked space is no whitespace, but a character that a set for anything may read. -/
def keepReader (u : Tables) : Regex.Reader CharSet (Option Char) where
  mem s c := c.elim (s.mem u ' ' && !s.items.contains .space) (s.mem u)
  word c := c.elim false u.word

/-- With either the query is the marked one with the marks filled in. -/
lemma decode_parts (docs : DecodeDocs crates) (h : Spells tok [c]) :
    decode crates (spelled tok parts) = (markedQuery crates parts).map (·.getD c) := by
  rw [decode_spelled_parts docs h, markedQuery, map_join, List.map_map]
  have he : (List.map (fun o : Option Char => o.getD c) ∘ fun p => (decode crates p).map some)
      = decode crates := by
    funext p
    rw [Function.comp_apply, List.map_map]
    exact List.map_id _
  rw [he]
  rfl

/-- What the argument needs of a set: it has a plus if it has a space and is not for whitespace. -/
def CharSet.spaced (s : CharSet) : Bool :=
  (s.mem asciiTables ' ' && !s.items.contains .space) == s.mem asciiTables '+'

/-- The expression keeps a match under the plus iff the marked spaces need not be whitespace for it. -/
lemma keep_iff (hr : ∀ s ∈ r.sets, CharSet.spaced s = true) {m : List (Option Char)} :
    Matches (keepReader u) r m ↔ Matches u.reader r (m.map (·.getD '+')) := by
  rw [matches_map]
  refine matches_congr (fun s hs c => ?_) ?_
  · cases c with
    | some c => rfl
    | none =>
      show (s.mem u ' ' && _) = s.mem u '+'
      rw [CharSet.mem_ascii (c := ' ') (by decide), CharSet.mem_ascii (c := '+') (by decide)]
      exact eq_of_beq (hr s hs)
  · funext c
    cases c with
    | some c => rfl
    | none =>
      show false = u.word '+'
      rw [u.word_ascii _ (by decide)]
      rfl

/-- Such a match is one of the query with real spaces. -/
lemma keep_space {m : List (Option Char)} (h : Matches (keepReader u) r m) :
    Matches u.reader r (m.map (·.getD ' ')) := by
  rw [matches_map]
  refine h.mono (fun s _ c hc => ?_) ?_
  · cases c with
    | some c => exact hc
    | none => exact (Bool.and_eq_true_iff.mp hc).1
  · funext c
    cases c with
    | some c => rfl
    | none =>
      show false = u.word ' '
      rw [u.word_ascii _ (by decide)]
      rfl

/-! ## The raw URI -/

/-- `%20` as a block of letters for a plus. -/
def spaceBlock : Block Char := ⟨'%', ['2', '0'], '+'⟩

def spaceProbe : Probe CharSet where
  head s := s.mem asciiTables '%'
  tail s := s.mem asciiTables '2' || s.mem asciiTables '0'
  new s := s.mem asciiTables '+'
  word s := s.wordy && !s.mem asciiTables '2'

/-- The block of `%20` meets what respelling asks for. -/
lemma spaceBlock_fair : spaceBlock.Fair u.reader where
  head := by
    show u.word '%' = false
    rw [u.word_ascii _ (by decide)]
    rfl
  new := by
    show u.word '+' = false
    rw [u.word_ascii _ (by decide)]
    rfl
  tail c hc := by
    have hd : c = '2' ∨ c = '0' := by simpa [spaceBlock] using hc
    obtain rfl | rfl := hd
    · show u.word '2' = true
      rw [u.word_ascii _ (by decide)]
      rfl
    · show u.word '0' = true
      rw [u.word_ascii _ (by decide)]
      rfl
  tail_ne := List.cons_ne_nil _ _

lemma spaceProbe_sound : spaceProbe.Sound u.reader spaceBlock where
  head s h := (CharSet.mem_ascii (by decide)).symm.trans h
  tail s c hc h := by
    have hd : c = '2' ∨ c = '0' := by simpa [spaceBlock] using hc
    obtain rfl | rfl := hd
    · exact Bool.or_eq_true_iff.mpr (.inl ((CharSet.mem_ascii (by decide)).symm.trans h))
    · exact Bool.or_eq_true_iff.mpr (.inr ((CharSet.mem_ascii (by decide)).symm.trans h))
  new s h := (CharSet.mem_ascii (by decide)).trans h
  word s h c hc := by
    obtain ⟨hw, h2⟩ := Bool.and_eq_true_iff.mp h
    refine ⟨CharSet.word_of_mem hw hc, ?_⟩
    rintro ⟨⟩
    rw [← CharSet.mem_ascii (by decide), show s.mem u '2' = true from hc] at h2
    cases h2

/-- A raw URI with `%20` in the marked places, or with a plus. -/
def markedUri (pre : Str) (parts : List Str) : List (Option Char) :=
  pre.map some ++ [none].intercalate (parts.map fun p => p.map some)

/-- The long spelling of a target has `%20`. -/
lemma long_markedUri : spaceBlock.long (markedUri pre parts) = pre ++ spelled percentSpace parts := by
  have hsome : ∀ t : Str, (t.map some).flatMap
      (fun o => o.elim (spaceBlock.head :: spaceBlock.tail) fun c => [c]) = t := by
    intro t
    rw [List.flatMap_map]
    exact List.flatMap_singleton' t
  rw [markedUri, Block.long, List.flatMap_append, hsome, flatMap_join, List.map_map]
  have he : (List.flatMap (fun o => o.elim (spaceBlock.head :: spaceBlock.tail) fun c => [c])
      ∘ fun p : Str => p.map some) = id := by
    funext p
    exact hsome p
  rw [he, List.map_id]
  rfl

/-- The short one has `+`. -/
lemma short_markedUri : spaceBlock.short (markedUri pre parts) = pre ++ spelled plusSpace parts := by
  have hsome : ∀ t : Str, (t.map some).map (fun o => o.getD spaceBlock.new) = t := by
    intro t
    rw [List.map_map]
    exact List.map_id t
  rw [markedUri, Block.short, List.map_append, hsome, map_join, List.map_map]
  have he : (List.map (fun o => o.getD spaceBlock.new) ∘ fun p : Str => p.map some) = id := by
    funext p
    exact hsome p
  rw [he, List.map_id]
  rfl

/-! ## The scans -/

/-- The surface of the request with the query, its spaces spelled as `tok`. -/
def spelledSurface (crates : Crates) (ctx : RequestCtx) (pre tok : Str) (parts : List Str) : Surface :=
  Surface.ofCtx crates (ctx.withQuery pre (spelled tok parts))

/-- A hit that no space in question is needed for: in one of the other texts, in the raw URI, or by a
match of the decoded query for which the marked spaces need not be whitespace. -/
def KeptHit (crates : Crates) (u : Tables) (patterns others : List Str) (pre : Str)
    (parts : List Str) : Prop :=
  (∃ t ∈ others, regexSetMatch crates patterns t = true)
    ∨ regexSetMatch crates patterns (pre ++ spelled percentSpace parts) = true
    ∨ ∃ r ∈ exprs patterns, Matches (keepReader u) r (markedQuery crates parts)

/-- What the argument needs of the patterns of a scan. -/
def Respellable (patterns : List Str) : Prop :=
  ∀ r ∈ exprs patterns, (r.slides spaceProbe false).isSome = true
    ∧ ∀ s ∈ r.sets, CharSet.spaced s = true

/-- Some text of a surface matches: one of the others, the raw URI or the decoded query. -/
def QueryHit (crates : Crates) (patterns others : List Str) (pre tok : Str) (parts : List Str) : Prop :=
  (∃ t ∈ others, regexSetMatch crates patterns t = true)
    ∨ regexSetMatch crates patterns (pre ++ spelled tok parts) = true
    ∨ regexSetMatch crates patterns (decode crates (spelled tok parts)) = true

section Family
variable {others : List Str}
  (docs : ∀ p ∈ patterns, crates.regex p = (parse p).map (search u.reader))
  (decodes : DecodeDocs crates) (hp : Respellable patterns)
include docs

include hp in
/-- A pattern that matches a raw target with `%20` matches it with `+`. -/
lemma uri_plus (h : regexSetMatch crates patterns (pre ++ spelled percentSpace parts) = true) :
    regexSetMatch crates patterns (pre ++ spelled plusSpace parts) = true := by
  obtain ⟨r, hr, h⟩ := (regexSetMatch_iff docs).mp h
  rw [← long_markedUri] at h
  have h := Matches.short spaceProbe_sound spaceBlock_fair h (hp r hr).1
  rw [short_markedUri] at h
  exact (regexSetMatch_iff docs).mpr ⟨r, hr, h⟩

include decodes

include hp in
/-- A decoded query with `+` is matched iff the marked one is with a plus for the mark. -/
lemma query_plus_iff : regexSetMatch crates patterns (decode crates (spelled plusSpace parts)) = true
    ↔ ∃ r ∈ exprs patterns, Matches (keepReader u) r (markedQuery crates parts) := by
  rw [regexSetMatch_iff docs, decode_parts decodes spells_plus]
  exact exists_congr fun r => and_congr_right fun hr => (keep_iff (hp r hr).2).symm

/-- A hit that is kept is one of the query with `%20`. -/
lemma KeptHit.percent (h : KeptHit crates u patterns others pre parts) :
    QueryHit crates patterns others pre percentSpace parts := by
  obtain h | h | ⟨r, hr, h⟩ := h
  · exact .inl h
  · exact .inr (.inl h)
  · refine .inr (.inr ((regexSetMatch_iff docs).mpr ⟨r, hr, ?_⟩))
    rw [decode_parts decodes spells_percent]
    exact keep_space h

include hp in
/-- It is one of the query with `+`. -/
lemma KeptHit.plus (h : KeptHit crates u patterns others pre parts) :
    QueryHit crates patterns others pre plusSpace parts := by
  obtain h | h | h := h
  · exact .inl h
  · exact .inr (.inl (uri_plus docs hp h))
  · exact .inr (.inr ((query_plus_iff docs decodes hp).mpr h))

include hp in
/-- A hit of the query with `+` is kept, or is one of the raw target. -/
lemma kept_of_plus (h : QueryHit crates patterns others pre plusSpace parts) :
    KeptHit crates u patterns others pre parts
      ∨ regexSetMatch crates patterns (pre ++ spelled plusSpace parts) = true := by
  obtain h | h | h := h
  · exact .inl (.inl h)
  · exact .inr h
  · exact .inl (.inr (.inr ((query_plus_iff docs decodes hp).mp h)))

end Family

/-- The texts of a request beside its query and URI, with the headers or without. -/
def sideTexts (crates : Crates) (ctx : RequestCtx) : List Str :=
  [decode crates ctx.path, fromUtf8Lossy none ctx.bodyPreview,
    (Surface.ofCtx crates ctx).headersConcat]

def sideTargets (crates : Crates) (ctx : RequestCtx) : List Str :=
  [decode crates ctx.path, fromUtf8Lossy none ctx.bodyPreview]

/-- A text of the surface is hit iff the query is. -/
lemma texts_hit_iff : (spelledSurface crates ctx pre tok parts).texts.any
      (regexSetMatch crates patterns) = true
    ↔ QueryHit crates patterns (sideTexts crates ctx) pre tok parts := by
  rw [QueryHit, ← List.any_eq_true, ← Bool.or_eq_true, ← Bool.or_eq_true, ← Bool.eq_iff_iff]
  have key : ∀ q p b h u : Bool,
      (q || (p || (b || (h || (u || false))))) = ((p || (b || (h || false))) || (u || q)) := by
    decide
  exact key _ _ _ _ _

lemma targets_hit_iff : (spelledSurface crates ctx pre tok parts).targets.any
      (regexSetMatch crates patterns) = true
    ↔ QueryHit crates patterns (sideTargets crates ctx) pre tok parts := by
  rw [QueryHit, ← List.any_eq_true, ← Bool.or_eq_true, ← Bool.or_eq_true, ← Bool.eq_iff_iff]
  have key : ∀ q p b u : Bool,
      (q || (p || (b || (u || false)))) = ((p || (b || false)) || (u || q)) := by
    decide
  exact key _ _ _ _

lemma sqli_respellable : Respellable Sqli.PATTERNS := by
  unfold Respellable Sqli.PATTERNS
  repeat rw [String.toList_ofList]
  set_option maxRecDepth 8000 in decide

lemma xss_respellable : Respellable Xss.PATTERNS := by
  unfold Respellable Xss.PATTERNS
  repeat rw [String.toList_ofList]
  decide

lemma cmdi_respellable : Respellable Cmdi.PATTERNS := by
  unfold Respellable Cmdi.PATTERNS
  repeat rw [String.toList_ofList]
  set_option maxRecDepth 8000 in decide

lemma lfi_respellable : Respellable Lfi.PATTERNS := by
  unfold Respellable Lfi.PATTERNS
  repeat rw [String.toList_ofList]
  decide

/-- A scan keeps the hits that no space in question is needed for when plus signs spell them, and
finds no other beyond what the raw URI with plus signs shows. -/
def KeepsHits (crates : Crates) (u : Tables) (scan : Surface → Option Hit) (patterns others : List Str)
    (ctx : RequestCtx) (pre : Str) (parts : List Str) : Prop :=
  (KeptHit crates u patterns others pre parts →
    (scan (spelledSurface crates ctx pre percentSpace parts)).isSome = true
      ∧ (scan (spelledSurface crates ctx pre plusSpace parts)).isSome = true)
  ∧ ((scan (spelledSurface crates ctx pre plusSpace parts)).isSome = true →
    KeptHit crates u patterns others pre parts
      ∨ regexSetMatch crates patterns (pre ++ spelled plusSpace parts) = true)

/-- A scan with patterns that can be followed keeps its hits. -/
lemma keepsHits {scan : Surface → Option Hit} {others : List Str}
    (docs : ∀ p ∈ patterns, crates.regex p = (parse p).map (search u.reader))
    (decodes : DecodeDocs crates) (hp : Respellable patterns)
    (hscan : ∀ tok, (scan (spelledSurface crates ctx pre tok parts)).isSome = true
      ↔ QueryHit crates patterns others pre tok parts) :
    KeepsHits crates u scan patterns others ctx pre parts := by
  rw [KeepsHits, hscan, hscan]
  exact ⟨fun h => ⟨h.percent docs decodes, h.plus docs decodes hp⟩, kept_of_plus docs decodes hp⟩

/-- Spelling encoded spaces as plus signs keeps the hits that no such space has to be whitespace
for. -/
theorem plus_keepsHits (docs : RegexDocs crates u) (decodes : DecodeDocs crates)
    (ctx : RequestCtx) (pre : Str) (parts : List Str) :
    KeepsHits crates u (Sqli.scan crates) Sqli.PATTERNS (sideTexts crates ctx) ctx pre parts
      ∧ KeepsHits crates u (Cmdi.scan crates) Cmdi.PATTERNS (sideTexts crates ctx) ctx pre parts
      ∧ KeepsHits crates u (Xss.scan crates) Xss.PATTERNS (sideTexts crates ctx) ctx pre parts
      ∧ KeepsHits crates u (Lfi.scan crates) Lfi.PATTERNS (sideTargets crates ctx) ctx pre parts := by
  refine ⟨?_, ?_, ?_, ?_⟩
  · refine keepsHits docs.sqli decodes sqli_respellable fun tok => ?_
    rw [Sqli.scan_isSome, texts_hit_iff]
  · refine keepsHits docs.cmdi decodes cmdi_respellable fun tok => ?_
    rw [Cmdi.scan_isSome, texts_hit_iff]
  · refine keepsHits docs.xss decodes xss_respellable fun tok => ?_
    rw [Xss.scan_isSome, texts_hit_iff]
  · refine keepsHits docs.lfi decodes lfi_respellable fun tok => ?_
    rw [Lfi.scan_isSome, targets_hit_iff]

/-- A request whose query is yet to come. -/
def shopRequest : RequestCtx where
  requestId := "1"
  clientIp := .v4 (.new 10 0 0 1)
  method := "GET"
  uri := "/shop"
  path := "/shop"

/-- The parts of a query for a union of selections. -/
def unionParts : List Str := ["id=1", "UNION", "SELECT", "1"]

/-- The scan finds the union when `%20` spells its spaces, and misses it when plus signs do. -/
theorem union_missed : RegexDocs searchCrates asciiTables ∧ DecodeDocs searchCrates
    ∧ (Sqli.scan searchCrates
        (spelledSurface searchCrates shopRequest "/shop?" percentSpace unionParts)).isSome = true
    ∧ ¬ (Sqli.scan searchCrates
        (spelledSurface searchCrates shopRequest "/shop?" plusSpace unionParts)).isSome = true := by
  refine ⟨searchCrates_docs, searchCrates_decode, ?_, ?_⟩
  all_goals
    rw [Sqli.scan_isSome, any_regexSetMatch searchCrates_docs.sqli]
    unfold Sqli.PATTERNS
    repeat rw [String.toList_ofList]
    set_option maxRecDepth 8000 in decide

/-- A union query, for all four families. -/
theorem union_keepsHits :
    KeepsHits searchCrates asciiTables (Sqli.scan searchCrates) Sqli.PATTERNS
        (sideTexts searchCrates shopRequest) shopRequest "/shop?" unionParts
      ∧ KeepsHits searchCrates asciiTables (Cmdi.scan searchCrates) Cmdi.PATTERNS
        (sideTexts searchCrates shopRequest) shopRequest "/shop?" unionParts
      ∧ KeepsHits searchCrates asciiTables (Xss.scan searchCrates) Xss.PATTERNS
        (sideTexts searchCrates shopRequest) shopRequest "/shop?" unionParts
      ∧ KeepsHits searchCrates asciiTables (Lfi.scan searchCrates) Lfi.PATTERNS
        (sideTargets searchCrates shopRequest) shopRequest "/shop?" unionParts :=
  plus_keepsHits searchCrates_docs searchCrates_decode shopRequest "/shop?" unionParts

end Waf
