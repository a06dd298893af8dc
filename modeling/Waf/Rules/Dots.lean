import Waf.Rules.Patterns
import Waf.Lib.Regex.Words

/-!
# Encoded traversals

Two dots and a slash in a path, each character literal, percent-encoded once or percent-encoded twice.
After the one decoding the dots are both literal, both `%2e`, or one of each. The patterns know the
first two kinds (`even_hit`). They have none for the third, and there the scan finds no more than it
finds on both sides of a cut between the dots (`dotsSlash_hit_iff`).
-/

namespace Waf
open Lib Lib.Regex

/-! ## Spellings -/

inductive Spelling where
  | literal
  | once (upper : Bool)
  | twice (upper : Bool)

/-- The code of a character as two hexadecimal digits, of either case. -/
def hexCode (upper : Bool) (c : Char) : Str :=
  if upper then toAsciiUpper (hex 2 c.toNat) else hex 2 c.toNat

namespace Spelling

/-- The spelling of a character. -/
def write (c : Char) : Spelling → Str
  | literal => [c]
  | once upper => '%' :: hexCode upper c
  | twice upper => '%' :: '2' :: '5' :: hexCode upper c

/-- What one decoding leaves of it. -/
def plain (c : Char) : Spelling → Str
  | literal | once _ => [c]
  | twice upper => '%' :: hexCode upper c

def double : Spelling → Bool
  | twice _ => true
  | literal | once _ => false

/-- The characters of a step upwards in a path. -/
def stepChars : List Char := ['.', '/', '\\']

lemma mem_stepChars {c : Char} (hc : c ∈ stepChars) : c = '.' ∨ c = '/' ∨ c = '\\' := by
  simpa only [stepChars, List.mem_cons, List.not_mem_nil, or_false] using hc

/-- The code of such a character is two digits. -/
lemma hexCode_eq {c : Char} (hc : c ∈ stepChars) (upper : Bool) :
    ∃ a b, hexCode upper c = [a, b]
      ∧ (hexVal a = some (c.toNat / 16) ∧ hexVal b = some (c.toNat % 16))
      ∧ (a.toNat < 0x80 ∧ b.toNat < 0x80) ∧ a ≠ '%' ∧ b ≠ '%' := by
  obtain rfl | rfl | rfl := mem_stepChars hc
  all_goals cases upper <;> exact ⟨_, _, rfl, by decide⟩

/-- Step characters are ASCII, and neither percent signs nor digits. -/
lemma ascii_of_stepChars {c : Char} (hc : c ∈ stepChars) :
    c.toNat < 0x80 ∧ c ≠ '%' ∧ hexVal c = none := by
  obtain rfl | rfl | rfl := mem_stepChars hc
  all_goals decide

lemma plain_ascii {c : Char} (hc : c ∈ stepChars) (s : Spelling) :
    ∀ d ∈ s.plain c, d.toNat < 0x80 := by
  obtain ⟨hascii, -, -⟩ := ascii_of_stepChars hc
  have single : ∀ d ∈ [c], d.toNat < 0x80 := by
    intro d hd
    obtain rfl := List.mem_singleton.mp hd
    exact hascii
  cases s with
  | literal => exact single
  | once upper => exact single
  | twice upper =>
    obtain ⟨a, b, he, -, ⟨ha, hb⟩, -⟩ := hexCode_eq hc upper
    rw [plain, he]
    intro d hd
    cases hd with
    | head => decide
    | tail _ hd =>
      cases hd with
      | head => exact ha
      | tail _ hd =>
        obtain rfl := List.mem_singleton.mp hd
        exact hb

/-- One decoding of a spelling. -/
lemma decode_write {c : Char} {t : Str} (hc : c ∈ stepChars) (s : Spelling) :
    percentDecode (s.write c ++ t) = asciiBytes (s.plain c) ++ percentDecode t := by
  obtain ⟨hascii, hp, -⟩ := ascii_of_stepChars hc
  cases s with
  | literal =>
    refine (percentDecode_of_ne hp).trans ?_
    rw [utf8EncodeChar_ascii hascii]
    rfl
  | once upper =>
    obtain ⟨a, b, he, ⟨hx, hy⟩, -, -⟩ := hexCode_eq hc upper
    rw [write, he]
    refine (percentDecode_hex hx hy).trans ?_
    rw [Nat.div_add_mod]
    rfl
  | twice upper =>
    obtain ⟨a, b, he, -, ⟨ha, hb⟩, hap, hbp⟩ := hexCode_eq hc upper
    rw [write, plain, he]
    show percentDecode ('%' :: '2' :: '5' :: a :: b :: t) = _
    rw [percentDecode_hex (x := 2) (y := 5) rfl rfl, percentDecode_of_ne hap,
      percentDecode_of_ne hbp, utf8EncodeChar_ascii ha, utf8EncodeChar_ascii hb]
    rfl

/-- Every spelling is decoded once to its plain form. -/
lemma spells {c : Char} (hc : c ∈ stepChars) (s : Spelling) : Spells (s.write c) (s.plain c) where
  fresh := by
    obtain ⟨-, -, hx⟩ := ascii_of_stepChars hc
    cases s with
    | literal => exact ⟨c, rfl, hx⟩
    | once upper => exact ⟨'%', rfl, rfl⟩
    | twice upper => exact ⟨'%', rfl, rfl⟩
  ne_nil := by
    cases s <;> exact List.cons_ne_nil _ _
  ascii := plain_ascii hc s
  decode _ := decode_write hc s

end Spelling

/-! ## Words of the patterns -/

/-- The words of the patterns. -/
def travWords : List (List CharSet) := ((exprs Traversal.PATTERNS).filterMap words).flatten

/-- The traversal patterns are lists of words. -/
lemma trav_words : ∀ r ∈ exprs Traversal.PATTERNS, r.words.isSome = true := by
  unfold Traversal.PATTERNS
  repeat rw [String.toList_ofList]
  decide

variable {crates : Crates} {u : Tables} {ctx : RequestCtx} {text pre post : Str}
  {s₁ s₂ s₃ : Spelling} {sep : Char}

/-- They match iff one of the words hits. -/
lemma trav_match_iff (docs : RegexDocs crates u) :
    regexSetMatch crates Traversal.PATTERNS text = true ↔ Hits u.reader travWords text := by
  rw [regexSetMatch_iff docs.traversal]
  constructor
  · rintro ⟨r, hr, h⟩
    obtain ⟨ws, hw⟩ := Option.isSome_iff_exists.mp (trav_words r hr)
    obtain ⟨x, hx, h⟩ := (matches_iff_hits hw).mp h
    exact ⟨x, List.mem_flatten.mpr ⟨ws, List.mem_filterMap.mpr ⟨r, hr, hw⟩, hx⟩, h⟩
  · rintro ⟨x, hx, h⟩
    obtain ⟨ws, hws, hx⟩ := List.mem_flatten.mp hx
    obtain ⟨r, hr, hw⟩ := List.mem_filterMap.mp hws
    exact ⟨r, hr, (matches_iff_hits hw).mpr ⟨x, hx, h⟩⟩

/-- What one decoding may leave of a character. -/
def plains (c : Char) : List Str := [[c], '%' :: hexCode false c, '%' :: hexCode true c]

lemma Spelling.plain_mem (s : Spelling) (c : Char) : s.plain c ∈ plains c := by
  cases s with
  | literal => exact .head _
  | once upper => exact .head _
  | twice upper =>
    cases upper with
    | false => exact .tail _ (.head _)
    | true => exact .tail _ (.tail _ (.head _))

/-- Dots that are both literal or both encoded are matched with any slash behind them. -/
lemma even_match : ∀ a ∈ plains '.', ∀ b ∈ plains '.', a.length = b.length →
    ∀ c ∈ plains '/' ++ plains '\\',
      (exprs Traversal.PATTERNS).any fun r => search asciiTables.reader r (a ++ (b ++ c)) := by
  unfold Traversal.PATTERNS
  repeat rw [String.toList_ofList]
  decide

/-- No word lies across a cut between a literal and an encoded dot. -/
lemma odd_parted : ∀ a ∈ plains '.', ∀ b ∈ plains '.', a.length ≠ b.length →
    ∀ x ∈ travWords, parted asciiTables.reader a b x = true := by
  unfold travWords Traversal.PATTERNS
  repeat rw [String.toList_ofList]
  decide

/-! ## The scan -/

lemma length_plain (s : Spelling) : (s.plain '.').length = if s.double then 3 else 1 := by
  cases s with
  | literal => rfl
  | once upper => rfl
  | twice upper => cases upper <;> rfl

/-- Letters below 128 are in the sets that the tables for ASCII say. -/
lemma mem_asciiTables (h : ∀ c ∈ text, c.toNat < 0x80) :
    ∀ s, ∀ c ∈ text, u.reader.mem s c = asciiTables.reader.mem s c :=
  fun _ c hc => CharSet.mem_ascii (h c hc)

/-- Dots of one kind with a slash behind them are matched wherever they stand. -/
lemma even_hit (docs : RegexDocs crates u) (hsep : sep ∈ ['/', '\\'])
    (hd : s₁.double = s₂.double) (v w : Str) :
    regexSetMatch crates Traversal.PATTERNS
      (v ++ (s₁.plain '.' ++ (s₂.plain '.' ++ (s₃.plain sep ++ w)))) = true := by
  have hc : s₃.plain sep ∈ plains '/' ++ plains '\\' := by
    cases hsep with
    | head => exact List.mem_append_left _ (s₃.plain_mem '/')
    | tail _ hsep =>
      obtain rfl := List.mem_singleton.mp hsep
      exact List.mem_append_right _ (s₃.plain_mem '\\')
  have hlen : (s₁.plain '.').length = (s₂.plain '.').length := by
    rw [length_plain, length_plain, hd]
  have hm := even_match _ (s₁.plain_mem '.') _ (s₂.plain_mem '.') hlen _ hc
  have hascii : ∀ c ∈ s₁.plain '.' ++ (s₂.plain '.' ++ s₃.plain sep), c.toNat < 0x80 := by
    intro c hc
    obtain hc | hc := List.mem_append.mp hc
    · exact Spelling.plain_ascii (.head _) s₁ c hc
    · obtain hc | hc := List.mem_append.mp hc
      · exact Spelling.plain_ascii (.head _) s₂ c hc
      · exact Spelling.plain_ascii (.tail _ hsep) s₃ c hc
  obtain ⟨r, hr, h⟩ := List.any_eq_true.mp hm
  obtain ⟨ws, hw⟩ := Option.isSome_iff_exists.mp (trav_words r hr)
  have hits := (matches_iff_hits hw).mp (search_iff.mp h)
  have hits : Hits u.reader ws _ := hits.congr fun s c hc => (mem_asciiTables hascii s c hc).symm
  have hits := @Hits.extend _ _ _ _ v w _ hits
  rw [regexSetMatch_iff docs.traversal]
  refine ⟨r, hr, (matches_iff_hits hw).mpr ?_⟩
  simpa only [List.append_assoc] using hits

/-- A cut between dots of different kinds splits the matches. -/
lemma odd_hit_iff (docs : RegexDocs crates u) (hd : s₁.double ≠ s₂.double) {v w : Str} :
    regexSetMatch crates Traversal.PATTERNS ((v ++ s₁.plain '.') ++ (s₂.plain '.' ++ w)) = true
      ↔ regexSetMatch crates Traversal.PATTERNS (v ++ s₁.plain '.') = true
        ∨ regexSetMatch crates Traversal.PATTERNS (s₂.plain '.' ++ w) = true := by
  have hlen : (s₁.plain '.').length ≠ (s₂.plain '.').length := by
    rw [length_plain, length_plain]
    cases h₁ : s₁.double <;> cases h₂ : s₂.double <;> simp_all
  have hascii : ∀ c ∈ s₁.plain '.' ++ s₂.plain '.', c.toNat < 0x80 := by
    intro c hc
    obtain hc | hc := List.mem_append.mp hc
    · exact Spelling.plain_ascii (.head _) s₁ c hc
    · exact Spelling.plain_ascii (.head _) s₂ c hc
  rw [trav_match_iff docs, trav_match_iff docs, trav_match_iff docs]
  refine hits_append_iff fun x hx => ?_
  rw [parted_congr (mem_asciiTables hascii)]
  exact odd_parted _ (s₁.plain_mem '.') _ (s₂.plain_mem '.') hlen x hx

/-- A scan finds two dots and a slash in a path, however they are spelled, iff both dots are doubly
encoded or none is, or another text is hit, or the decoded path is hit on one side of a cut between
the dots. -/
theorem dotsSlash_hit_iff (docs : RegexDocs crates u) (decodes : DecodeDocs crates)
    (hsep : sep ∈ ['/', '\\'])
    (hpath : ctx.path = pre ++ (s₁.write '.' ++ (s₂.write '.' ++ (s₃.write sep ++ post)))) :
    (Traversal.scan crates (Surface.ofCtx crates ctx)).isSome = true
      ↔ s₁.double = s₂.double
        ∨ (∃ t ∈ [decode crates ctx.query, ctx.uri, fromUtf8Lossy none ctx.bodyPreview],
            regexSetMatch crates Traversal.PATTERNS t = true)
        ∨ regexSetMatch crates Traversal.PATTERNS (decode crates (pre ++ s₁.write '.')) = true
        ∨ regexSetMatch crates Traversal.PATTERNS
            (decode crates (s₂.write '.' ++ (s₃.write sep ++ post))) = true := by
  have hdot : '.' ∈ Spelling.stepChars := .head _
  have front : decode crates (pre ++ s₁.write '.') = decode crates pre ++ s₁.plain '.' :=
    decode_spelled_end decodes (Spelling.spells hdot s₁)
  have back : decode crates (s₂.write '.' ++ (s₃.write sep ++ post))
      = s₂.plain '.' ++ (s₃.plain sep ++ decode crates post) := by
    rw [decode_spelled_start decodes (Spelling.spells hdot s₂),
      decode_spelled_start decodes (Spelling.spells (.tail _ hsep) s₃)]
  have hdec : decode crates ctx.path = (decode crates pre ++ s₁.plain '.')
      ++ (s₂.plain '.' ++ (s₃.plain sep ++ decode crates post)) := by
    rw [hpath, decode_spelled decodes (Spelling.spells hdot s₁), back, List.append_assoc]
  have hscan : (Traversal.scan crates (Surface.ofCtx crates ctx)).isSome = true
      ↔ regexSetMatch crates Traversal.PATTERNS (decode crates ctx.path) = true
        ∨ ∃ t ∈ [decode crates ctx.query, ctx.uri, fromUtf8Lossy none ctx.bodyPreview],
            regexSetMatch crates Traversal.PATTERNS t = true := by
    rw [Traversal.scan, scanFields_isSome, List.any_cons, Bool.or_eq_true, ← List.any_eq_true]
    rfl
  rw [hscan, hdec, front, back]
  by_cases hd : s₁.double = s₂.double
  case pos =>
    rw [List.append_assoc]
    exact iff_of_true (.inl (even_hit docs hsep hd _ _)) (.inl hd)
  case neg =>
    rw [odd_hit_iff docs hd, or_iff_right hd]
    exact or_comm

/-- A request for a path with a literal and a doubly encoded dot. -/
def mixedRequest : RequestCtx where
  requestId := "1"
  clientIp := .v4 (.new 10 0 0 1)
  method := "GET"
  uri := "/a/.%252e/passwd"
  path := "/a/.%252e/passwd"

/-- The path of the sample, spelled out. -/
lemma mixedRequest_path : mixedRequest.path = ("/a/" : Str) ++ (Spelling.literal.write '.'
    ++ ((Spelling.twice false).write '.' ++ (Spelling.literal.write '/' ++ ("passwd" : Str)))) := by
  decide

/-- The scan does not find the dots of the request. -/
theorem mixedRequest_missed : RegexDocs searchCrates asciiTables ∧ DecodeDocs searchCrates
    ∧ mixedRequest.path = ("/a/" : Str) ++ (Spelling.literal.write '.'
      ++ ((Spelling.twice false).write '.' ++ (Spelling.literal.write '/' ++ ("passwd" : Str))))
    ∧ ¬ (Traversal.scan searchCrates (Surface.ofCtx searchCrates mixedRequest)).isSome = true := by
  refine ⟨searchCrates_docs, searchCrates_decode, mixedRequest_path, ?_⟩
  rw [Traversal.scan_isSome, any_regexSetMatch searchCrates_docs.traversal]
  unfold Traversal.PATTERNS
  repeat rw [String.toList_ofList]
  decide

/-- A literal dot and one that is encoded twice. -/
theorem mixedRequest_hit_iff :
    (Traversal.scan searchCrates (Surface.ofCtx searchCrates mixedRequest)).isSome = true
      ↔ Spelling.literal.double = (Spelling.twice false).double
        ∨ (∃ t ∈ [decode searchCrates mixedRequest.query, mixedRequest.uri,
              fromUtf8Lossy none mixedRequest.bodyPreview],
            regexSetMatch searchCrates Traversal.PATTERNS t = true)
        ∨ regexSetMatch searchCrates Traversal.PATTERNS
            (decode searchCrates (("/a/" : Str) ++ Spelling.literal.write '.')) = true
        ∨ regexSetMatch searchCrates Traversal.PATTERNS (decode searchCrates
            ((Spelling.twice false).write '.'
              ++ (Spelling.literal.write '/' ++ ("passwd" : Str)))) = true :=
  dotsSlash_hit_iff searchCrates_docs searchCrates_decode (.head _) mixedRequest_path

end Waf
