import Mathlib.Tactic
import Mathlib.Data.List.TakeWhile

/-!
# Text

Strings as lists of characters, with the operations of the Rust string API that the development
uses: splitting at a separator (`splitOnce`, and `List.splitOn` for `split`), trimming, ASCII case,
substring search, the decimal rendering `dec` of an unsigned integer and the lenient parser
`parseNat` that reads it back, and the fixed-width hexadecimal rendering `hex`.

The facts the rest rests on are that a separator cannot hide inside a rendered number
(`not_mem_dec`, `not_mem_hexEncode`), that splitting at the first separator inverts joining
(`splitOnce_append`), and that the renderings are injective (`dec_inj`, `hex_inj`).
-/

namespace Lib

/-- Text as a list of Unicode scalar values. -/
abbrev Str := List Char

instance : Coe String Str := ⟨String.toList⟩

/-- The UTF-8 encoding of a text (`str::as_bytes`). -/
def utf8 (s : Str) : List UInt8 := s.flatMap String.utf8EncodeChar

/-- The length in bytes (`str::len`). -/
def byteLen (s : Str) : Nat := (utf8 s).length

/-- `str::to_ascii_lowercase`. -/
def toAsciiLower (s : Str) : Str := s.map Char.toLower

/-- `str::to_ascii_uppercase`. -/
def toAsciiUpper (s : Str) : Str := s.map Char.toUpper

/-- `str::eq_ignore_ascii_case`. -/
def eqIgnoreCase (s t : Str) : Bool := toAsciiLower s == toAsciiLower t

lemma exists_ascii {c : Char} (hc : c.toNat < 128) : ∃ n : Fin 128, c = Char.ofNat n :=
  ⟨⟨c.toNat, hc⟩, (Char.ofNat_toNat c).symm⟩

/-- Lowering forgets that a character was raised. -/
lemma toLower_toUpper {c : Char} : c.toUpper.toLower = c.toLower := by
  have key : ∀ n : Fin 128, (Char.ofNat n).toUpper.toLower = (Char.ofNat n).toLower := by decide
  by_cases h : 'a'.val ≤ c.val ∧ c.val ≤ 'z'.val
  case pos =>
    have hlt : c.toNat < 128 := lt_of_le_of_lt h.2 (by decide)
    obtain ⟨n, rfl⟩ := exists_ascii hlt
    exact key n
  case neg =>
    have hc : c.toUpper = c := dif_neg h
    rw [hc]

/-- A text and its upper case differ in case alone. -/
lemma eqIgnoreCase_upper {s : Str} : eqIgnoreCase (toAsciiUpper s) s = true := by
  rw [eqIgnoreCase, beq_iff_eq, toAsciiUpper, toAsciiLower, toAsciiLower, List.map_map]
  apply List.map_congr_left
  intro c _
  exact toLower_toUpper

/-- `str::contains` with a text as the pattern. -/
def contains (needle hay : Str) : Bool := hay.tails.any needle.isPrefixOf

/-- The Unicode `White_Space` property (`char::is_whitespace`). -/
def isSpace (c : Char) : Bool :=
  let n := c.toNat
  (9 ≤ n && n ≤ 13) || n == 0x20 || n == 0x85 || n == 0xA0 || n == 0x1680
    || (0x2000 ≤ n && n ≤ 0x200A) || n == 0x2028 || n == 0x2029 || n == 0x202F
    || n == 0x205F || n == 0x3000

/-- Drop a run of characters on both sides (`str::trim_matches`). -/
def trimMatches (p : Char → Bool) (s : Str) : Str :=
  ((s.dropWhile p).reverse.dropWhile p).reverse

def trim (s : Str) : Str := trimMatches isSpace s

/-- No character of a kind stands at either end. -/
def Bare (p : Char → Bool) (s : Str) : Prop :=
  (∀ c ∈ s.head?, p c = false) ∧ ∀ c ∈ s.getLast?, p c = false

/-- A text without any of the characters is bare. -/
lemma bare_of_forall {p : Char → Bool} {s} (h : ∀ c ∈ s, p c = false) : Bare p s :=
  ⟨fun c hc => h c (List.mem_of_mem_head? hc), fun c hc => h c (List.mem_of_getLast? hc)⟩

/-- What decides is the first and the last character. -/
lemma bare_of_ends {p : Char → Bool} {s : Str} (hhead : s.head?.all (fun c => !p c) = true)
    (hlast : s.getLast?.all (fun c => !p c) = true) : Bare p s := by
  constructor
  · intro c hc
    rw [hc, Option.all_some, Bool.not_eq_true'] at hhead
    exact hhead
  · intro c hc
    rw [hc, Option.all_some, Bool.not_eq_true'] at hlast
    exact hlast

lemma dropWhile_append_bare {p : Char → Bool} {l s : Str} (hl : ∀ c ∈ l, p c = true)
    (hs : ∀ c ∈ s.head?, p c = false) : (l ++ s).dropWhile p = s := by
  rw [List.dropWhile_append_of_pos hl]
  cases s with
  | nil => rfl
  | cons c s => rw [List.dropWhile_cons_of_neg (by rw [hs c rfl]; exact Bool.false_ne_true)]

/-- Trimming takes off what stands around a bare text. -/
lemma trimMatches_append {p : Char → Bool} {l s r : Str} (hl : ∀ c ∈ l, p c = true) (hs : Bare p s)
    (hr : ∀ c ∈ r, p c = true) : trimMatches p (l ++ s ++ r) = s := by
  cases s with
  | nil =>
    have hall : ∀ c ∈ l ++ [] ++ r, p c = true := by
      intro c hc
      rw [List.append_nil] at hc
      obtain hc | hc := List.mem_append.mp hc
      · exact hl c hc
      · exact hr c hc
    rw [trimMatches, List.dropWhile_eq_nil_iff.mpr hall]
    rfl
  | cons c s =>
    have hfront : ((c :: s) ++ r).head? = some c := rfl
    have hback : ∀ d ∈ (c :: s).reverse.head?, p d = false := by
      rw [List.head?_reverse]
      exact hs.2
    rw [trimMatches, List.append_assoc, dropWhile_append_bare hl, List.reverse_append,
      dropWhile_append_bare _ hback, List.reverse_reverse]
    · intro d hd
      exact hr d (List.mem_reverse.mp hd)
    · intro d hd
      rw [hfront] at hd
      exact hs.1 d hd

/-- Nothing is trimmed off a bare text. -/
lemma trimMatches_bare {p : Char → Bool} {s} (hs : Bare p s) : trimMatches p s = s := by
  have h := trimMatches_append (l := []) (r := []) (fun _ hc => absurd hc List.not_mem_nil) hs
    (fun _ hc => absurd hc List.not_mem_nil)
  rwa [List.nil_append, List.append_nil] at h

lemma trimMatches_self {p s} (h : ∀ c ∈ s, p c = false) : trimMatches p s = s :=
  trimMatches_bare (bare_of_forall h)

/-- Blanks in front make no difference. -/
lemma trimMatches_front {p : Char → Bool} {l s : Str} (hl : ∀ c ∈ l, p c = true) :
    trimMatches p (l ++ s) = trimMatches p s := by
  rw [trimMatches, List.dropWhile_append_of_pos hl]
  rfl

/-- What trimming takes off is blank. -/
lemma exists_trimMatches {p : Char → Bool} {s : Str} : ∃ l r : Str, (∀ c ∈ l, p c = true) ∧ (∀ c ∈ r, p c = true)
    ∧ s = l ++ trimMatches p s ++ r := by
  have hfront := List.takeWhile_append_dropWhile (p := p) (l := s)
  have hback := List.takeWhile_append_dropWhile (p := p) (l := (s.dropWhile p).reverse)
  refine ⟨s.takeWhile p, ((s.dropWhile p).reverse.takeWhile p).reverse, ?_, ?_, ?_⟩
  · exact fun c hc => List.mem_takeWhile_imp hc
  · exact fun c hc => List.mem_takeWhile_imp (List.mem_reverse.mp hc)
  · have hrest : s.dropWhile p
        = trimMatches p s ++ ((s.dropWhile p).reverse.takeWhile p).reverse := by
      rw [trimMatches, ← List.reverse_append, hback, List.reverse_reverse]
    rw [List.append_assoc, ← hrest, hfront]

/-- Trimming drops leading whitespace in front of a text that has none. -/
lemma trim_space_cons {s} (h : ∀ c ∈ s, isSpace c = false) : trim (' ' :: s) = s := by
  have e : trim (' ' :: s) = trim s := by
    simp only [trim, trimMatches]
    rw [List.dropWhile_cons_of_pos (by decide)]
  rw [e]
  exact trimMatches_self h

/-- Split at the first occurrence of `c` (`str::split_once`). -/
def splitOnce (c : Char) : Str → Option (Str × Str)
  | [] => none
  | x :: xs => if x = c then some ([], xs) else (splitOnce c xs).map fun p => (x :: p.1, p.2)

/-- Splitting at the first separator inverts joining. -/
@[simp] lemma splitOnce_append {c s t} (h : c ∉ s) : splitOnce c (s ++ c :: t) = some (s, t) := by
  induction s with
  | nil => simp [splitOnce]
  | cons x s ih =>
    obtain ⟨hx, hs⟩ := not_or.mp (by simpa using h)
    simp only [List.cons_append, splitOnce, ih hs]
    rw [if_neg (fun e => hx e.symm)]
    rfl

/-- A split is at the first separator. -/
lemma splitOnce_eq_some {c s a b} (h : splitOnce c s = some (a, b)) :
    s = a ++ c :: b ∧ c ∉ a := by
  induction s generalizing a with
  | nil => cases h
  | cons x s ih =>
    simp only [splitOnce] at h
    split at h
    case isTrue e =>
      cases h
      exact ⟨by simp [e], by simp⟩
    case isFalse e =>
      obtain ⟨⟨a', b'⟩, hs, hp⟩ := Option.map_eq_some_iff.mp h
      cases hp
      obtain ⟨rfl, hc⟩ := ih hs
      refine ⟨rfl, ?_⟩
      simpa using ⟨fun e' => e e'.symm, hc⟩

/-- A text is not split iff it has no separator. -/
lemma splitOnce_eq_none {c s} : splitOnce c s = none ↔ c ∉ s := by
  induction s with
  | nil => exact ⟨fun _ => List.not_mem_nil, fun _ => rfl⟩
  | cons x s ih =>
    rw [splitOnce]
    split
    case isTrue h =>
      constructor
      · intro hnone
        cases hnone
      · intro hmem
        exact absurd (h ▸ .head _) hmem
    case isFalse h =>
      rw [Option.map_eq_none_iff, ih, List.mem_cons, not_or]
      exact ⟨fun hs => ⟨fun e => h e.symm, hs⟩, fun hs => hs.2⟩

/-- A joined text has one reading when the separator occurs in neither first part. -/
lemma append_sep_inj {c : Char} {a b a' b' : Str} (ha : c ∉ a) (ha' : c ∉ a')
    (e : a ++ c :: b = a' ++ c :: b') : a = a' ∧ b = b' := by
  have h := splitOnce_append (t := b) ha
  rw [e, splitOnce_append ha'] at h
  cases h
  exact ⟨rfl, rfl⟩

/-- The same, when the separator occurs in neither second part. -/
lemma append_sep_inj_right {c : Char} {a b a' b' : Str} (hb : c ∉ b) (hb' : c ∉ b')
    (e : a ++ c :: b = a' ++ c :: b') : a = a' ∧ b = b' := by
  have h : b.reverse ++ c :: a.reverse = b'.reverse ++ c :: a'.reverse := by
    simpa using congrArg List.reverse e
  obtain ⟨h1, h2⟩ := append_sep_inj (by simpa using hb) (by simpa using hb') h
  exact ⟨List.reverse_injective h2, List.reverse_injective h1⟩

/-! ## Joined texts -/

section

variable {α : Type}

/-- A piece that has no separator lies on one side of it. -/
lemma infix_append_sep {sep : α} {x s t : List α} (hx : sep ∉ x) :
    x <:+: s ++ sep :: t ↔ x <:+: s ∨ x <:+: t := by
  constructor
  · rintro ⟨a, b, h⟩
    rw [List.append_assoc] at h
    obtain ⟨c, rfl, hc⟩ | ⟨c, hs, hc⟩ := List.append_eq_append_iff.mp h
    · -- the piece ends before the separator, or has it
      obtain ⟨d, rfl, -⟩ | ⟨d, rfl, hd⟩ := List.append_eq_append_iff.mp hc
      · exact .inl ⟨a, d, by simp⟩
      · cases d with
        | nil => exact .inl ⟨a, [], by simp⟩
        | cons y d =>
          obtain ⟨rfl, -⟩ := List.cons_eq_cons.mp hd
          exact absurd (List.mem_append_right _ (.head _)) hx
    · -- the piece starts behind the separator, or at the end of `s`
      cases c with
      | nil =>
        cases x with
        | nil => exact .inl (List.nil_infix)
        | cons y x =>
          obtain ⟨rfl, -⟩ := List.cons_eq_cons.mp hc
          exact absurd (.head _) hx
      | cons y c =>
        obtain ⟨rfl, rfl⟩ := List.cons_eq_cons.mp hc
        exact .inr ⟨c, b, by simp⟩
  · rintro (h | h)
    · exact h.trans (List.prefix_append _ _).isInfix
    · exact h.trans ((List.suffix_cons _ _).trans (List.suffix_append _ _)).isInfix

/-- What stands in joined texts stands in the separator or in one of them. -/
lemma mem_intercalate {x : α} {sep : List α} {ls : List (List α)} (h : x ∈ sep.intercalate ls) :
    x ∈ sep ∨ ∃ l ∈ ls, x ∈ l := by
  induction ls with
  | nil => cases h
  | cons l ls ih =>
    cases ls with
    | nil =>
      rw [List.intercalate_singleton] at h
      exact .inr ⟨l, .head _, h⟩
    | cons next ls =>
      rw [List.intercalate_cons_cons, List.append_assoc] at h
      rcases List.mem_append.mp h with h | h
      · exact .inr ⟨l, .head _, h⟩
      · rcases List.mem_append.mp h with h | h
        · exact .inl h
        · obtain h | ⟨l', hl', h⟩ := ih h
          · exact .inl h
          · exact .inr ⟨l', .tail _ hl', h⟩

/-- A piece that has no separator lies in one of the joined texts. -/
lemma infix_intercalate {sep : α} {x : List α} (hx : sep ∉ x) {segs : List (List α)} :
    x <:+: [sep].intercalate segs ↔ x = [] ∨ ∃ seg ∈ segs, x <:+: seg := by
  induction segs with
  | nil =>
    rw [List.intercalate_nil, List.infix_nil]
    exact ⟨.inl, fun h => h.resolve_right fun ⟨_, hs, _⟩ => absurd hs List.not_mem_nil⟩
  | cons seg segs ih =>
    cases segs with
    | nil =>
      rw [List.intercalate_singleton]
      constructor
      · exact fun h => .inr ⟨seg, .head _, h⟩
      · rintro (rfl | ⟨seg', hs, h⟩)
        · exact List.nil_infix
        · rwa [List.mem_singleton.mp hs] at h
    | cons seg' segs =>
      have hjoin : [sep].intercalate (seg :: seg' :: segs)
          = seg ++ sep :: [sep].intercalate (seg' :: segs) := by
        rw [List.intercalate_cons_cons, List.append_assoc]
        rfl
      rw [hjoin, infix_append_sep hx, ih]
      simp only [List.mem_cons, exists_eq_or_imp]
      exact or_left_comm

end

lemma utf8EncodeChar_ascii {c : Char} (hc : c.toNat < 128) :
    String.utf8EncodeChar c = [UInt8.ofNat c.toNat] := by
  simp [String.utf8EncodeChar, Nat.le_of_lt_succ hc]

/-- An ASCII byte is the encoding of its character. -/
lemma utf8EncodeChar_byte {b : UInt8} (hb : b.toNat < 128) :
    String.utf8EncodeChar (Char.ofNat b.toNat) = [b] := by
  have hascii : ∀ n < 128, String.utf8EncodeChar (Char.ofNat n) = [UInt8.ofNat n] := by decide
  rw [hascii _ hb, UInt8.ofNat_toNat]

lemma byteLen_ascii {s} (h : ∀ c ∈ s, c.toNat < 128) : byteLen s = s.length := by
  induction s with
  | nil => rfl
  | cons c s ih =>
    have hs : (utf8 s).length = s.length := ih fun d hd => h d (.tail _ hd)
    show (String.utf8EncodeChar c ++ utf8 s).length = s.length + 1
    rw [utf8EncodeChar_ascii (h c (.head _)), List.length_append, hs, Nat.add_comm]
    rfl

lemma lower_ascii {s} (h : ∀ c ∈ s, c.toNat < 128) : ∀ c ∈ toAsciiLower s, c.toNat < 128 := by
  intro c hc
  obtain ⟨d, hd, rfl⟩ := List.mem_map.mp hc
  have key : ∀ n : Fin 128, (Char.ofNat n).toLower.toNat < 128 := by decide
  obtain ⟨n, rfl⟩ := exists_ascii (h d hd)
  exact key n

lemma utf8_append {s t : Str} : utf8 (s ++ t) = utf8 s ++ utf8 t := List.flatMap_append

/-- Joining commutes with encoding. -/
lemma utf8_intercalate {sep : Str} {segs : List Str} :
    utf8 (sep.intercalate segs) = (utf8 sep).intercalate (segs.map utf8) := by
  induction segs with
  | nil => rfl
  | cons seg segs ih =>
    cases segs with
    | nil =>
      rw [List.intercalate_singleton, List.map_singleton, List.intercalate_singleton]
    | cons seg' segs =>
      rw [List.intercalate_cons_cons, utf8_append, utf8_append, ih]
      exact List.intercalate_cons_cons.symm

/-- Different texts have different bytes. -/
lemma utf8_inj {s t : Str} (h : utf8 s = utf8 t) : s = t := by
  have he : s.utf8Encode = t.utf8Encode := congrArg List.toByteArray h
  have hd := congrArg ByteArray.utf8Decode? he
  rw [List.utf8Decode?_utf8Encode, List.utf8Decode?_utf8Encode] at hd
  simpa using hd

/-! ## Decimal numbers -/

/-- The decimal rendering of an unsigned integer (`format!("{n}")`). -/
def dec (n : Nat) : Str := Nat.toDigits 10 n

/-- The decimal rendering of a signed integer. -/
def decInt (n : Int) : Str := if n < 0 then '-' :: dec n.natAbs else dec n.natAbs

/-- Drop one leading plus sign. -/
def dropPlus : Str → Str
  | '+' :: rest => rest
  | s => s

/-- The digits of an unsigned integer below `bound`, with an optional leading plus sign
(`<uN as FromStr>::from_str`). -/
def parseNat (bound : Nat) (s : Str) : Option Nat :=
  if dropPlus s ≠ [] ∧ (dropPlus s).all Char.isDigit
      ∧ Nat.ofDigitChars 10 (dropPlus s) 0 < bound then
    some (Nat.ofDigitChars 10 (dropPlus s) 0)
  else none

/-- `u64::from_str`. -/
def parseU64 (s : Str) : Option Nat := parseNat (2 ^ 64) s

/-- A number is written with digits. -/
lemma isDigit_of_mem_dec {c n} (h : c ∈ dec n) : c.isDigit = true :=
  Nat.isDigit_of_mem_toDigits (by decide) (by decide) h

/-- A character that is no digit does not occur in a rendered number. -/
lemma not_mem_dec {c n} (h : c.isDigit = false) : c ∉ dec n := by
  intro hc
  rw [isDigit_of_mem_dec hc] at h
  cases h

lemma dec_ne_nil {n} : dec n ≠ [] := Nat.toDigits_ne_nil

/-- A number is written without a sign. -/
lemma dropPlus_dec {n} : dropPlus (dec n) = dec n := by
  unfold dropPlus
  split
  case h_1 rest e =>
    have hp : '+' ∈ dec n := by rw [e]; simp
    exact absurd hp (not_mem_dec (by decide))
  case h_2 => rfl

/-- The parser reads back every rendered number that fits. -/
lemma parseNat_dec {bound n} (h : n < bound) : parseNat bound (dec n) = some n := by
  have hall : (dec n).all Char.isDigit = true :=
    List.all_eq_true.mpr fun _ hc => isDigit_of_mem_dec hc
  have hval : Nat.ofDigitChars 10 (dec n) 0 = n := Nat.ofDigitChars_ten_toDigits
  rw [parseNat, dropPlus_dec, hval, if_pos ⟨dec_ne_nil, hall, h⟩]

lemma dec_inj {m n} (h : dec m = dec n) : m = n := by
  have e : Nat.ofDigitChars 10 (dec m) 0 = Nat.ofDigitChars 10 (dec n) 0 := by rw [h]
  simpa [dec] using e

/-! ## Hexadecimal bytes -/

/-- `width` lower-case hexadecimal digits of `n` (`format!("{:0width$x}")` for a number that
fits). -/
def hex : Nat → Nat → Str
  | 0, _ => []
  | width + 1, n => hex width (n / 16) ++ [Nat.digitChar (n % 16)]

@[simp] lemma length_hex {width n} : (hex width n).length = width := by
  induction width generalizing n with
  | zero => rfl
  | succ w ih => simp [hex, ih]

lemma digitChar_inj {m n} (hm : m < 16) (hn : n < 16) (e : Nat.digitChar m = Nat.digitChar n) :
    m = n := by
  have key : ∀ a : Fin 16, ∀ b : Fin 16, Nat.digitChar a = Nat.digitChar b → a = b := by decide
  exact congrArg Fin.val (key ⟨m, hm⟩ ⟨n, hn⟩ e)

/-- Fixed-width hexadecimal is injective on the numbers that fit. -/
lemma hex_inj {width m n} (hm : m < 16 ^ width) (hn : n < 16 ^ width)
    (e : hex width m = hex width n) : m = n := by
  induction width generalizing m n with
  | zero => rw [Nat.pow_zero] at hm hn; omega
  | succ w ih =>
    obtain ⟨e1, e2⟩ := List.append_inj' e rfl
    rw [Nat.pow_succ] at hm hn
    have hdiv := ih (by omega) (by omega) e1
    have hmod := digitChar_inj (Nat.mod_lt _ (by decide)) (Nat.mod_lt _ (by decide))
      (List.singleton_inj.mp e2)
    omega

/-- A hexadecimal digit in lower case. -/
def isHexLower (c : Char) : Bool := c.isDigit || (97 ≤ c.toNat && c.toNat ≤ 102)

/-- The sixteen digits are those of `hex::encode`. -/
lemma isHexLower_digitChar {n} (h : n < 16) : isHexLower (Nat.digitChar n) = true := by
  have key : ∀ a : Fin 16, isHexLower (Nat.digitChar a) = true := by decide
  exact key ⟨n, h⟩

/-- A number of fixed width is written in lower-case hexadecimal digits. -/
lemma isHexLower_of_mem_hex {width n c} (h : c ∈ hex width n) : isHexLower c = true := by
  induction width generalizing n with
  | zero => cases h
  | succ w ih =>
    rcases List.mem_append.mp h with h | h
    · exact ih h
    · rw [List.mem_singleton.mp h]
      exact isHexLower_digitChar (Nat.mod_lt _ (by decide))

/-- `hex::encode`. -/
def hexEncode (bs : List UInt8) : Str := bs.flatMap fun b => hex 2 b.toNat

lemma isHexLower_of_mem_hexEncode {bs c} (h : c ∈ hexEncode bs) : isHexLower c = true := by
  obtain ⟨b, _, hb⟩ := List.mem_flatMap.mp h
  exact isHexLower_of_mem_hex hb

lemma not_mem_hexEncode {bs c} (h : isHexLower c = false) : c ∉ hexEncode bs := by
  intro hc
  rw [isHexLower_of_mem_hexEncode hc] at h
  cases h

@[simp] lemma length_hexEncode {bs} : (hexEncode bs).length = 2 * bs.length := by
  induction bs with
  | nil => rfl
  | cons b bs ih =>
    simp only [hexEncode, List.flatMap_cons, List.length_append, length_hex, List.length_cons]
    rw [← hexEncode, ih]
    omega

/-! ## Hexadecimal numbers -/

lemma isHexLower_of_mem_toDigits {n c} (h : c ∈ Nat.toDigits 16 n) : isHexLower c = true := by
  induction n using Nat.strongRecOn with
  | ind n ih =>
    rw [Nat.toDigits_eq_if (by decide)] at h
    split at h
    case isTrue hn =>
      rw [List.mem_singleton.mp h]
      exact isHexLower_digitChar hn
    case isFalse hn =>
      obtain h | h := List.mem_append.mp h
      · exact ih (n / 16) (by omega) h
      · rw [List.mem_singleton.mp h]
        exact isHexLower_digitChar (Nat.mod_lt _ (by decide))

/-- Hexadecimal without leading zeros is injective. -/
lemma hexDigits_inj {m n} (e : Nat.toDigits 16 m = Nat.toDigits 16 n) : m = n := by
  induction m using Nat.strongRecOn generalizing n with
  | ind m ih =>
    have one : ∀ {k : Nat} {c d : Char}, [c] = Nat.toDigits 16 k ++ [d] → False := by
      intro k c d h
      have hlen := congrArg List.length h
      have hpos := @Nat.length_toDigits_pos 16 k
      rw [List.length_append, List.length_singleton, List.length_singleton] at hlen
      omega
    rw [Nat.toDigits_eq_if (by decide), Nat.toDigits_eq_if (n := n) (by decide)] at e
    split at e
    case isTrue hm =>
      split at e
      case isTrue hn => exact digitChar_inj hm hn (List.singleton_inj.mp e)
      case isFalse => exact absurd e one
    case isFalse hm =>
      split at e
      case isTrue => exact absurd e.symm one
      case isFalse =>
        obtain ⟨e1, e2⟩ := List.append_inj' e rfl
        have hdiv := ih (m / 16) (by omega) e1
        have hmod := digitChar_inj (Nat.mod_lt _ (by decide)) (Nat.mod_lt _ (by decide))
          (List.singleton_inj.mp e2)
        omega

/-! ## Codes -/

section
variable {α β : Type} {code : α → List β}

/-- No text begins with the codes of two symbols. -/
def Delimited (code : α → List β) : Prop := ∀ a b u v, code a ++ u = code b ++ v → a = b

lemma Delimited.flatMap_inj (h : Delimited code) (hne : ∀ a, code a ≠ []) {s t : List α}
    (e : s.flatMap code = t.flatMap code) : s = t := by
  induction s generalizing t with
  | nil =>
    cases t with
    | nil => rfl
    | cons b t => exact absurd (List.append_eq_nil_iff.mp e.symm).1 (hne b)
  | cons a s ih =>
    cases t with
    | nil => exact absurd (List.append_eq_nil_iff.mp e).1 (hne a)
    | cons b t =>
      obtain rfl := h a b _ _ e
      rw [ih (List.append_cancel_left e)]

end

/-! ## Base64 -/

/-- The digit of six bits in the URL-safe alphabet. -/
def base64Digit (n : Nat) : Char :=
  if n < 26 then Char.ofNat (65 + n)
  else if n < 52 then Char.ofNat (97 + (n - 26))
  else if n < 62 then Char.ofNat (48 + (n - 52))
  else if n = 62 then '-'
  else '_'

/-- The URL-safe encoding without padding (`base64::URL_SAFE_NO_PAD`). -/
def base64Url : List UInt8 → Str
  | [] => []
  | [a] => [base64Digit (a.toNat / 4), base64Digit (a.toNat % 4 * 16)]
  | [a, b] =>
    [base64Digit (a.toNat / 4), base64Digit (a.toNat % 4 * 16 + b.toNat / 16),
      base64Digit (b.toNat % 16 * 4)]
  | a :: b :: c :: rest =>
    base64Digit (a.toNat / 4) :: base64Digit (a.toNat % 4 * 16 + b.toNat / 16)
      :: base64Digit (b.toNat % 16 * 4 + c.toNat / 64) :: base64Digit (c.toNat % 64)
      :: base64Url rest

/-- A character of the alphabet. -/
def isBase64Url (c : Char) : Bool :=
  (48 ≤ c.toNat && c.toNat ≤ 57) || (65 ≤ c.toNat && c.toNat ≤ 90)
    || (97 ≤ c.toNat && c.toNat ≤ 122) || c == '-' || c == '_'

/-- The digits are in the alphabet. -/
lemma isBase64Url_digit {n : Nat} : isBase64Url (base64Digit n) = true := by
  have key : ∀ a : Fin 62, isBase64Url (base64Digit a) = true := by decide
  by_cases h : n < 62
  case pos => exact key ⟨n, h⟩
  case neg =>
    rw [base64Digit, if_neg (by omega), if_neg (by omega), if_neg h]
    split
    case isTrue => rfl
    case isFalse => rfl

/-- A character of the alphabet is printable ASCII. -/
lemma isBase64Url_lt {c} (h : isBase64Url c = true) : c.toNat < 128 := by
  simp only [isBase64Url, Bool.or_eq_true, Bool.and_eq_true, decide_eq_true_eq, beq_iff_eq] at h
  obtain (((h | h) | h) | rfl) | rfl := h
  · omega
  · omega
  · omega
  · decide
  · decide

lemma isBase64Url_of_mem {bs : List UInt8} {c} (h : c ∈ base64Url bs) : isBase64Url c = true := by
  have step : ∀ {n : Nat} {s : Str}, (c ∈ s → isBase64Url c = true) →
      c ∈ base64Digit n :: s → isBase64Url c = true := by
    intro n s hs hc
    cases hc with
    | head => exact isBase64Url_digit
    | tail _ hc => exact hs hc
  have none : c ∈ ([] : Str) → isBase64Url c = true := fun hc => absurd hc List.not_mem_nil
  induction bs using base64Url.induct with
  | case1 => exact none h
  | case2 a => exact step (step none) h
  | case3 a b => exact step (step (step none)) h
  | case4 a b c rest ih => exact step (step (step (step ih))) h

lemma base64Url_ne_nil {bs : List UInt8} (h : bs ≠ []) : base64Url bs ≠ [] := by
  unfold base64Url
  split
  case h_1 => exact absurd rfl h
  all_goals exact List.cons_ne_nil _ _

end Lib
