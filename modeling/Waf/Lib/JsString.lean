import Waf.Lib.Percent

/-!
# String literals of JavaScript

`readString` reads a literal behind its opening double quote. It gives the value in UTF-16 code units and
the text behind the closing quote. The scripts are not in strict mode, so a backslash in front of octal
digits is an escape sequence too. `StringChars` is the grammar between the quotes, and `readString_iff`
says that a text without quotes and line ends is read up to the quote behind it exactly if it follows the
grammar.
-/

namespace Lib.Js

/-! ## Code units -/

/-- A code point in UTF-16. A surrogate stands for itself. -/
def codeUnits (n : Nat) : List UInt16 :=
  if n < 0x10000 then [UInt16.ofNat n]
  else [UInt16.ofNat (0xD800 + (n - 0x10000) / 0x400), UInt16.ofNat (0xDC00 + (n - 0x10000) % 0x400)]

def utf16 (c : Char) : List UInt16 := codeUnits c.toNat

/-! ## Escape sequences -/

/-- The number that `k` hexadecimal digits stand for, and what follows them. -/
def hexDigits : Nat → Nat → Str → Option (Nat × Str)
  | 0, acc, s => some (acc, s)
  | _ + 1, _, [] => none
  | k + 1, acc, c :: s => (hexVal c).bind fun x => hexDigits k (16 * acc + x) s

/-- The number that the hexadecimal digits in front of a closing brace stand for. -/
def bracedDigits : Nat → Str → Option (Nat × Str)
  | _, [] => none
  | acc, c :: s =>
    if c = '}' then some (acc, s) else (hexVal c).bind fun x => bracedDigits (16 * acc + x) s

def octalVal (c : Char) : Option Nat :=
  if '0'.toNat ≤ c.toNat ∧ c.toNat ≤ '7'.toNat then some (c.toNat - '0'.toNat) else none

/-- The number that at most `k` octal digits stand for, and what follows them. -/
def octalDigits : Nat → Nat → Str → Option (Nat × Str)
  | 0, acc, s => some (acc, s)
  | _ + 1, acc, [] => some (acc, [])
  | k + 1, acc, c :: s =>
    match octalVal c with
    | none => some (acc, c :: s)
    | some x => octalDigits k (8 * acc + x) s

/-- A code point in braces, read behind the opening one. There is at least one digit. -/
def bracedCode : Str → Option (Nat × Str)
  | [] => none
  | c :: s => (hexVal c).bind fun x => (bracedDigits x s).filter fun p => p.1 ≤ 0x10FFFF

def unicodeCode (s : Str) : Option (Nat × Str) :=
  if s.head? = some '{' then bracedCode s.tail else hexDigits 4 0 s

def isLineEnd (c : Char) : Bool :=
  c = '\n' || c = '\r' || c.toNat = 0x2028 || c.toNat = 0x2029

/-- A line feed behind a carriage return belongs to the same line end. -/
def dropLineFeed (s : Str) : Str := if s.head? = some '\n' then s.tail else s

/-- The units of a single character behind a backslash. -/
def single : Char → List UInt16
  | 'b' => [0x08]
  | 't' => [0x09]
  | 'n' => [0x0A]
  | 'v' => [0x0B]
  | 'f' => [0x0C]
  | 'r' => [0x0D]
  | c => utf16 c

/-- The units of an escape sequence, read behind its backslash, and what follows it. A line end behind a
backslash stands for nothing. -/
def escape : Str → Option (List UInt16 × Str)
  | [] => none
  | c :: s =>
    if c = 'x' then (hexDigits 2 0 s).map (Prod.map codeUnits id)
    else if c = 'u' then (unicodeCode s).map (Prod.map codeUnits id)
    else if c = '\r' then some ([], dropLineFeed s)
    else if isLineEnd c then some ([], s)
    else match octalVal c with
      | some x => (octalDigits (if x ≤ 3 then 2 else 1) x s).map (Prod.map codeUnits id)
      | none => some (single c, s)

/-! ## The grammar -/

/-- What may stand between the quotes, with its value. -/
inductive StringChars : Str → List UInt16 → Prop
  | nil : StringChars [] []
  | char {c s v} : c ≠ '\\' → StringChars s v → StringChars (c :: s) (utf16 c ++ v)
  | escape {s u r v} : escape s = some (u, r) → StringChars r v → StringChars ('\\' :: s) (u ++ v)

/-- A text in which every backslash starts an escape sequence. -/
inductive Complete : Str → Prop
  | nil : Complete []
  | char {c s} : c ≠ '\\' → Complete s → Complete (c :: s)
  | escape {s u r} : escape s = some (u, r) → Complete r → Complete ('\\' :: s)

/-- The text starts with a spelling of the unit `n`, units that are left out apart. -/
inductive Leads (kept : UInt16 → Bool) (n : UInt16) : Str → Prop
  | char {c s} : c ≠ '\\' → ((utf16 c).filter kept).head? = some n → Leads kept n (c :: s)
  | charLater {c s} : c ≠ '\\' → (utf16 c).filter kept = [] → Leads kept n s → Leads kept n (c :: s)
  | escape {s u r} : escape s = some (u, r) → (u.filter kept).head? = some n →
    Leads kept n ('\\' :: s)
  | escapeLater {s u r} : escape s = some (u, r) → u.filter kept = [] → Leads kept n r →
    Leads kept n ('\\' :: s)

/-! ## What an escape sequence takes from the text -/

/-- A reader takes something from the front of the text, and what stands behind a quote does not matter
to it. -/
structure Fronts {α : Type} (f : Str → Option (α × Str)) : Prop where
  suffix : ∀ {s a r}, f s = some (a, r) → r <:+ s
  quoted : ∀ {s t}, f (s ++ '"' :: t) = (f s).map (Prod.map id (· ++ '"' :: t))

variable {α β : Type} {f g : Str → Option (α × Str)} {s t r : Str} {c : Char} {k acc : Nat}
  {u v : List UInt16}

/-- Reading nothing never succeeds. -/
lemma Fronts.nothing : Fronts fun _ : Str => (none : Option (α × Str)) :=
  ⟨fun h => absurd h (Option.some_ne_none _).symm, rfl⟩

/-- A value without reading. -/
lemma Fronts.here (a : α) : Fronts fun s => some (a, s) := by
  refine ⟨fun h => ?_, rfl⟩
  cases h
  exact List.suffix_refl _

/-- A reader that needs a character which is no quote. -/
lemma Fronts.cons (hnil : f [] = none) (hquote : ∀ t, f ('"' :: t) = none)
    (hcons : ∀ c, Fronts fun s => f (c :: s)) : Fronts f := by
  refine ⟨fun {s a r} h => ?_, fun {s t} => ?_⟩
  · cases s with
    | nil =>
      rw [hnil] at h
      cases h
    | cons c s => exact ((hcons c).suffix h).trans (List.suffix_cons c s)
  · cases s with
    | nil => exact (hquote t).trans (by rw [hnil]; rfl)
    | cons c s => exact (hcons c).quoted

/-- A choice between two readers. -/
lemma Fronts.ite {P : Prop} [Decidable P] (hf : Fronts f) (hg : Fronts g) :
    Fronts fun s => if P then f s else g s := by
  split
  case isTrue => exact hf
  case isFalse => exact hg

/-- A reader that depends on a value. -/
lemma Fronts.bind {o : Option β} {f : β → Str → Option (α × Str)} (hf : ∀ x, Fronts (f x)) :
    Fronts fun s => o.bind fun x => f x s := by
  cases o with
  | none => exact Fronts.nothing
  | some x => exact hf x

/-- A reader whose value is changed. -/
lemma Fronts.map (hf : Fronts f) (h : α → β) : Fronts fun s => (f s).map (Prod.map h id) := by
  refine ⟨fun {s a r} hs => ?_, fun {s t} => ?_⟩
  · obtain ⟨p, hp, he⟩ := Option.map_eq_some_iff.mp hs
    cases he
    exact hf.suffix hp
  · show (f _).map _ = ((f s).map _).map _
    rw [hf.quoted, Option.map_map, Option.map_map]
    rfl

/-- A reader whose value is checked. -/
lemma Fronts.filter (hf : Fronts f) (h : α → Bool) :
    Fronts fun s => (f s).filter fun p => h p.1 := by
  refine ⟨fun {s a r} hs => hf.suffix (Option.filter_eq_some_iff.mp hs).1, fun {s t} => ?_⟩
  show (f _).filter _ = ((f s).filter _).map _
  rw [hf.quoted]
  cases f s with
  | none => rfl
  | some p =>
    show (some _).filter _ = ((some p).filter _).map _
    rw [Option.filter_some, Option.filter_some]
    show (if h p.1 = true then _ else _) = Option.map _ (if h p.1 = true then _ else _)
    split <;> rfl

lemma hexDigits_fronts : Fronts (hexDigits k acc) := by
  induction k generalizing acc with
  | zero => exact Fronts.here acc
  | succ k ih => exact Fronts.cons rfl (fun _ => rfl) fun _ => Fronts.bind fun _ => ih

lemma bracedDigits_fronts : Fronts (bracedDigits acc) := by
  constructor
  · intro s a r h
    induction s generalizing acc with
    | nil => cases h
    | cons c s ih =>
      rw [bracedDigits] at h
      split at h
      case isTrue =>
        cases h
        exact List.suffix_cons _ _
      case isFalse =>
        obtain ⟨x, -, h⟩ := Option.bind_eq_some_iff.mp h
        exact (ih h).trans (List.suffix_cons c s)
  · intro s t
    induction s generalizing acc with
    | nil => rfl
    | cons c s ih =>
      rw [List.cons_append, bracedDigits, bracedDigits]
      split
      case isTrue => rfl
      case isFalse =>
        cases hexVal c with
        | none => rfl
        | some x => exact ih

lemma octalDigits_fronts : Fronts (octalDigits k acc) := by
  induction k generalizing acc with
  | zero => exact Fronts.here acc
  | succ k ih =>
    refine ⟨fun {s a r} h => ?_, fun {s t} => ?_⟩
    · cases s with
      | nil => exact (Fronts.here acc).suffix h
      | cons c s =>
        rw [octalDigits] at h
        cases hc : octalVal c with
        | none =>
          rw [hc] at h
          exact (Fronts.here acc).suffix h
        | some x =>
          rw [hc] at h
          exact (ih.suffix h).trans (List.suffix_cons c s)
    · cases s with
      | nil => rfl
      | cons c s =>
        rw [List.cons_append, octalDigits, octalDigits]
        cases octalVal c with
        | none => rfl
        | some x => exact ih.quoted

lemma bracedCode_fronts : Fronts bracedCode := by
  refine Fronts.cons rfl (fun _ => rfl) fun _ => Fronts.bind fun _ => ?_
  exact bracedDigits_fronts.filter fun n => n ≤ 0x10FFFF

lemma unicodeCode_fronts : Fronts unicodeCode := by
  refine Fronts.cons rfl (fun _ => rfl) fun c => ?_
  show Fronts fun s => if some c = some '{' then bracedCode s else hexDigits 4 0 (c :: s)
  refine bracedCode_fronts.ite ?_
  exact Fronts.bind fun _ => hexDigits_fronts

lemma dropLineFeed_fronts : Fronts fun s => some (([] : List UInt16), dropLineFeed s) := by
  refine ⟨fun {s a r} h => ?_, fun {s t} => ?_⟩
  · cases h
    unfold dropLineFeed
    split
    case isTrue => exact List.tail_suffix s
    case isFalse => exact List.suffix_refl s
  · cases s with
    | nil => rfl
    | cons c s =>
      show some ([], if some c = some '\n' then s ++ '"' :: t else c :: s ++ '"' :: t)
        = some ([], (if some c = some '\n' then s else c :: s) ++ '"' :: t)
      split <;> rfl

/-- An escape sequence takes one character or more. -/
lemma escape_fronts : Fronts fun s => escape (c :: s) := by
  show Fronts fun s => if c = 'x' then _ else if c = 'u' then _ else if c = '\r' then _ else
    if isLineEnd c = true then _ else _
  refine (hexDigits_fronts.map codeUnits).ite ((unicodeCode_fronts.map codeUnits).ite ?_)
  refine dropLineFeed_fronts.ite ((Fronts.here []).ite ?_)
  cases octalVal c with
  | none => exact Fronts.here (single c)
  | some x => exact octalDigits_fronts.map codeUnits

lemma escape_length (h : escape s = some (u, r)) : r.length < s.length := by
  cases s with
  | nil => cases h
  | cons c s => exact Nat.lt_succ_of_le (escape_fronts.suffix h).length_le

/-! ## The reader -/

/-- The value of a string literal, read behind its opening quote, and what follows its closing quote. -/
def readString : Str → Option (List UInt16 × Str)
  | [] => none
  | c :: s =>
    if c = '"' then some ([], s)
    else if c = '\\' then
      match _h : escape s with
      | none => none
      | some (u, r) => (readString r).map (Prod.map (u ++ ·) id)
    else if c = '\n' ∨ c = '\r' then none
    else (readString s).map (Prod.map (utf16 c ++ ·) id)
termination_by s => s.length
decreasing_by
  · exact Nat.lt_succ_of_lt (escape_length _h)
  · exact Nat.lt_succ_self s.length

/-- A quote ends the literal. -/
lemma readString_quote : readString ('"' :: s) = some ([], s) := by
  rw [readString, if_pos rfl]

/-- An escape stands for its units. -/
lemma readString_escape (h : escape s = some (u, r)) :
    readString ('\\' :: s) = (readString r).map (Prod.map (u ++ ·) id) := by
  rw [readString, if_neg (by decide), if_pos rfl]
  split
  case h_1 hnone =>
    rw [h] at hnone
    cases hnone
  case h_2 hsome =>
    rw [h] at hsome
    cases hsome
    rfl

/-- A literal with a broken escape is none. -/
lemma readString_broken (h : escape s = none) : readString ('\\' :: s) = none := by
  rw [readString, if_neg (by decide), if_pos rfl]
  split
  case h_1 => rfl
  case h_2 hsome =>
    rw [h] at hsome
    cases hsome

/-- Any other character of the line stands for itself. -/
lemma readString_char (hquote : c ≠ '"') (hslash : c ≠ '\\') (hline : c ≠ '\n' ∧ c ≠ '\r') :
    readString (c :: s) = (readString s).map (Prod.map (utf16 c ++ ·) id) := by
  rw [readString, if_neg hquote, if_neg hslash, if_neg (not_or.mpr hline)]

/-- A literal has a closing quote. -/
lemma readString_length (h : readString s = some (v, t)) : t.length < s.length := by
  induction s using readString.induct generalizing v with
  | case1 =>
    rw [readString] at h
    cases h
  | case2 s =>
    rw [readString_quote] at h
    cases h
    exact Nat.lt_succ_self _
  | case3 s hbroken =>
    rw [readString_broken hbroken] at h
    cases h
  | case4 s u r he _ ih =>
    rw [readString_escape he] at h
    obtain ⟨p, hp, heq⟩ := Option.map_eq_some_iff.mp h
    cases heq
    exact (ih hp).trans (Nat.lt_succ_of_lt (escape_length he))
  | case5 c s hquote hslash hline =>
    rw [readString, if_neg hquote, if_neg hslash, if_pos hline] at h
    cases h
  | case6 c s hquote hslash hline ih =>
    rw [readString_char hquote hslash (not_or.mp hline)] at h
    obtain ⟨p, hp, heq⟩ := Option.map_eq_some_iff.mp h
    cases heq
    exact Nat.lt_succ_of_lt (ih hp)

/-- A character that may stand between the quotes, were it not for the backslash. -/
def Inner (c : Char) : Prop := c ≠ '"' ∧ c ≠ '\n' ∧ c ≠ '\r'

/-- An escape that is complete is read in the same way before a quote. -/
lemma escape_quoted (h : escape s = some (u, r)) :
    escape (s ++ '"' :: t) = some (u, r ++ '"' :: t) := by
  cases s with
  | nil => cases h
  | cons c s =>
    have hquoted := (escape_fronts (c := c)).quoted (s := s) (t := t)
    rw [h] at hquoted
    exact hquoted

/-- What the grammar derives is read up to the quote. -/
lemma StringChars.read (hchars : StringChars s v) (hs : ∀ c ∈ s, Inner c) :
    readString (s ++ '"' :: t) = some (v, t) := by
  induction hchars with
  | nil => exact readString_quote
  | @char c s v hc _ ih =>
    obtain ⟨hquote, hline⟩ := hs c (.head _)
    rw [List.cons_append, readString_char hquote hc hline, ih fun d hd => hs d (.tail _ hd)]
    rfl
  | @escape s u r v he _ ih =>
    have hrest : ∀ c ∈ r, Inner c := by
      intro c hc
      cases s with
      | nil => cases he
      | cons d s => exact hs c (.tail _ (.tail _ ((escape_fronts.suffix he).subset hc)))
    rw [List.cons_append, readString_escape (escape_quoted he), ih hrest]
    rfl

/-- What is read up to the quote behind the text follows the grammar. An incomplete escape sequence takes
the quote with it. -/
lemma chars_of_read (hs : ∀ c ∈ s, Inner c) (h : readString (s ++ '"' :: t) = some (v, t)) :
    StringChars s v := by
  induction hn : s.length using Nat.strong_induction_on generalizing s v with
  | h n ih =>
    subst hn
    cases s with
    | nil =>
      rw [List.nil_append, readString_quote] at h
      cases h
      exact .nil
    | cons c s =>
      obtain ⟨hquote, hline⟩ := hs c (.head _)
      by_cases hc : c = '\\'
      case neg =>
        rw [List.cons_append, readString_char hquote hc hline] at h
        obtain ⟨p, hp, heq⟩ := Option.map_eq_some_iff.mp h
        cases heq
        exact .char hc (ih s.length (Nat.lt_succ_self _) (fun d hd => hs d (.tail _ hd)) hp rfl)
      case pos =>
        subst hc
        cases s with
        | nil =>
          have hquoted : escape ('"' :: t) = some ([0x22], t) := rfl
          rw [List.cons_append, List.nil_append, readString_escape hquoted] at h
          obtain ⟨p, hp, heq⟩ := Option.map_eq_some_iff.mp h
          cases heq
          exact absurd (readString_length hp) (Nat.lt_irrefl _)
        | cons d s =>
          have hquoted := (escape_fronts (c := d)).quoted (s := s) (t := t)
          cases he : escape (d :: s) with
          | none =>
            rw [he] at hquoted
            rw [List.cons_append, List.cons_append, readString_broken hquoted] at h
            cases h
          | some q =>
            obtain ⟨u, r⟩ := q
            rw [List.cons_append, readString_escape (escape_quoted he)] at h
            obtain ⟨p, hp, heq⟩ := Option.map_eq_some_iff.mp h
            cases heq
            have hlength : r.length < ('\\' :: d :: s).length :=
              Nat.lt_succ_of_lt (escape_length he)
            have hrest : ∀ c ∈ r, Inner c := fun c hc =>
              hs c (.tail _ (.tail _ ((escape_fronts.suffix he).subset hc)))
            exact .escape he (ih r.length hlength hrest hp rfl)

/-- A text without quotes and line ends is read up to the quote behind it iff it follows the grammar. -/
theorem readString_iff (hs : ∀ c ∈ s, Inner c) :
    readString (s ++ '"' :: t) = some (v, t) ↔ StringChars s v :=
  ⟨chars_of_read hs, fun hchars => hchars.read hs⟩

/-! ## Complete texts and their first units -/

/-- A text can be the inside of a literal iff it has a value. -/
lemma complete_iff : Complete s ↔ ∃ v, StringChars s v := by
  constructor
  · intro h
    induction h with
    | nil => exact ⟨[], .nil⟩
    | char hc _ ih =>
      obtain ⟨v, hv⟩ := ih
      exact ⟨_, .char hc hv⟩
    | escape he _ ih =>
      obtain ⟨v, hv⟩ := ih
      exact ⟨_, .escape he hv⟩
  · rintro ⟨v, h⟩
    induction h with
    | nil => exact .nil
    | char hc _ ih => exact .char hc ih
    | escape he _ ih => exact .escape he ih

/-- Without a backslash it always can. -/
lemma Complete.plain (h : '\\' ∉ s) : Complete s := by
  induction s with
  | nil => exact .nil
  | cons c s ih => exact .char (fun hc => h (hc ▸ .head _)) (ih fun hs => h (.tail _ hs))

lemma head_filter_append {kept : UInt16 → Bool} {n : UInt16} :
    ((u ++ v).filter kept).head? = some n
      ↔ (u.filter kept).head? = some n ∨ u.filter kept = [] ∧ (v.filter kept).head? = some n := by
  rw [List.filter_append]
  cases u.filter kept with
  | nil =>
    constructor
    · exact fun h => .inr ⟨rfl, h⟩
    · rintro (h | ⟨-, h⟩)
      · cases h
      · exact h
  | cons x l =>
    constructor
    · exact fun h => .inl h
    · rintro (h | ⟨h, -⟩)
      · exact h
      · cases h

/-- The first unit of the value is the one that the text starts with a spelling of. -/
lemma StringChars.head_iff {kept : UInt16 → Bool} {n : UInt16} (h : StringChars s v) :
    (v.filter kept).head? = some n ↔ Leads kept n s := by
  induction h with
  | nil =>
    constructor
    · intro h
      cases h
    · intro h
      cases h
  | @char c s v hc _ ih =>
    rw [head_filter_append, ih]
    constructor
    · rintro (hu | ⟨hu, hs⟩)
      · exact .char hc hu
      · exact .charLater hc hu hs
    · intro h
      cases h with
      | char _ hu => exact .inl hu
      | charLater _ hu hs => exact .inr ⟨hu, hs⟩
      | escape => exact absurd rfl hc
      | escapeLater => exact absurd rfl hc
  | @escape s u r v he _ ih =>
    rw [head_filter_append, ih]
    constructor
    · rintro (hu | ⟨hu, hs⟩)
      · exact .escape he hu
      · exact .escapeLater he hu hs
    · intro h
      cases h with
      | char hc => exact absurd rfl hc
      | charLater hc => exact absurd rfl hc
      | escape he' hu =>
        rw [he] at he'
        cases he'
        exact .inl hu
      | escapeLater he' hu hs =>
        rw [he] at he'
        cases he'
        exact .inr ⟨hu, hs⟩

lemma utf16_ne_nil : utf16 c ≠ [] := by
  unfold utf16 codeUnits
  split <;> exact List.cons_ne_nil _ _

/-- An ASCII unit is the spelling of its character only. -/
lemma utf16_head {n : Nat} (hn : n < 0x80) (h : (utf16 c).head? = some (UInt16.ofNat n)) :
    c.toNat = n := by
  have hmod : ∀ m < 0x10000, m % UInt16.size = m := fun m hm => Nat.mod_eq_of_lt hm
  unfold utf16 codeUnits at h
  split at h
  case isTrue hc =>
    have hunit := congrArg UInt16.toNat (Option.some.inj h)
    rwa [UInt16.toNat_ofNat', UInt16.toNat_ofNat', hmod _ hc, hmod _ (by omega)] at hunit
  case isFalse hc =>
    have hunit := congrArg UInt16.toNat (Option.some.inj h)
    have hlimit : c.toNat < 0xD800 ∨ 0xDFFF < c.toNat ∧ c.toNat < 0x110000 := c.valid
    rw [UInt16.toNat_ofNat', UInt16.toNat_ofNat', hmod _ (by omega), hmod _ (by omega)] at hunit
    omega

/-- With all units kept, a text that starts with an ASCII character leads with that one. -/
lemma leads_char {n : Nat} (hn : n < 0x80) (hslash : c ≠ '\\')
    (h : Leads (fun _ => true) (UInt16.ofNat n) (c :: s)) : c.toNat = n := by
  have hall : ((utf16 c).filter fun _ => true) = utf16 c := List.filter_eq_self.mpr fun _ _ => rfl
  cases h with
  | char _ hhead =>
    rw [hall] at hhead
    exact utf16_head hn hhead
  | charLater _ hnil =>
    rw [hall] at hnil
    exact absurd hnil utf16_ne_nil
  | escape => exact absurd rfl hslash
  | escapeLater => exact absurd rfl hslash

end Lib.Js
