import Waf.Lib.Regex
import Waf.Lib.Text

/-!
# The syntax of regular expressions

The part of the pattern syntax of the `regex` crate that ASCII patterns with literals, classes,
groups, alternatives, repetitions, `\b`, `^`, `$` and a leading `(?i)` use. `parse` reads a pattern
into an expression over sets of characters, `CharSet`, and refuses what it does not know. Which
characters beyond ASCII are digits or belong to words is left to the Unicode `Tables`.
-/

namespace Lib.Regex

/-! ## Sets of characters -/

inductive Item where
  | range (lo hi : Char)
  | digit
  | word
  | space
  deriving DecidableEq

/-- A class of characters: items, or the characters in none of them (`neg`), in any letter case
(`fold`). -/
structure CharSet where
  items : List Item
  neg : Bool
  fold : Bool
  deriving DecidableEq

/-- The Unicode tables for `\d` and `\w`. -/
structure Tables where
  digit : Char → Bool
  word : Char → Bool
  digit_ascii : ∀ c, c.toNat < 128 → digit c = c.isDigit
  word_ascii : ∀ c, c.toNat < 128 → word c = (c.isAlphanum || c == '_')
  word_longS : word (Char.ofNat 0x17F) = true
  word_kelvin : word (Char.ofNat 0x212A) = true

/-- The ASCII characters that simple case folding identifies with `c`; the long s and the kelvin sign
fold to letters. -/
def folds (c : Char) : List Char :=
  if c = Char.ofNat 0x17F then ['s', 'S']
  else if c = Char.ofNat 0x212A then ['k', 'K']
  else [c.toLower, c.toUpper]

def Item.mem (u : Tables) (fold : Bool) (c : Char) : Item → Bool
  | range lo hi =>
    let within := fun d : Char => lo.toNat ≤ d.toNat && d.toNat ≤ hi.toNat
    within c || fold && (folds c).any within
  | digit => u.digit c
  | word => u.word c
  | space => isSpace c

def CharSet.mem (u : Tables) (s : CharSet) (c : Char) : Bool :=
  (s.items.any (Item.mem u s.fold c)) != s.neg

def Tables.reader (u : Tables) : Reader CharSet Char where
  mem := CharSet.mem u
  word := u.word

/-- Tables without the characters beyond ASCII, except for the two that fold to letters. -/
def asciiTables : Tables where
  digit c := c.isDigit
  word c := c.isAlphanum || c == '_' || c == Char.ofNat 0x17F || c == Char.ofNat 0x212A
  digit_ascii _ _ := rfl
  word_ascii c h := by
    have h₁ : (c == Char.ofNat 0x17F) = false := by
      rw [beq_eq_false_iff_ne]
      rintro rfl
      exact absurd h (by decide)
    have h₂ : (c == Char.ofNat 0x212A) = false := by
      rw [beq_eq_false_iff_ne]
      rintro rfl
      exact absurd h (by decide)
    rw [h₁, h₂, Bool.or_false, Bool.or_false]
  word_longS := by decide
  word_kelvin := by decide

variable {u : Tables} {s : CharSet} {c : Char}

/-- Which sets have an ASCII character does not depend on the tables. -/
lemma CharSet.mem_ascii (hc : c.toNat < 128) : s.mem u c = s.mem asciiTables c := by
  have hi : Item.mem u s.fold c = Item.mem asciiTables s.fold c := by
    funext i
    cases i with
    | range | space => rfl
    | digit => exact (u.digit_ascii c hc).trans (asciiTables.digit_ascii c hc).symm
    | word => exact (u.word_ascii c hc).trans (asciiTables.word_ascii c hc).symm
  rw [mem, mem, hi]

/-! ## Tokens -/

inductive Token where
  | opening
  | closing
  | bar
  | set (s : CharSet)
  | check (r : Regex CharSet)
  | rep (lo : Nat) (hi : Option Nat)

/-- The characters with a meaning of their own, which a backslash takes away. -/
def metas : List Char := "\\.+*?()|[]\x7b\x7d^$#&-~".toList

/-- What a backslash before `c` stands for. -/
def escape (c : Char) : Option Item :=
  if c = 'd' then some .digit
  else if c = 'w' then some .word
  else if c = 's' then some .space
  else if metas.contains c then some (.range c c)
  else none

/-- A character that stands for itself in a class. -/
def plain (c : Char) : Bool := c.toNat < 128 && !(['[', ']', '\\', '-'] : List Char).contains c

/-- The items of a class, up to its bracket. -/
def lexItems : Nat → Str → Option (List Item × Str)
  | 0, _ => none
  | _ + 1, [] => none
  | _ + 1, ']' :: cs => some ([], cs)
  | n + 1, '\\' :: c :: cs =>
    match escape c, lexItems n cs with
    | some i, some (is, cs) => some (i :: is, cs)
    | _, _ => none
  | n + 1, c :: '-' :: d :: cs =>
    if plain c && plain d && c.toNat ≤ d.toNat then
      (lexItems n cs).map fun r => (.range c d :: r.1, r.2)
    else none
  | n + 1, c :: cs =>
    -- a doubled `&` or `~` would be an operator
    if plain c && !((c == '&' || c == '~') && cs.head? == some c) then
      (lexItems n cs).map fun r => (.range c c :: r.1, r.2)
    else none

def number (cs : Str) : Option Nat :=
  if cs.isEmpty then none else some (cs.foldl (fun n c => 10 * n + (c.toNat - '0'.toNat)) 0)

/-- The bounds of a counted repetition, up to its brace. -/
def lexCount (cs : Str) : Option (Nat × Option Nat × Str) :=
  match number (cs.takeWhile Char.isDigit), cs.dropWhile Char.isDigit with
  | some lo, '}' :: cs => some (lo, some lo, cs)
  | some lo, ',' :: '}' :: cs => some (lo, none, cs)
  | some lo, ',' :: cs =>
    match number (cs.takeWhile Char.isDigit), cs.dropWhile Char.isDigit with
    | some hi, '}' :: cs => if lo ≤ hi then some (lo, some hi, cs) else none
    | _, _ => none
  | _, _ => none

/-- A question mark after a repetition makes it lazy, which does not change what it matches. -/
def lazily : Str → Str
  | '?' :: cs => cs
  | cs => cs

/-- Every character but the line feed. -/
def dot : CharSet := ⟨[.range '\n' '\n'], true, false⟩

def lex (fold : Bool) : Nat → Str → Option (List Token)
  | 0, _ => none
  | _ + 1, [] => some []
  | n + 1, '(' :: '?' :: ':' :: cs => (lex fold n cs).map (.opening :: ·)
  | _ + 1, '(' :: '?' :: _ => none
  | n + 1, '(' :: cs => (lex fold n cs).map (.opening :: ·)
  | n + 1, ')' :: cs => (lex fold n cs).map (.closing :: ·)
  | n + 1, '|' :: cs => (lex fold n cs).map (.bar :: ·)
  | n + 1, '*' :: cs => (lex fold n (lazily cs)).map (.rep 0 none :: ·)
  | n + 1, '+' :: cs => (lex fold n (lazily cs)).map (.rep 1 none :: ·)
  | n + 1, '?' :: cs => (lex fold n (lazily cs)).map (.rep 0 (some 1) :: ·)
  | n + 1, '{' :: cs =>
    match lexCount cs with
    | some (lo, hi, cs) => (lex fold n (lazily cs)).map (.rep lo hi :: ·)
    | none => none
  | n + 1, '^' :: cs => (lex fold n cs).map (.check .start :: ·)
  | n + 1, '$' :: cs => (lex fold n cs).map (.check .stop :: ·)
  | n + 1, '.' :: cs => (lex fold n cs).map (.set dot :: ·)
  | _ + 1, '\\' :: 'b' :: '{' :: _ => none
  | n + 1, '\\' :: 'b' :: cs => (lex fold n cs).map (.check .bound :: ·)
  | n + 1, '\\' :: c :: cs =>
    match escape c with
    | some i => (lex fold n cs).map (.set ⟨[i], false, fold⟩ :: ·)
    | none => none
  | n + 1, '[' :: '^' :: cs =>
    match lexItems n cs with
    | some (i :: is, cs) => (lex fold n cs).map (.set ⟨i :: is, true, fold⟩ :: ·)
    | _ => none
  | n + 1, '[' :: cs =>
    match lexItems n cs with
    | some (i :: is, cs) => (lex fold n cs).map (.set ⟨i :: is, false, fold⟩ :: ·)
    | _ => none
  | n + 1, c :: cs =>
    if c.toNat < 128 && c != '\\' then (lex fold n cs).map (.set ⟨[.range c c], false, fold⟩ :: ·)
    else none

/-! ## Expressions -/

variable {σ : Type}

/-- One expression after the other. -/
def catAll : List (Regex σ) → Regex σ
  | [] => eps
  | [r] => r
  | r :: rs => cat r (catAll rs)

/-- Up to `n` times. -/
def upTo (r : Regex σ) : Nat → Regex σ
  | 0 => eps
  | n + 1 => alt (cat r (upTo r n)) eps

def repeated (r : Regex σ) (lo : Nat) : Option Nat → Regex σ
  | none => catAll (List.replicate lo r ++ [star r])
  | some hi => if hi = lo then catAll (.replicate lo r) else
      catAll (List.replicate lo r ++ [upTo r (hi - lo)])

/-- A group that is being read: the alternatives before the last bar and, from the last on, the
expressions after it. -/
structure Group (σ : Type) where
  before : Option (Regex σ) := none
  seq : List (Regex σ) := []

namespace Group

def close (g : Group σ) : Regex σ :=
  let r := catAll g.seq.reverse
  match g.before with
  | none => r
  | some a => alt a r

def bar (g : Group σ) : Group σ := ⟨some g.close, []⟩

def push (g : Group σ) (r : Regex σ) : Group σ := { g with seq := r :: g.seq }

end Group

/-- Put the tokens together, in the group `g` inside the groups `outer`. -/
def build : List (Group CharSet) → Group CharSet → List Token → Option (Regex CharSet)
  | [], g, [] => some g.close
  | _ :: _, _, [] => none
  | outer, g, .opening :: ts => build (g :: outer) {} ts
  | [], _, .closing :: _ => none
  | o :: outer, g, .closing :: ts => build outer (o.push g.close) ts
  | outer, g, .bar :: ts => build outer g.bar ts
  | outer, g, .set s :: ts => build outer (g.push (.set s)) ts
  | outer, g, .check r :: ts => build outer (g.push r) ts
  | outer, g, .rep lo hi :: ts =>
    match g.seq with
    | [] => none
    | r :: rs => build outer { g with seq := repeated r lo hi :: rs } ts

/-- The expression of a pattern. -/
def parse (p : Str) : Option (Regex CharSet) :=
  match p with
  | '(' :: '?' :: 'i' :: ')' :: cs => (lex true (cs.length + 1) cs).bind (build [] {})
  | cs => (lex false (cs.length + 1) cs).bind (build [] {})

end Lib.Regex
