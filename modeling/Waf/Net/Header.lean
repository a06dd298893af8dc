import Waf.Lib.HashMap
import Waf.Lib.Text

/-!
# Header lines

A request carries its header as a list of lines in arrival order, each a name in lower case and a
value of bytes. `http::HeaderMap::get` reads the first line of a name, and `HeaderValue::to_str` gives
the text of a value only if every byte of it is visible ASCII, a space or a tab. A cookie line is read
by `parse_cookie_header`.
-/

namespace Waf
open Lib

/-- A `HeaderValue`. -/
abbrev HeaderValue := List UInt8

structure HeaderLine where
  name : Str
  value : HeaderValue

/-- The values of the lines of a name, in order. -/
def headerValues (headers : List HeaderLine) (name : Str) : List HeaderValue :=
  (headers.filter fun h => h.name == name).map (·.value)

/-- `HeaderMap::get`. -/
def headerGet (headers : List HeaderLine) (name : Str) : Option HeaderValue :=
  (headers.find? fun h => h.name == name).map (·.value)

/-- The value of a header is that of its first line. -/
lemma headerGet_eq_head {headers name} :
    headerGet headers name = (headerValues headers name).head? := by
  rw [headerGet, headerValues, List.head?_map, List.head?_filter]

namespace HeaderValue

def isVisibleAscii (b : UInt8) : Bool := (32 ≤ b && b < 127) || b == 9

def toStr (v : HeaderValue) : Option Str :=
  if v.all isVisibleAscii then some (v.map fun b => Char.ofNat b.toNat) else none

/-- A value is text exactly when both halves are. -/
lemma toStr_append {v w : HeaderValue} :
    toStr (v ++ w) = v.toStr.bind fun s => w.toStr.map fun t => s ++ t := by
  simp only [toStr, List.all_append, List.map_append]
  cases v.all isVisibleAscii with
  | false => rfl
  | true => cases w.all isVisibleAscii <;> rfl

/-- The bytes of a printable ASCII text read back as that text. -/
lemma toStr_utf8 {s : Str} (h : ∀ c ∈ s, 32 ≤ c.toNat ∧ c.toNat < 127) :
    toStr (utf8 s) = some s := by
  induction s with
  | nil => rfl
  | cons c s ih =>
    obtain ⟨hlo, hhi⟩ := h c (.head _)
    have hc : String.utf8EncodeChar c = [UInt8.ofNat c.toNat] :=
      utf8EncodeChar_ascii (Nat.lt_succ_of_lt hhi)
    have hb : (UInt8.ofNat c.toNat).toNat = c.toNat := by
      rw [UInt8.toNat_ofNat', Nat.mod_eq_of_lt (by omega)]
    have hvis : isVisibleAscii (UInt8.ofNat c.toNat) = true := by
      simp only [isVisibleAscii, Bool.or_eq_true, Bool.and_eq_true, decide_eq_true_eq]
      refine .inl ⟨?_, ?_⟩
      · rw [UInt8.le_iff_toNat_le, hb]
        exact hlo
      · rw [UInt8.lt_iff_toNat_lt, hb]
        exact hhi
    have hone : toStr [UInt8.ofNat c.toNat] = some [c] := by
      simp [toStr, hvis, hb]
    have hcons : utf8 (c :: s) = [UInt8.ofNat c.toNat] ++ utf8 s := by
      rw [← hc]
      rfl
    rw [hcons, toStr_append, hone, ih fun d hd => h d (.tail _ hd)]
    rfl

/-- A byte of a text is the encoding of its character. -/
lemma encode_visible {b : UInt8} (h : isVisibleAscii b = true) :
    String.utf8EncodeChar (Char.ofNat b.toNat) = [b] := by
  have hb : b.toNat < 128 := by
    simp only [isVisibleAscii, Bool.or_eq_true, Bool.and_eq_true, decide_eq_true_eq, beq_iff_eq] at h
    obtain ⟨-, h⟩ | rfl := h
    · exact lt_trans (UInt8.lt_iff_toNat_lt.mp h) (by decide)
    · decide
  exact utf8EncodeChar_byte hb

/-- A text is written with the bytes it was read from. -/
lemma utf8_of_toStr {v : HeaderValue} {s : Str} (h : v.toStr = some s) : utf8 s = v := by
  unfold toStr at h
  split at h
  case isFalse => cases h
  case isTrue hall =>
    obtain rfl := Option.some.inj h
    have hvis := List.all_eq_true.mp hall
    clear h hall
    induction v with
    | nil => rfl
    | cons b v ih =>
      have hb := encode_visible (hvis b (.head _))
      have hv := ih fun c hc => hvis c (.tail _ hc)
      rw [utf8] at hv ⊢
      rw [List.map_cons, List.flatMap_cons, hb, hv]
      rfl

end HeaderValue

/-! ## Cookies -/

/-- A cookie of a `Cookie` line. -/
def cookiePart (part : Str) : Option (Str × Str) :=
  (splitOnce '=' (trim part)).map fun kv => (trim kv.1, trimMatches (· == '"') (trim kv.2))

/-- The cookies of a line, the last value of a name winning. -/
def parseCookieHeader (header : Str) : HashMap Str Str :=
  (header.splitOn ';').foldl (fun m part =>
    match cookiePart part with
    | some (k, v) => m.insert k v
    | none => m) ∅

/-- The names of the cookies of a line in arrival order. -/
def cookieNames (header : Str) : List Str :=
  (header.splitOn ';').filterMap fun p => (splitOnce '=' p).map fun kv => toAsciiLower (trim kv.1)

end Waf
