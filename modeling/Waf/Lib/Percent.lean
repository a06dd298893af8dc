import Waf.Lib.Text

/-!
# Percent-encoding

`percentDecode` replaces each percent sign with two hexadecimal digits behind it by the byte they
denote, in one pass from the left, and leaves every other character in its UTF-8 encoding. A character
that is no hexadecimal digit starts afresh (`percentDecode_append`). What `percentEncode` writes is read
back (`percentDecode_encode`).
-/

namespace Lib

/-- The value of a hexadecimal digit, of either case. -/
def hexVal (c : Char) : Option Nat :=
  if c.isDigit then some (c.toNat - '0'.toNat)
  else if 'a'.toNat ≤ c.toNat ∧ c.toNat ≤ 'f'.toNat then some (c.toNat - 'a'.toNat + 10)
  else if 'A'.toNat ≤ c.toNat ∧ c.toNat ≤ 'F'.toNat then some (c.toNat - 'A'.toNat + 10)
  else none

/-- The bytes of a percent-encoded text. -/
def percentDecode : Str → List UInt8
  | [] => []
  | '%' :: a :: b :: cs =>
    match hexVal a, hexVal b with
    | some x, some y => UInt8.ofNat (16 * x + y) :: percentDecode cs
    | _, _ => UInt8.ofNat '%'.toNat :: percentDecode (a :: b :: cs)
  | c :: cs => String.utf8EncodeChar c ++ percentDecode cs

/-- Each byte as a percent sign and two digits. -/
def percentEncode (bs : List UInt8) : Str := bs.flatMap fun b => '%' :: hex 2 b.toNat

variable {a b c : Char} {x y n : Nat} {s t : Str} {bs : List UInt8}

/-- A percent sign and two digits are a byte. -/
lemma percentDecode_hex (ha : hexVal a = some x) (hb : hexVal b = some y) :
    percentDecode ('%' :: a :: b :: s) = UInt8.ofNat (16 * x + y) :: percentDecode s := by
  rw [percentDecode, ha, hb]

/-- A percent sign stands for itself in front of what are not two digits. -/
lemma percentDecode_literal (h : ∀ x y, hexVal a = some x → hexVal b = some y → False) :
    percentDecode ('%' :: a :: b :: s) = UInt8.ofNat '%'.toNat :: percentDecode (a :: b :: s) := by
  rw [percentDecode]
  split
  case h_1 x y hx hy => exact absurd hy fun hy => h x y hx hy
  case h_2 => rfl

lemma percentDecode_of_ne (hc : c ≠ '%') :
    percentDecode (c :: s) = String.utf8EncodeChar c ++ percentDecode s := by
  rw [percentDecode]
  intro a b cs h
  exact absurd h hc

/-- A percent sign stands for itself in front of a character that is no digit. -/
lemma percentDecode_percent (hc : hexVal c = none) :
    percentDecode ('%' :: c :: s) = UInt8.ofNat '%'.toNat :: percentDecode (c :: s) := by
  cases s with
  | nil => rfl
  | cons d s =>
    refine percentDecode_literal fun x y hx _ => ?_
    rw [hc] at hx
    cases hx

/-- A character that is no digit is not read with what stands before it. -/
lemma percentDecode_append (hc : hexVal c = none) :
    percentDecode (s ++ c :: t) = percentDecode s ++ percentDecode (c :: t) := by
  induction s using percentDecode.induct with
  | case1 => rfl
  | case2 a b cs x y hy hx ih =>
    rw [List.cons_append, List.cons_append, List.cons_append, percentDecode_hex hx hy,
      percentDecode_hex hx hy, ih]
    rfl
  | case3 a b cs h ih =>
    rw [List.cons_append, List.cons_append, List.cons_append, percentDecode_literal h,
      percentDecode_literal h]
    exact congrArg _ ih
  | case4 d cs h ih =>
    by_cases hd : d = '%'
    case neg =>
      rw [List.cons_append, percentDecode_of_ne hd, percentDecode_of_ne hd, ih, List.append_assoc]
    case pos =>
      subst hd
      cases cs with
      | nil => exact percentDecode_percent hc
      | cons a cs =>
        cases cs with
        | nil =>
          have hlit : ∀ x y, hexVal a = some x → hexVal c = some y → False := by
            intro x y _ hy
            rw [hc] at hy
            cases hy
          exact (percentDecode_literal hlit).trans (congrArg _ ih)
        | cons b cs => exact absurd rfl (h a b cs rfl)

/-- A text without percent signs is left as it is. -/
lemma percentDecode_plain (h : '%' ∉ s) : percentDecode s = utf8 s := by
  induction s with
  | nil => rfl
  | cons c s ih =>
    have hc : c ≠ '%' := fun e => h (e ▸ .head _)
    rw [percentDecode_of_ne hc, ih fun hs => h (.tail _ hs)]
    rfl

/-- A digit has its value. -/
lemma hexVal_digitChar (h : n < 16) : hexVal (Nat.digitChar n) = some n := by
  have key : ∀ a : Fin 16, hexVal (Nat.digitChar a) = some a.val := by decide
  exact key ⟨n, h⟩

/-- Encoded bytes are decoded before whatever comes next. -/
lemma percentDecode_encode : percentDecode (percentEncode bs ++ s) = bs ++ percentDecode s := by
  induction bs with
  | nil => rfl
  | cons b bs ih =>
    have hhigh := hexVal_digitChar (Nat.mod_lt (b.toNat / 16) (by decide : 0 < 16))
    have hlow := hexVal_digitChar (Nat.mod_lt b.toNat (by decide : 0 < 16))
    have hbyte : 16 * (b.toNat / 16 % 16) + b.toNat % 16 = b.toNat := by
      have hb := b.toNat_lt
      omega
    refine (percentDecode_hex hhigh hlow).trans ?_
    rw [hbyte, UInt8.ofNat_toNat]
    exact congrArg _ ih

/-- An encoding is decoded to its bytes. -/
lemma percentDecode_encode' : percentDecode (percentEncode bs) = bs := by
  have h : percentDecode (percentEncode bs ++ []) = bs ++ percentDecode [] := percentDecode_encode
  rw [List.append_nil] at h
  exact h.trans (List.append_nil bs)

lemma mem_percentEncode (h : c ∈ percentEncode bs) : c = '%' ∨ isHexLower c = true := by
  obtain ⟨b, -, hc⟩ := List.mem_flatMap.mp h
  cases hc with
  | head => exact .inl rfl
  | tail _ hc => exact .inr (isHexLower_of_mem_hex hc)

/-! ## Upper case -/

/-- Two upper-case hexadecimal digits (`format!("{:02X}")`). -/
def hexUpper (b : UInt8) : Str := toAsciiUpper (hex 2 b.toNat)

/-- A byte is two upper-case digits. -/
lemma hexUpper_eq {b : UInt8} : hexUpper b
    = [(Nat.digitChar (b.toNat / 16 % 16)).toUpper, (Nat.digitChar (b.toNat % 16)).toUpper] := rfl

/-- A capital digit has the same value. -/
lemma hexVal_toUpper (h : n < 16) : hexVal (Nat.digitChar n).toUpper = some n := by
  have key : ∀ a : Fin 16, hexVal (Nat.digitChar a).toUpper = some a.val := by decide
  exact key ⟨n, h⟩

/-- An encoded byte may be written with capitals. -/
lemma percentDecode_upper {b : UInt8} :
    percentDecode ('%' :: (hexUpper b ++ s)) = b :: percentDecode s := by
  have hhigh := hexVal_toUpper (Nat.mod_lt (b.toNat / 16) (by decide : 0 < 16))
  have hlow := hexVal_toUpper (Nat.mod_lt b.toNat (by decide : 0 < 16))
  have hbyte : 16 * (b.toNat / 16 % 16) + b.toNat % 16 = b.toNat := by
    have hb := b.toNat_lt
    omega
  rw [hexUpper_eq, List.cons_append, List.singleton_append, percentDecode_hex hhigh hlow, hbyte,
    UInt8.ofNat_toNat]

end Lib
