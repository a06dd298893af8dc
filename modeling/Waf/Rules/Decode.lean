import Waf.Rules
import Waf.Lib.Percent

/-!
# Decoded texts

A surface holds the path and the query percent-decoded once and read as UTF-8, with U+FFFD for what is
none. An ASCII byte is always a character of its own, so the decoding of a text splits wherever a
spelling of ASCII characters begins or ends (`decode_spelled`). What is UTF-8 is read as it is
(`lossy_utf8`).
-/

namespace Waf
open Lib

/-- The crate decodes in one pass. -/
def DecodeDocs (crates : Crates) : Prop := crates.percentDecode = percentDecode

variable {crates : Crates} {part : Option Utf8Partial} {b : UInt8} {bs cs : List UInt8}
  {tok plain s t : Str}

/-- A leading byte asks for continuation bytes. -/
lemma utf8Lead_lo {n : Nat} {p : Utf8Partial} (h : utf8Lead n = some p) : 0x80 ≤ p.lo := by
  unfold utf8Lead at h
  split_ifs at h <;> cases h <;> exact Nat.le_of_ble_eq_true rfl

lemma lossy_ascii (hb : b.toNat < 0x80) :
    fromUtf8Lossy none (b :: bs) = Char.ofNat b.toNat :: fromUtf8Lossy none bs :=
  if_pos hb

lemma lo_of_none : ∀ p ∈ (none : Option Utf8Partial), 0x80 ≤ p.lo :=
  fun p hp => absurd hp (Option.not_mem_none p)

/-- What a byte adds at the start of a character. -/
lemma lossy_fresh (b : UInt8) : ∃ out part, (∀ p ∈ part, 0x80 ≤ p.lo)
    ∧ ∀ bs, fromUtf8Lossy none (b :: bs) = out ++ fromUtf8Lossy part bs := by
  by_cases hb : b.toNat < 0x80
  case pos => exact ⟨[Char.ofNat b.toNat], none, lo_of_none, fun bs => lossy_ascii hb⟩
  case neg =>
    cases h : utf8Lead b.toNat with
    | none =>
      refine ⟨[replacement], none, lo_of_none, fun bs => ?_⟩
      rw [fromUtf8Lossy, if_neg hb, h]
      rfl
    | some p =>
      refine ⟨[], some p, ?_, fun bs => ?_⟩
      · rintro _ ⟨⟩
        exact utf8Lead_lo h
      · rw [fromUtf8Lossy, if_neg hb, h]
        rfl

/-- What a byte adds, and what is left open behind it, do not depend on the bytes that follow. -/
lemma lossy_step (part : Option Utf8Partial) (b : UInt8) :
    ∃ out part', (∀ p ∈ part', 0x80 ≤ p.lo)
      ∧ ∀ bs, fromUtf8Lossy part (b :: bs) = out ++ fromUtf8Lossy part' bs := by
  cases part with
  | none => exact lossy_fresh b
  | some p =>
    by_cases hr : p.lo ≤ b.toNat ∧ b.toNat ≤ p.hi
    case pos =>
      have he : ∀ bs, fromUtf8Lossy (some p) (b :: bs)
          = if p.need = 1 then Char.ofNat (p.acc * 64 + (b.toNat - 0x80)) :: fromUtf8Lossy none bs
            else fromUtf8Lossy
              (some ⟨p.need - 1, p.acc * 64 + (b.toNat - 0x80), 0x80, 0xBF⟩) bs :=
        fun bs => if_pos hr
      by_cases hn : p.need = 1
      case pos =>
        refine ⟨[Char.ofNat (p.acc * 64 + (b.toNat - 0x80))], none, lo_of_none, fun bs => ?_⟩
        rw [he, if_pos hn]
        rfl
      case neg =>
        refine ⟨[], some ⟨p.need - 1, p.acc * 64 + (b.toNat - 0x80), 0x80, 0xBF⟩, ?_, fun bs => ?_⟩
        · rintro _ ⟨⟩
          exact le_rfl
        · rw [he, if_neg hn]
          rfl
    case neg =>
      obtain ⟨out, part', hp, hf⟩ := lossy_fresh b
      refine ⟨replacement :: out, part', hp, fun bs => ?_⟩
      have he : fromUtf8Lossy (some p) (b :: bs) = replacement :: fromUtf8Lossy none (b :: bs) :=
        if_neg hr
      rw [he, hf]
      rfl

/-- An ASCII byte ends what stands before it. -/
lemma lossy_append (hp : ∀ p ∈ part, 0x80 ≤ p.lo) (hb : b.toNat < 0x80) :
    fromUtf8Lossy part (bs ++ b :: cs) = fromUtf8Lossy part bs ++ fromUtf8Lossy none (b :: cs) := by
  induction bs generalizing part with
  | nil =>
    cases part with
    | none => rfl
    | some p =>
      have hlo : ¬ (p.lo ≤ b.toNat ∧ b.toNat ≤ p.hi) := by
        have hp := hp p rfl
        omega
      exact if_neg hlo
  | cons d bs ih =>
    obtain ⟨out, part', hp', hf⟩ := lossy_step part d
    rw [List.cons_append, hf, hf, ih hp', List.append_assoc]

/-- The ASCII characters as bytes. -/
def asciiBytes (s : Str) : List UInt8 := s.map fun c => UInt8.ofNat c.toNat

/-- ASCII characters are read as they are. -/
lemma lossy_asciiBytes (h : ∀ c ∈ s, c.toNat < 0x80) :
    fromUtf8Lossy none (asciiBytes s ++ bs) = s ++ fromUtf8Lossy none bs := by
  induction s with
  | nil => rfl
  | cons c s ih =>
    have hc := h c (.head _)
    have hn : (UInt8.ofNat c.toNat).toNat = c.toNat := by
      rw [UInt8.toNat_ofNat']
      omega
    show fromUtf8Lossy none (UInt8.ofNat c.toNat :: (asciiBytes s ++ bs)) = _
    rw [lossy_ascii (by rwa [hn]), hn, Char.ofNat_toNat, ih fun c hc => h c (.tail _ hc)]
    rfl

/-- The text `tok` spells the ASCII characters `plain`, whatever surrounds it. -/
structure Spells (tok plain : Str) : Prop where
  fresh : ∃ c ∈ tok.head?, hexVal c = none
  ne_nil : plain ≠ []
  ascii : ∀ c ∈ plain, c.toNat < 0x80
  decode : ∀ t, percentDecode (tok ++ t) = asciiBytes plain ++ percentDecode t

/-- Decoding splits around a spelling. -/
theorem decode_spelled (docs : DecodeDocs crates) (h : Spells tok plain) :
    decode crates (s ++ (tok ++ t)) = decode crates s ++ (plain ++ decode crates t) := by
  obtain ⟨⟨c, hc, hx⟩, hne, hascii, hdec⟩ := h
  cases tok with
  | nil => cases hc
  | cons d tok =>
    cases hc
    cases plain with
    | nil => exact absurd rfl hne
    | cons e plain =>
      have he : (UInt8.ofNat e.toNat).toNat < 0x80 := by
        have he := hascii e (.head _)
        rw [UInt8.toNat_ofNat']
        omega
      rw [decode, decode, decode, docs, List.cons_append, percentDecode_append hx,
        ← List.cons_append, hdec]
      refine (@lossy_append none _ _ _ nofun he).trans ?_
      exact congrArg _ (lossy_asciiBytes hascii)

lemma decode_nil (docs : DecodeDocs crates) : decode crates [] = [] := by
  rw [decode, docs]
  rfl

/-- The spelling stands at the start. -/
lemma decode_spelled_start (docs : DecodeDocs crates) (h : Spells tok plain) :
    decode crates (tok ++ t) = plain ++ decode crates t := by
  have he := @decode_spelled _ _ _ [] t docs h
  rwa [decode_nil docs] at he

/-- The spelling stands at the end. -/
lemma decode_spelled_end (docs : DecodeDocs crates) (h : Spells tok plain) :
    decode crates (s ++ tok) = decode crates s ++ plain := by
  have he := @decode_spelled _ _ _ s [] docs h
  rwa [decode_nil docs, List.append_nil, List.append_nil] at he

/-! ## Whole characters -/

section

variable {p : Utf8Partial} {c : Char}

/-- A first byte that announces more. -/
lemma lossy_lead (hb : 0x80 ≤ b.toNat) (hp : utf8Lead b.toNat = some p) :
    fromUtf8Lossy none (b :: bs) = fromUtf8Lossy (some p) bs := by
  rw [fromUtf8Lossy, if_neg (Nat.not_lt.mpr hb), hp]

/-- The last byte of a character. -/
lemma lossy_last (hb : p.lo ≤ b.toNat ∧ b.toNat ≤ p.hi) (hneed : p.need = 1) :
    fromUtf8Lossy (some p) (b :: bs)
      = Char.ofNat (p.acc * 64 + (b.toNat - 0x80)) :: fromUtf8Lossy none bs :=
  (if_pos hb).trans (if_pos hneed)

/-- A byte with more to come. -/
lemma lossy_more (hb : p.lo ≤ b.toNat ∧ b.toNat ≤ p.hi) (hneed : p.need ≠ 1) :
    fromUtf8Lossy (some p) (b :: bs)
      = fromUtf8Lossy (some ⟨p.need - 1, p.acc * 64 + (b.toNat - 0x80), 0x80, 0xBF⟩) bs :=
  (if_pos hb).trans (if_neg hneed)

/-- A byte is its number. -/
lemma toNat_ofNat_byte {n : Nat} (h : n < 256) : (UInt8.ofNat n).toNat = n := by
  rw [UInt8.toNat_ofNat']
  exact Nat.mod_eq_of_lt h

/-- The first byte of a character of three bytes. -/
lemma utf8Lead_three {n : Nat} (h : n < 16) : utf8Lead (n + 0xe0)
    = some ⟨2, n, if n = 0 then 0xA0 else 0x80, if n = 0xD then 0x9F else 0xBF⟩ := by
  have key : ∀ n : Fin 16, (utf8Lead (n + 0xe0)).map (fun p => (p.need, p.acc, p.lo, p.hi))
      = some (2, n.val, if n.val = 0 then 0xA0 else 0x80, if n.val = 0xD then 0x9F else 0xBF) := by
    decide
  have hn := key ⟨n, h⟩
  obtain ⟨⟨need, acc, lo, hi⟩, hp, heq⟩ := Option.map_eq_some_iff.mp hn
  obtain ⟨rfl, rfl, rfl, rfl⟩ := by simpa using heq
  exact hp

/-- The first byte of a character of four bytes. -/
lemma utf8Lead_four {n : Nat} (h : n < 5) : utf8Lead (n + 0xf0)
    = some ⟨3, n, if n = 0 then 0x90 else 0x80, if n = 4 then 0x8F else 0xBF⟩ := by
  have key : ∀ n : Fin 5, (utf8Lead (n + 0xf0)).map (fun p => (p.need, p.acc, p.lo, p.hi))
      = some (3, n.val, if n.val = 0 then 0x90 else 0x80, if n.val = 4 then 0x8F else 0xBF) := by
    decide
  have hn := key ⟨n, h⟩
  obtain ⟨⟨need, acc, lo, hi⟩, hp, heq⟩ := Option.map_eq_some_iff.mp hn
  obtain ⟨rfl, rfl, rfl, rfl⟩ := by simpa using heq
  exact hp

/-- An encoded character is read back. -/
lemma lossy_char : fromUtf8Lossy none (String.utf8EncodeChar c ++ bs)
    = c :: fromUtf8Lossy none bs := by
  have hvalid : c.toNat < 0xD800 ∨ (0xDFFF < c.toNat ∧ c.toNat < 0x110000) := c.valid
  have hval : c.val.toNat = c.toNat := rfl
  rw [String.utf8EncodeChar]
  simp only [hval]
  split
  case isTrue h1 =>
    have hb := toNat_ofNat_byte (n := c.toNat) (by omega)
    show fromUtf8Lossy none (UInt8.ofNat c.toNat :: bs) = _
    rw [lossy_ascii (by omega), hb, Char.ofNat_toNat]
  case isFalse h1 =>
    split
    case isTrue h2 =>
      have hlead := toNat_ofNat_byte (n := c.toNat / 64 % 0x20 + 0xc0) (by omega)
      have hlast := toNat_ofNat_byte (n := c.toNat % 0x40 + 0x80) (by omega)
      have hp : utf8Lead (UInt8.ofNat (c.toNat / 64 % 0x20 + 0xc0)).toNat
          = some ⟨1, c.toNat / 64, 0x80, 0xBF⟩ := by
        have hsub : c.toNat / 64 % 0x20 + 0xc0 - 0xC0 = c.toNat / 64 := by omega
        rw [hlead, utf8Lead, if_pos (by omega), hsub]
      have hchar : c.toNat / 64 * 64 + ((UInt8.ofNat (c.toNat % 0x40 + 0x80)).toNat - 0x80) = c.toNat := by
        rw [hlast]
        omega
      rw [List.cons_append, List.cons_append, List.nil_append, lossy_lead (by omega) hp,
        lossy_last (by simp only; omega) rfl, hchar, Char.ofNat_toNat]
    case isFalse h2 =>
      split
      case isTrue h3 =>
        have hlead := toNat_ofNat_byte (n := c.toNat / 4096 % 0x10 + 0xe0) (by omega)
        have hmore := toNat_ofNat_byte (n := c.toNat / 64 % 0x40 + 0x80) (by omega)
        have hlast := toNat_ofNat_byte (n := c.toNat % 0x40 + 0x80) (by omega)
        have hp := utf8Lead_three (n := c.toNat / 4096 % 0x10) (by omega)
        rw [← hlead] at hp
        have hchar : (c.toNat / 4096 % 0x10 * 64 + ((UInt8.ofNat (c.toNat / 64 % 0x40 + 0x80)).toNat - 0x80))
            * 64 + ((UInt8.ofNat (c.toNat % 0x40 + 0x80)).toNat - 0x80) = c.toNat := by
          rw [hmore, hlast]
          omega
        rw [List.cons_append, List.cons_append, List.cons_append, List.nil_append,
          lossy_lead (by omega) hp, lossy_more (by simp only; split_ifs <;> omega) (by simp),
          lossy_last (by simp only; omega) rfl, hchar, Char.ofNat_toNat]
      case isFalse h3 =>
        have hlead := toNat_ofNat_byte (n := c.toNat / 262144 % 0x08 + 0xf0) (by omega)
        have hmore := toNat_ofNat_byte (n := c.toNat / 4096 % 0x40 + 0x80) (by omega)
        have hmore' := toNat_ofNat_byte (n := c.toNat / 64 % 0x40 + 0x80) (by omega)
        have hlast := toNat_ofNat_byte (n := c.toNat % 0x40 + 0x80) (by omega)
        have hp := utf8Lead_four (n := c.toNat / 262144 % 0x08) (by omega)
        rw [← hlead] at hp
        have hchar : ((c.toNat / 262144 % 0x08 * 64
            + ((UInt8.ofNat (c.toNat / 4096 % 0x40 + 0x80)).toNat - 0x80)) * 64
            + ((UInt8.ofNat (c.toNat / 64 % 0x40 + 0x80)).toNat - 0x80)) * 64
            + ((UInt8.ofNat (c.toNat % 0x40 + 0x80)).toNat - 0x80) = c.toNat := by
          rw [hmore, hmore', hlast]
          omega
        rw [List.cons_append, List.cons_append, List.cons_append, List.cons_append, List.nil_append,
          lossy_lead (by omega) hp, lossy_more (by simp only; split_ifs <;> omega) (by simp),
          lossy_more (by simp only; omega) (by simp), lossy_last (by simp only; omega) rfl, hchar,
          Char.ofNat_toNat]

/-- What is UTF-8 is read as it is. -/
lemma lossy_utf8 : fromUtf8Lossy none (utf8 s) = s := by
  induction s with
  | nil => rfl
  | cons c s ih =>
    show fromUtf8Lossy none (String.utf8EncodeChar c ++ utf8 s) = c :: s
    rw [lossy_char, ih]

end

end Waf
