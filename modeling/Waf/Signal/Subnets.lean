import Waf.Signal.Tracker
import Waf.Token.Bic

/-!
# Subnets

The subnet counters and the BIC cookies each have a notion of the subnet of an address. `subnet_key` packs
the `/24` or the `/64` into a word of 128 bits and marks the family by the highest one, `subnet_marker`
writes it in hexadecimal behind the digit of the family. `subnets_agree` says that they are the same
notion.
-/

namespace Waf
open Lib

namespace Subnet

/-- `subnet_key` with the shifts of the source. `toNat_subnetKeyBits` says that the counters use the number
of this word. -/
def subnetKeyBits : IpAddr → BitVec 128
  | .v4 a =>
    let octet : Nat → BitVec 32 := fun i => (a.octets.toList.getD i 0).toBitVec.setWidth 32
    let prefix24 := octet 0 <<< 16 ||| octet 1 <<< 8 ||| octet 2
    prefix24.setWidth 128 ||| 1#128 <<< 127
  | .v6 a =>
    (a.segments.toList.take 4).foldl (fun acc s => acc <<< 16 ||| s.toBitVec.setWidth 128) 0#128

/-- Bit `i` of a number of `w` bits, counted from the highest one. -/
def leadingBit (w n i : Nat) : Bool := n.testBit (w - 1 - i)

/-- The same family, and the same first 24 bits for IPv4 or 64 bits for IPv6. -/
def SameBits : IpAddr → IpAddr → Prop
  | .v4 a, .v4 b => ∀ i < 24, leadingBit 32 a.toBits i = leadingBit 32 b.toBits i
  | .v6 a, .v6 b => ∀ i < 64, leadingBit 128 a.toBits i = leadingBit 128 b.toBits i
  | _, _ => False

/-! ## Words -/

section

variable {w k m n : Nat} {x y : BitVec w}

lemma toNat_shiftLeft_of_lt (h : x.toNat * 2 ^ k < 2 ^ w) : (x <<< k).toNat = x.toNat * 2 ^ k := by
  rw [BitVec.toNat_shiftLeft, Nat.shiftLeft_eq, Nat.mod_eq_of_lt h]

/-- Words with no bit in common add up. -/
lemma toNat_or_of_dvd (hx : 2 ^ k ∣ x.toNat) (hy : y.toNat < 2 ^ k) :
    (x ||| y).toNat = x.toNat + y.toNat := by
  obtain ⟨n, hn⟩ := hx
  rw [BitVec.toNat_or, hn, Nat.two_pow_add_eq_or_of_lt hy]

/-- A shift and an or put two numbers side by side. -/
lemma toNat_shiftLeft_or (hx : x.toNat * 2 ^ k < 2 ^ w) (hy : y.toNat < 2 ^ k) :
    (x <<< k ||| y).toNat = x.toNat * 2 ^ k + y.toNat := by
  have hshift := toNat_shiftLeft_of_lt hx
  have hdvd : 2 ^ k ∣ (x <<< k).toNat := hshift ▸ Nat.dvd_mul_left ..
  rw [toNat_or_of_dvd hdvd hy, hshift]

/-- The first bits of two numbers are those of their quotients. -/
lemma leadingBits_iff (hk : k ≤ w) (hm : m < 2 ^ w) (hn : n < 2 ^ w) :
    (∀ i < k, leadingBit w m i = leadingBit w n i) ↔ m / 2 ^ (w - k) = n / 2 ^ (w - k) := by
  constructor
  · intro h
    refine Nat.eq_of_testBit_eq fun j => ?_
    rw [Nat.testBit_div_two_pow, Nat.testBit_div_two_pow]
    by_cases hj : j < k
    case pos =>
      have hbit := h (k - 1 - j) (by omega)
      have hindex : w - 1 - (k - 1 - j) = j + (w - k) := by omega
      rwa [leadingBit, leadingBit, hindex] at hbit
    case neg =>
      have hpow : 2 ^ w ≤ 2 ^ (j + (w - k)) := Nat.pow_le_pow_right Nat.two_pos (by omega)
      rw [Nat.testBit_lt_two_pow (hm.trans_le hpow),
        Nat.testBit_lt_two_pow (hn.trans_le hpow)]
  · intro h i hi
    have hbit := congrArg (Nat.testBit · (k - 1 - i)) h
    have hindex : k - 1 - i + (w - k) = w - 1 - i := by omega
    simp only [Nat.testBit_div_two_pow, hindex] at hbit
    exact hbit

end

/-! ## Keys -/

/-- An IPv4 address is four bytes. -/
lemma eq_new (a : Ipv4Addr) : ∃ o0 o1 o2 o3, a = .new o0 o1 o2 o3 := by
  obtain ⟨⟨⟨l⟩, hl⟩⟩ := a
  match l, hl with
  | [o0, o1, o2, o3], _ => exact ⟨o0, o1, o2, o3, rfl⟩

/-- An IPv6 address is eight segments. -/
lemma eq_segments (a : Ipv6Addr) :
    ∃ s0 s1 s2 s3 s4 s5 s6 s7, a = ⟨#v[s0, s1, s2, s3, s4, s5, s6, s7]⟩ := by
  obtain ⟨⟨⟨l⟩, hl⟩⟩ := a
  match l, hl with
  | [s0, s1, s2, s3, s4, s5, s6, s7], _ => exact ⟨s0, s1, s2, s3, s4, s5, s6, s7, rfl⟩

/-- Widening a byte keeps its number. -/
lemma toNat_octet {o : UInt8} : (o.toBitVec.setWidth 32).toNat = o.toNat := by
  rw [BitVec.toNat_setWidth]
  exact Nat.mod_eq_of_lt (o.toNat_lt.trans (by decide))

lemma toNat_segment {s : UInt16} : (s.toBitVec.setWidth 128).toNat = s.toNat := by
  rw [BitVec.toNat_setWidth]
  exact Nat.mod_eq_of_lt (s.toNat_lt.trans (by decide))

/-- Three octets in 32 bits. -/
lemma toNat_octets {o0 o1 o2 : UInt8} :
    (o0.toBitVec.setWidth 32 <<< 16 ||| o1.toBitVec.setWidth 32 <<< 8
      ||| o2.toBitVec.setWidth 32).toNat = o0.toNat * 2 ^ 16 + o1.toNat * 2 ^ 8 + o2.toNat := by
  have h0 := o0.toNat_lt
  have h1 := o1.toNat_lt
  have h2 := o2.toNat_lt
  have hmiddle : (o1.toBitVec.setWidth 32 <<< 8).toNat = o1.toNat * 2 ^ 8 := by
    rw [toNat_shiftLeft_of_lt, toNat_octet]
    rw [toNat_octet]
    omega
  have hhigh : (o0.toBitVec.setWidth 32 <<< 16 ||| o1.toBitVec.setWidth 32 <<< 8).toNat
      = o0.toNat * 2 ^ 16 + o1.toNat * 2 ^ 8 := by
    rw [toNat_shiftLeft_or, toNat_octet, hmiddle]
    · rw [toNat_octet]
      omega
    · rw [hmiddle]
      omega
  rw [toNat_or_of_dvd (k := 8), hhigh, toNat_octet]
  · rw [hhigh]
    omega
  · rw [toNat_octet]
    omega

/-- One more segment behind those that are packed. -/
lemma toNat_pack {acc : BitVec 128} {s : UInt16} (hacc : acc.toNat < 2 ^ 112) :
    (acc <<< 16 ||| s.toBitVec.setWidth 128).toNat = acc.toNat * 2 ^ 16 + s.toNat := by
  have hs := s.toNat_lt
  rw [toNat_shiftLeft_or, toNat_segment]
  · omega
  · rw [toNat_segment]
    exact hs

/-- Up to eight segments fit. -/
lemma toNat_packs {ss : List UInt16} {acc : BitVec 128} {j : Nat} (hacc : acc.toNat < 2 ^ (16 * j))
    (hj : j + ss.length ≤ 8) :
    (ss.foldl (fun (acc : BitVec 128) s => acc <<< 16 ||| s.toBitVec.setWidth 128) acc).toNat
      = ss.foldl (fun acc s => acc * 2 ^ 16 + s.toNat) acc.toNat := by
  induction ss generalizing acc j with
  | nil => rfl
  | cons s ss ih =>
    rw [List.length_cons] at hj
    have hfits : acc.toNat < 2 ^ 112 :=
      hacc.trans_le (Nat.pow_le_pow_right Nat.two_pos (by omega))
    have hpack := toNat_pack (s := s) hfits
    have hnext : (acc <<< 16 ||| s.toBitVec.setWidth 128).toNat < 2 ^ (16 * (j + 1)) := by
      have hs := s.toNat_lt
      have hpow : 2 ^ (16 * (j + 1)) = 2 ^ (16 * j) * 2 ^ 16 := by
        rw [Nat.mul_succ, Nat.pow_add]
      rw [hpack, hpow]
      omega
    rw [List.foldl_cons, List.foldl_cons, ih hnext (by omega), hpack]

/-- The counters use the number of the word. -/
theorem toNat_subnetKeyBits {ip : IpAddr} : (subnetKeyBits ip).toNat = subnetKey ip := by
  cases ip with
  | v4 a =>
    obtain ⟨o0, o1, o2, o3, rfl⟩ := eq_new a
    have h0 := o0.toNat_lt
    have h1 := o1.toNat_lt
    have h2 := o2.toNat_lt
    have hfamily : (1#128 <<< 127).toNat = 2 ^ 127 := by decide
    show ((o0.toBitVec.setWidth 32 <<< 16 ||| o1.toBitVec.setWidth 32 <<< 8
      ||| o2.toBitVec.setWidth 32).setWidth 128 ||| 1#128 <<< 127).toNat
        = ((0 * 2 ^ 8 + o0.toNat) * 2 ^ 8 + o1.toNat) * 2 ^ 8 + o2.toNat + 2 ^ 127
    have hwide : ((o0.toBitVec.setWidth 32 <<< 16 ||| o1.toBitVec.setWidth 32 <<< 8
        ||| o2.toBitVec.setWidth 32).setWidth 128).toNat
          = o0.toNat * 2 ^ 16 + o1.toNat * 2 ^ 8 + o2.toNat := by
      rw [BitVec.toNat_setWidth, toNat_octets]
      omega
    rw [BitVec.or_comm, toNat_or_of_dvd (k := 127), hfamily, hwide]
    · omega
    · rw [hfamily]
    · rw [hwide]
      omega
  | v6 a =>
    refine toNat_packs (j := 0) (by decide) ?_
    rw [List.length_take, Nat.zero_add]
    exact (min_le_left 4 _).trans (by decide)

/-- The key of an IPv4 address is its first 24 bits, marked. -/
lemma subnetKey_v4 {a : Ipv4Addr} : subnetKey (.v4 a) = a.toBits / 2 ^ (32 - 24) + 2 ^ 127 := by
  obtain ⟨o0, o1, o2, o3, rfl⟩ := eq_new a
  have h3 := o3.toNat_lt
  show ((0 * 2 ^ 8 + o0.toNat) * 2 ^ 8 + o1.toNat) * 2 ^ 8 + o2.toNat + 2 ^ 127
    = ((((0 * 256 + o0.toNat) * 256 + o1.toNat) * 256 + o2.toNat) * 256 + o3.toNat) / 2 ^ 8 + 2 ^ 127
  omega

/-- The key of an IPv6 address is its first 64 bits. -/
lemma subnetKey_v6 {a : Ipv6Addr} : subnetKey (.v6 a) = a.toBits / 2 ^ (128 - 64) := by
  obtain ⟨s0, s1, s2, s3, s4, s5, s6, s7, rfl⟩ := eq_segments a
  have h4 := s4.toNat_lt
  have h5 := s5.toNat_lt
  have h6 := s6.toNat_lt
  have h7 := s7.toNat_lt
  show (((0 * 2 ^ 16 + s0.toNat) * 2 ^ 16 + s1.toNat) * 2 ^ 16 + s2.toNat) * 2 ^ 16 + s3.toNat
    = ((((((((0 * 65536 + s0.toNat) * 65536 + s1.toNat) * 65536 + s2.toNat) * 65536 + s3.toNat)
      * 65536 + s4.toNat) * 65536 + s5.toNat) * 65536 + s6.toNat) * 65536 + s7.toNat) / 2 ^ 64
  omega

lemma fold_lt {α : Type} {f : α → Nat} {base acc j : Nat} (hf : ∀ x, f x < base) {l : List α}
    (hacc : acc < base ^ j) : l.foldl (fun n x => n * base + f x) acc < base ^ (j + l.length) := by
  induction l generalizing acc j with
  | nil => exact hacc
  | cons x l ih =>
    have hnext : acc * base + f x < base ^ (j + 1) := by
      have hstep : (acc + 1) * base ≤ base ^ j * base := Nat.mul_le_mul_right base hacc
      have hx := hf x
      rw [Nat.pow_succ]
      rw [Nat.succ_mul] at hstep
      omega
    have hrest := ih hnext
    rw [Nat.add_right_comm] at hrest
    exact hrest

lemma toBits_v4_lt {a : Ipv4Addr} : a.toBits < 2 ^ 32 := by
  have h := fold_lt (f := UInt8.toNat) (l := a.octets.toList) UInt8.toNat_lt (by decide : 0 < 256 ^ 0)
  rw [Vector.length_toList] at h
  exact h

lemma toBits_v6_lt {a : Ipv6Addr} : a.toBits < 2 ^ 128 := by
  have h := fold_lt (f := UInt16.toNat) (l := a.segments.toList) UInt16.toNat_lt
    (by decide : 0 < 65536 ^ 0)
  rw [Vector.length_toList] at h
  exact h

/-- The keys of the families differ in the highest bit. -/
lemma subnetKey_v4_ne_v6 {a : Ipv4Addr} {b : Ipv6Addr} : subnetKey (.v4 a) ≠ subnetKey (.v6 b) := by
  have hb := @toBits_v6_lt b
  rw [subnetKey_v4, subnetKey_v6]
  omega

/-- Two addresses have one key exactly when they share the subnet. -/
lemma subnetKey_iff {a b : IpAddr} : subnetKey a = subnetKey b ↔ SameSubnet a b := by
  cases a with
  | v4 a =>
    cases b with
    | v4 b =>
      obtain ⟨o0, o1, o2, o3, rfl⟩ := eq_new a
      obtain ⟨p0, p1, p2, p3, rfl⟩ := eq_new b
      show ((0 * 2 ^ 8 + o0.toNat) * 2 ^ 8 + o1.toNat) * 2 ^ 8 + o2.toNat + 2 ^ 127
          = ((0 * 2 ^ 8 + p0.toNat) * 2 ^ 8 + p1.toNat) * 2 ^ 8 + p2.toNat + 2 ^ 127
        ↔ o0 = p0 ∧ o1 = p1 ∧ o2 = p2
      have h1 := o1.toNat_lt
      have h2 := o2.toNat_lt
      have k1 := p1.toNat_lt
      have k2 := p2.toNat_lt
      rw [← UInt8.toNat_inj, ← UInt8.toNat_inj, ← UInt8.toNat_inj]
      omega
    | v6 b => exact ⟨fun h => absurd h subnetKey_v4_ne_v6, False.elim⟩
  | v6 a =>
    cases b with
    | v4 b => exact ⟨fun h => absurd h.symm subnetKey_v4_ne_v6, False.elim⟩
    | v6 b =>
      obtain ⟨s0, s1, s2, s3, s4, s5, s6, s7, rfl⟩ := eq_segments a
      obtain ⟨t0, t1, t2, t3, t4, t5, t6, t7, rfl⟩ := eq_segments b
      show (((0 * 2 ^ 16 + s0.toNat) * 2 ^ 16 + s1.toNat) * 2 ^ 16 + s2.toNat) * 2 ^ 16 + s3.toNat
          = (((0 * 2 ^ 16 + t0.toNat) * 2 ^ 16 + t1.toNat) * 2 ^ 16 + t2.toNat) * 2 ^ 16 + t3.toNat
        ↔ s0 = t0 ∧ s1 = t1 ∧ s2 = t2 ∧ s3 = t3
      have h1 := s1.toNat_lt
      have h2 := s2.toNat_lt
      have h3 := s3.toNat_lt
      have k1 := t1.toNat_lt
      have k2 := t2.toNat_lt
      have k3 := t3.toNat_lt
      rw [← UInt16.toNat_inj, ← UInt16.toNat_inj, ← UInt16.toNat_inj, ← UInt16.toNat_inj]
      omega

/-- Two addresses have one key exactly when they agree in their first bits. -/
lemma subnetKey_iff_bits {a b : IpAddr} : subnetKey a = subnetKey b ↔ SameBits a b := by
  cases a with
  | v4 a =>
    cases b with
    | v4 b =>
      rw [subnetKey_v4, subnetKey_v4, Nat.add_right_cancel_iff]
      exact (leadingBits_iff (by decide) toBits_v4_lt toBits_v4_lt).symm
    | v6 b => exact ⟨fun h => absurd h subnetKey_v4_ne_v6, False.elim⟩
  | v6 a =>
    cases b with
    | v4 b => exact ⟨fun h => absurd h.symm subnetKey_v4_ne_v6, False.elim⟩
    | v6 b =>
      rw [subnetKey_v6, subnetKey_v6]
      exact (leadingBits_iff (by decide) toBits_v6_lt toBits_v6_lt).symm

/-- Keys in machine words are the same iff the keys are. -/
lemma subnetKeyBits_iff {a b : IpAddr} :
    subnetKeyBits a = subnetKeyBits b ↔ subnetKey a = subnetKey b := by
  rw [← toNat_subnetKeyBits, ← toNat_subnetKeyBits, BitVec.toNat_inj]

/-- The key and the marker make the same subnets: those of the first 24 or 64 bits of each family. -/
theorem subnets_agree :
    (∀ a b : IpAddr, (subnetKeyBits a = subnetKeyBits b ↔ subnetMarker a = subnetMarker b)
        ∧ (subnetKeyBits a = subnetKeyBits b ↔ SameBits a b)
        ∧ (subnetMarker a = subnetMarker b ↔ SameBits a b))
      ∧ ∀ (a : Ipv4Addr) (b : Ipv6Addr), subnetKeyBits (.v4 a) ≠ subnetKeyBits (.v6 b) := by
  refine ⟨fun a b => ?_, fun a b h => subnetKey_v4_ne_v6 (subnetKeyBits_iff.mp h)⟩
  have hmarker : subnetKeyBits a = subnetKeyBits b ↔ subnetMarker a = subnetMarker b := by
    rw [subnetKeyBits_iff, subnetKey_iff, subnetMarker_iff]
  have hbits : subnetKeyBits a = subnetKeyBits b ↔ SameBits a b :=
    subnetKeyBits_iff.trans subnetKey_iff_bits
  exact ⟨hmarker, hbits, hmarker.symm.trans hbits⟩

end Subnet

end Waf
