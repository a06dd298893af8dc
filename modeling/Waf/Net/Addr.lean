import Mathlib.Data.List.TakeWhile
import Waf.Lib.Text

/-!
# IP addresses and networks

`std::net::IpAddr` with its text form in both directions, and `ipnet::IpNet`. The reader follows the
recursive-descent parser of the standard library: decimal octets without leading zeros, groups of at
most four hexadecimal digits, one `::`, and an embedded IPv4 tail.

`IpAddr.parse_chars` says that an accepted text consists of hexadecimal digits, colons and dots, so
no separator or blank of a header list can hide inside it.
-/

namespace Waf
open Lib

structure Ipv4Addr where
  octets : Vector UInt8 4
  deriving DecidableEq

structure Ipv6Addr where
  segments : Vector UInt16 8
  deriving DecidableEq

inductive IpAddr where
  | v4 (a : Ipv4Addr)
  | v6 (a : Ipv6Addr)
  deriving DecidableEq

namespace Ipv4Addr

def new (a b c d : UInt8) : Ipv4Addr := ⟨#v[a, b, c, d]⟩

/-- The address as a number of 32 bits. -/
def toBits (a : Ipv4Addr) : Nat := a.octets.toList.foldl (fun n o => n * 256 + o.toNat) 0

/-- `Display`. -/
def toStr (a : Ipv4Addr) : Str := ['.'].intercalate (a.octets.toList.map fun o => dec o.toNat)

end Ipv4Addr

namespace Ipv6Addr

/-- The address as a number of 128 bits. -/
def toBits (a : Ipv6Addr) : Nat := a.segments.toList.foldl (fun n s => n * 65536 + s.toNat) 0

def toIpv4Mapped (a : Ipv6Addr) : Option Ipv4Addr :=
  match a.segments.toList with
  | [0, 0, 0, 0, 0, 0xFFFF, ab, cd] =>
    some (.new (ab / 256).toUInt8 ab.toUInt8 (cd / 256).toUInt8 cd.toUInt8)
  | _ => none

/-- A run of segments. -/
structure Span where
  start : Nat := 0
  len : Nat := 0

/-- The first longest run of zero segments: the fold carries the longest and the current run. -/
def zeroes (a : Ipv6Addr) : Span :=
  let step := fun (runs : Span × Span) (segment : UInt16 × Nat) =>
    if segment.1 = 0 then
      let current : Span :=
        ⟨if runs.2.len = 0 then segment.2 else runs.2.start, runs.2.len + 1⟩
      (if runs.1.len < current.len then current else runs.1, current)
    else (runs.1, {})
  (a.segments.toList.zipIdx.foldl step ({}, {})).1

/-- Segments in hexadecimal, separated by colons. -/
def fmtSubslice (chunk : List UInt16) : Str :=
  [':'].intercalate (chunk.map fun s => Nat.toDigits 16 s.toNat)

/-- `Display`. -/
def toStr (a : Ipv6Addr) : Str :=
  match a.toIpv4Mapped with
  | some v4 => "::ffff:" ++ v4.toStr
  | none =>
    let z := a.zeroes
    let segments := a.segments.toList
    if 1 < z.len then
      fmtSubslice (segments.take z.start) ++ "::" ++ fmtSubslice (segments.drop (z.start + z.len))
    else fmtSubslice segments

end Ipv6Addr

namespace IpAddr

def isIpv4 : IpAddr → Bool
  | v4 _ => true
  | v6 _ => false

/-- `Display`. -/
def toStr : IpAddr → Str
  | v4 a => a.toStr
  | v6 a => a.toStr

/-- The number of bits of an address of this family. -/
def width : IpAddr → Nat
  | v4 _ => 32
  | v6 _ => 128

end IpAddr

/-! ## Reading an address -/

/-- A reader takes a value off the front of a text; a failed reader leaves the text alone. -/
abbrev Reader (α : Type) := StateT Str Option α

def readGivenChar (c : Char) : Reader Unit := fun s =>
  match s with
  | x :: rest => if x = c then some ((), rest) else none
  | [] => none

/-- The value of a hexadecimal digit, and 16 for any other character. -/
def digitValue (c : Char) : Nat :=
  if c.isDigit then c.toNat - 48
  else if 97 ≤ c.toNat ∧ c.toNat ≤ 102 then c.toNat - 87
  else if 65 ≤ c.toNat ∧ c.toNat ≤ 70 then c.toNat - 55
  else 16

/-- Is `c` a digit in a radix of at most 16 (`char::to_digit`)? -/
def isDigitOf (radix : Nat) (c : Char) : Bool := digitValue c < radix

/-- `read_number`: the longest run of digits, of at most `maxDigits`, below `bound`. -/
def readNumber (radix maxDigits : Nat) (allowZeroPrefix : Bool) (bound : Nat) : Reader Nat :=
  fun s =>
    let digits := s.takeWhile (isDigitOf radix)
    let value := digits.foldl (fun n c => n * radix + digitValue c) 0
    if digits.length = 0 ∨ maxDigits < digits.length ∨ bound ≤ value then none
    else if !allowZeroPrefix && digits.head? == some '0' && 1 < digits.length then none
    else some (value, s.dropWhile (isDigitOf radix))

/-- `read_separator`: every item but the first is preceded by a separator. -/
def readSeparator {α : Type} (sep : Char) (index : Nat) (inner : Reader α) : Reader α := do
  if 0 < index then readGivenChar sep
  inner

def readIpv4Addr : Reader Ipv4Addr := do
  let octet := fun i => readSeparator '.' i (readNumber 10 3 false 256)
  let a ← octet 0
  let b ← octet 1
  let c ← octet 2
  let d ← octet 3
  return .new (.ofNat a) (.ofNat b) (.ofNat c) (.ofNat d)

/-- `read_groups` from the group with number `i` on, `left` being the number of groups that are left.
The flag says that the last two groups were read from an embedded IPv4 address. -/
def readGroups : (left i : Nat) → Str → (List UInt16 × Bool) × Str
  | 0, _, s => (([], false), s)
  | left + 1, i, s =>
    match (if 0 < left then readSeparator ':' i readIpv4Addr s else none) with
    | some (a, rest) =>
      let pair := fun (hi lo : UInt8) => UInt16.ofNat (hi.toNat * 256 + lo.toNat)
      (([pair a.octets[0] a.octets[1], pair a.octets[2] a.octets[3]], true), rest)
    | none =>
      match readSeparator ':' i (readNumber 16 4 true 65536) s with
      | some (g, rest) =>
        let (gs, rest) := readGroups left (i + 1) rest
        ((.ofNat g :: gs.1, gs.2), rest)
      | none => (([], false), s)

def readIpv6Addr : Reader Ipv6Addr := fun s =>
  let (head, rest) := readGroups 8 0 s
  if head.1.length = 8 then some (⟨.ofFn fun i => head.1.getD i 0⟩, rest)
  else if head.2 then none
  else do
    let ((), rest) ← readGivenChar ':' rest
    let ((), rest) ← readGivenChar ':' rest
    let (tail, rest) := readGroups (8 - (head.1.length + 1)) 0 rest
    let fill := List.replicate (8 - head.1.length - tail.1.length) (0 : UInt16)
    some (⟨.ofFn fun i => (head.1 ++ fill ++ tail.1).getD i 0⟩, rest)

/-- `IpAddr::from_str`. -/
def IpAddr.parse (s : Str) : Option IpAddr :=
  let read := (readIpv4Addr s).map (fun p => (IpAddr.v4 p.1, p.2))
    <|> (readIpv6Addr s).map (fun p => (IpAddr.v6 p.1, p.2))
  match read with
  | some (a, []) => some a
  | _ => none

/-- The characters of a written address. -/
def isAddrChar (c : Char) : Bool := isDigitOf 16 c || c == ':' || c == '.'

/-- What is left is the text less a prefix made of address characters. -/
def Leaves (s rest : Str) : Prop := ∃ t, s = t ++ rest ∧ ∀ c ∈ t, isAddrChar c = true

lemma Leaves.refl {s} : Leaves s s := ⟨[], rfl, nofun⟩

lemma Leaves.trans {s t u} (h : Leaves s t) (h' : Leaves t u) : Leaves s u := by
  obtain ⟨a, rfl, ha⟩ := h
  obtain ⟨b, rfl, hb⟩ := h'
  refine ⟨a ++ b, by simp, ?_⟩
  intro c hc
  rcases List.mem_append.mp hc with hc | hc
  · exact ha c hc
  · exact hb c hc

/-- A reader that consumes address characters only. -/
def Consumes {α : Type} (p : Reader α) : Prop := ∀ s a rest, p s = some (a, rest) → Leaves s rest

/-- One reader after the other. -/
lemma Consumes.bind {α β : Type} {p : Reader α} {k : α → Reader β} (hp : Consumes p)
    (hk : ∀ a, Consumes (k a)) : Consumes (p >>= k) := by
  intro s b rest h
  obtain ⟨⟨a, mid⟩, hs, hm⟩ := Option.bind_eq_some_iff.mp h
  exact (hp s a mid hs).trans (hk a mid b rest hm)

/-- A value without reading. -/
lemma Consumes.pure {α : Type} {a : α} : Consumes (Pure.pure a : Reader α) := by
  intro s b rest h
  cases h
  exact .refl

lemma consumes_givenChar {c} (hc : isAddrChar c = true) : Consumes (readGivenChar c) := by
  intro s a rest h
  unfold readGivenChar at h
  split at h
  case h_1 x xs =>
    split at h
    case isTrue e =>
      cases h
      exact ⟨[x], rfl, by simpa [e] using hc⟩
    case isFalse => cases h
  case h_2 => cases h

/-- A digit in a smaller radix is a hexadecimal digit. -/
lemma isDigitOf_mono {m n c} (hmn : m ≤ n) (h : isDigitOf m c = true) : isDigitOf n c = true := by
  simp only [isDigitOf, decide_eq_true_eq] at h ⊢
  exact lt_of_lt_of_le h hmn

lemma consumes_number {radix maxDigits allow bound} (hr : radix ≤ 16) :
    Consumes (readNumber radix maxDigits allow bound) := by
  intro s a rest h
  simp only [readNumber] at h
  split_ifs at h
  cases h
  refine ⟨s.takeWhile (isDigitOf radix), List.takeWhile_append_dropWhile.symm, ?_⟩
  intro c hc
  simp [isAddrChar, isDigitOf_mono hr (List.mem_takeWhile_imp hc)]

lemma consumes_separator {α : Type} {sep i} {p : Reader α} (hs : isAddrChar sep = true)
    (hp : Consumes p) : Consumes (readSeparator sep i p) := by
  unfold readSeparator
  split
  case isTrue => exact (consumes_givenChar hs).bind fun _ => hp
  case isFalse => exact (Consumes.pure (a := ())).bind fun _ => hp

lemma consumes_ipv4 : Consumes readIpv4Addr := by
  have octet : ∀ i, Consumes (readSeparator '.' i (readNumber 10 3 false 256)) :=
    fun i => consumes_separator (by decide) (consumes_number (by decide))
  exact (octet 0).bind fun _ => (octet 1).bind fun _ => (octet 2).bind fun _ =>
    (octet 3).bind fun _ => .pure

/-- Groups are read from characters of addresses. -/
lemma leaves_groups {left i s} : Leaves s (readGroups left i s).2 := by
  induction left generalizing i s with
  | zero => exact .refl
  | succ left ih =>
    unfold readGroups
    split
    case h_1 a rest h =>
      split_ifs at h
      exact consumes_separator (by decide) consumes_ipv4 _ _ _ h
    case h_2 =>
      split
      case h_1 g rest h =>
        exact (consumes_separator (by decide) (consumes_number (by decide)) _ _ _ h).trans ih
      case h_2 => exact .refl

lemma consumes_ipv6 : Consumes readIpv6Addr := by
  intro s a rest h
  simp only [readIpv6Addr] at h
  split_ifs at h
  · cases h
    exact leaves_groups
  · obtain ⟨⟨_, r1⟩, h1, h⟩ := Option.bind_eq_some_iff.mp h
    obtain ⟨⟨_, r2⟩, h2, h⟩ := Option.bind_eq_some_iff.mp h
    cases h
    have c1 := consumes_givenChar (by decide) _ _ _ h1
    have c2 := consumes_givenChar (by decide) _ _ _ h2
    exact leaves_groups.trans (c1.trans (c2.trans leaves_groups))

/-- An accepted address is made of hexadecimal digits, colons and dots. -/
theorem IpAddr.parse_chars {s a} (h : IpAddr.parse s = some a) : ∀ c ∈ s, isAddrChar c = true := by
  unfold IpAddr.parse at h
  simp only at h
  split at h
  case h_1 b e =>
    have key : Leaves s [] := by
      rw [Option.orElse_eq_orElse, Option.orElse_eq_or] at e
      rcases Option.or_eq_some_iff.mp e with e | ⟨-, e⟩
      · obtain ⟨⟨x, r⟩, hr, he⟩ := Option.map_eq_some_iff.mp e
        cases he
        exact consumes_ipv4 s x [] hr
      · obtain ⟨⟨x, r⟩, hr, he⟩ := Option.map_eq_some_iff.mp e
        cases he
        exact consumes_ipv6 s x [] hr
    obtain ⟨t, rfl, ht⟩ := key
    simpa using ht
  case h_2 => cases h

/-! ## Networks -/

/-- `ipnet::IpNet`: an address and a prefix length that its family allows. -/
structure IpNet where
  addr : IpAddr
  prefixLen : Nat
  valid : prefixLen ≤ addr.width
  deriving DecidableEq

namespace IpNet

def new (ip : IpAddr) (prefixLen : Nat) : Option IpNet :=
  if h : prefixLen ≤ ip.width then some ⟨ip, prefixLen, h⟩ else none

/-- `Display`: the address and the prefix length. -/
def toStr (n : IpNet) : Str := n.addr.toStr ++ '/' :: dec n.prefixLen

/-- `IpNet::contains`: an address of the same family that agrees on the prefix. -/
def contains (n : IpNet) (ip : IpAddr) : Bool :=
  match n.addr, ip with
  | .v4 a, .v4 b => a.toBits / 2 ^ (32 - n.prefixLen) == b.toBits / 2 ^ (32 - n.prefixLen)
  | .v6 a, .v6 b => a.toBits / 2 ^ (128 - n.prefixLen) == b.toBits / 2 ^ (128 - n.prefixLen)
  | _, _ => false

end IpNet

/-- Is the address in one of the networks? -/
def inNets (nets : List IpNet) (ip : IpAddr) : Bool := nets.any fun n => n.contains ip

/-- `parse_net`, in `reputation.rs` and in `runtime.rs`: a bare address stands for itself alone.
`fromStr` is the parser of the `ipnet` crate for addresses with a prefix length. -/
def parseNet (fromStr : Str → Option IpNet) (s : Str) : Option IpNet :=
  match IpAddr.parse s with
  | some ip => IpNet.new ip (if ip.isIpv4 then 32 else 128)
  | none => fromStr s

end Waf
