import Waf.Token.Challenge

/-!
# Browser integrity cookies

Model of the signing side of `bic.rs`. The cookie carries an expiry and a marker of the subnet it was
minted for, the first three octets of an IPv4 address or the first four segments of an IPv6 one.
`subnetMarker_iff` says that two addresses have one marker exactly when they share the subnet.
-/

namespace Waf
open Lib

def BIC_COOKIE_NAME : Str := "__2t1_bic"

structure Bic where
  secret : Str

/-- `bic::Token`. -/
structure BicToken where
  challenge : Str
  expiresAt : Nat
  signature : Str

inductive BicError where
  | badFormat
  | expired
  | badSig
  | badProof
  deriving DecidableEq

def subnetMarker : IpAddr → Str
  | .v4 a =>
    let o := a.octets
    '4' :: (hex 2 (o.get 0).toNat ++ (hex 2 (o.get 1).toNat ++ hex 2 (o.get 2).toNat))
  | .v6 a =>
    let s := a.segments
    '6' :: (hex 4 (s.get 0).toNat ++ (hex 4 (s.get 1).toNat ++ (hex 4 (s.get 2).toNat
      ++ hex 4 (s.get 3).toNat)))

/-- The payload of a BIC cookie. -/
def bicPayload (exp : Nat) (subnet : Str) : Str := ("bic" ++ '|' :: dec exp) ++ '|' :: subnet

namespace Bic

def COOKIE_TTL_SECS : Nat := 1800
def TOKEN_TTL_SECS : Nat := 60

def new (secret : Str) : Bic := ⟨secret⟩

/-- `Bic::issue` with the random bytes `chal`. -/
def issue (crates : Crates) (b : Bic) (now : Nat) (chal : Vector UInt8 12) : BicToken :=
  let expiresAt := (now + TOKEN_TTL_SECS) % 2 ^ 64
  let challenge := hexEncode chal.toList
  ⟨challenge, expiresAt, sign crates b.secret challenge expiresAt⟩

/-- The proof that belongs to a challenge. -/
def wantedProof (crates : Crates) (challenge : Str) : Str :=
  hexEncode ((crates.sha256 (utf8 challenge ++ utf8 "2t1bic")).toList.take 8)

def verifyProof (crates : Crates) (b : Bic) (now : Nat) (challenge : Str) (exp : Nat)
    (sig proof : Str) : Except BicError Unit :=
  if exp < now then .error .expired
  else if !ctEq (utf8 (sign crates b.secret challenge exp)) (utf8 sig) then .error .badSig
  else if !ctEq (utf8 (wantedProof crates challenge)) (utf8 proof) then .error .badProof
  else .ok ()

def mint (crates : Crates) (b : Bic) (now : Nat) (ip : IpAddr) : Str × Str :=
  let exp := (now + COOKIE_TTL_SECS) % 2 ^ 64
  let subnet := subnetMarker ip
  (BIC_COOKIE_NAME, dec exp ++ '.' :: (subnet ++ '.' :: crates.hmac b.secret (bicPayload exp subnet)))

/-- `Bic::verify_cookie`; the value is split at its first two dots. -/
def verifyCookie (crates : Crates) (b : Bic) (now : Nat) (value : Str) (ip : IpAddr) : Bool :=
  match splitOnce '.' value with
  | none => false
  | some (expS, rest) =>
    match splitOnce '.' rest with
    | none => false
    | some (subnet, sig) =>
      match parseU64 expS with
      | none => false
      | some exp =>
        if exp ≤ now then false
        else if subnet ≠ subnetMarker ip then false
        else ctEq (utf8 (crates.hmac b.secret (bicPayload exp subnet))) (utf8 sig)

/-- A proof passes when it is in time, its signature is that of its pair, and it is the one wanted. -/
lemma verifyProof_iff {crates : Crates} {b : Bic} {now challenge exp sig proof} :
    b.verifyProof crates now challenge exp sig proof = .ok ()
      ↔ now ≤ exp ∧ sign crates b.secret challenge exp = sig
        ∧ wantedProof crates challenge = proof := by
  unfold verifyProof
  rw [Challenger.checks_ok_iff, ctEq_utf8, ctEq_utf8]

/-- A cookie passes when its expiry lies ahead, its marker is that of the address, and its signature
is that of both. -/
lemma verifyCookie_iff {crates : Crates} {b : Bic} {now value ip} :
    b.verifyCookie crates now value ip = true
      ↔ ∃ expS rest sig exp, splitOnce '.' value = some (expS, rest)
        ∧ splitOnce '.' rest = some (subnetMarker ip, sig) ∧ parseU64 expS = some exp ∧ now < exp
        ∧ crates.hmac b.secret (bicPayload exp (subnetMarker ip)) = sig := by
  unfold verifyCookie
  constructor
  · intro h
    split at h
    case h_1 => cases h
    case h_2 expS rest hv =>
      split at h
      case h_1 => cases h
      case h_2 subnet sig hr =>
        split at h
        case h_1 => cases h
        case h_2 exp he =>
          split at h
          case isTrue => cases h
          case isFalse hlt =>
            split at h
            case isTrue => cases h
            case isFalse hm =>
              obtain rfl : subnet = subnetMarker ip := by simpa using hm
              exact ⟨expS, rest, sig, exp, hv, hr, he, by omega, ctEq_utf8.mp h⟩
  · rintro ⟨expS, rest, sig, exp, hv, hr, he, hlt, hs⟩
    simp only [hv, hr, he]
    rw [if_neg (by omega), if_neg (by simp)]
    exact ctEq_utf8.mpr hs

end Bic

/-- The same family, and the same /24 for IPv4 or /64 for IPv6. -/
def SameSubnet : IpAddr → IpAddr → Prop
  | .v4 a, .v4 b => a.octets.get 0 = b.octets.get 0 ∧ a.octets.get 1 = b.octets.get 1
      ∧ a.octets.get 2 = b.octets.get 2
  | .v6 a, .v6 b => a.segments.get 0 = b.segments.get 0 ∧ a.segments.get 1 = b.segments.get 1
      ∧ a.segments.get 2 = b.segments.get 2 ∧ a.segments.get 3 = b.segments.get 3
  | _, _ => False

lemma hexByte_inj {a b : UInt8} (h : hex 2 a.toNat = hex 2 b.toNat) : a = b :=
  UInt8.toNat_inj.mp (hex_inj a.toNat_lt b.toNat_lt h)

lemma hexSegment_inj {a b : UInt16} (h : hex 4 a.toNat = hex 4 b.toNat) : a = b :=
  UInt16.toNat_inj.mp (hex_inj a.toNat_lt b.toNat_lt h)

/-- Two addresses have one marker exactly when they share the subnet. -/
lemma subnetMarker_iff {a b : IpAddr} : subnetMarker a = subnetMarker b ↔ SameSubnet a b := by
  cases a with
  | v4 a =>
    cases b with
    | v4 b =>
      constructor
      · intro h
        obtain ⟨-, h⟩ := List.cons_eq_cons.mp h
        obtain ⟨h0, h⟩ := List.append_inj h (by rw [length_hex, length_hex])
        obtain ⟨h1, h2⟩ := List.append_inj h (by rw [length_hex, length_hex])
        exact ⟨hexByte_inj h0, hexByte_inj h1, hexByte_inj h2⟩
      · rintro ⟨h0, h1, h2⟩
        simp only [subnetMarker, h0, h1, h2]
    | v6 b => exact ⟨fun h => absurd (List.cons_eq_cons.mp h).1 (by decide), False.elim⟩
  | v6 a =>
    cases b with
    | v4 b => exact ⟨fun h => absurd (List.cons_eq_cons.mp h).1 (by decide), False.elim⟩
    | v6 b =>
      constructor
      · intro h
        obtain ⟨-, h⟩ := List.cons_eq_cons.mp h
        obtain ⟨h0, h⟩ := List.append_inj h (by rw [length_hex, length_hex])
        obtain ⟨h1, h⟩ := List.append_inj h (by rw [length_hex, length_hex])
        obtain ⟨h2, h3⟩ := List.append_inj h (by rw [length_hex, length_hex])
        exact ⟨hexSegment_inj h0, hexSegment_inj h1, hexSegment_inj h2, hexSegment_inj h3⟩
      · rintro ⟨h0, h1, h2, h3⟩
        simp only [subnetMarker, h0, h1, h2, h3]

/-- A marker is written in hexadecimal digits. -/
lemma isHexLower_of_mem_marker {ip c} (h : c ∈ subnetMarker ip) : isHexLower c = true := by
  cases ip with
  | v4 a =>
    simp only [subnetMarker, List.mem_cons, List.mem_append] at h
    rcases h with rfl | h | h | h
    · decide
    all_goals exact isHexLower_of_mem_hex h
  | v6 a =>
    simp only [subnetMarker, List.mem_cons, List.mem_append] at h
    rcases h with rfl | h | h | h | h
    · decide
    all_goals exact isHexLower_of_mem_hex h

lemma not_mem_marker {ip c} (h : isHexLower c = false) : c ∉ subnetMarker ip := by
  intro hc
  rw [isHexLower_of_mem_marker hc] at h
  cases h

end Waf
