import Waf.Token.Challenge

/-!
# Proof of work

The two sides of the challenge: the loop of `verify_pow` over the bytes of a digest, with its indices
checked, and the script of `render_page`, which writes the digest in hexadecimal and looks for the first
nonce whose text starts with `difficulty` zeros. The numbers of the script are taken to be exact, as those
below `2^53` are. `verifyDigest_eq` says that the loop is the test of the script, and `work_agrees` what
follows for the page and the server.
-/

namespace Waf
open Lib

/-! ## The loop of the server -/

/-- The bytes at some indices are zero. `none` is an index out of range. -/
def zeroAt (digest : List UInt8) : List Nat → Option Bool
  | [] => some true
  | i :: is =>
    match digest[i]? with
    | none => none
    | some b => if b ≠ 0 then some false else zeroAt digest is

/-- `verify_pow` behind the digest. `none` is an index out of range. -/
def verifyDigest (digest : List UInt8) (need : Nat) : Option Bool :=
  let fullBytes := need / 2
  match zeroAt digest (List.range fullBytes) with
  | some true =>
    if need % 2 = 1 then
      match digest[fullBytes]? with
      | none => none
      | some b => if b >>> 4 ≠ 0 then some false else some true
    else some true
  | stopped => stopped

/-! ## The script of the page -/

namespace Script

/-- `padStart(2, "0")`. -/
def padStart (s : Str) : Str := List.replicate (2 - s.length) '0' ++ s

/-- The text of a digest: `b.toString(16).padStart(2, "0")` for each byte. -/
def hexText (digest : List UInt8) : Str :=
  digest.flatMap fun b => padStart (Nat.toDigits 16 b.toNat)

/-- `hex.startsWith(target)`, for the digest of `C + nonce`. -/
def solves (crates : Crates) (t : ChallengeToken) (nonce : Nat) : Bool :=
  let dig := crates.sha256 (utf8 (t.challenge ++ dec nonce))
  let target := List.replicate t.difficulty '0'
  target.isPrefixOf (hexText dig.toList)

/-- The nonce with which the loop ends, within `fuel` rounds. -/
def search (crates : Crates) (t : ChallengeToken) : Nat → Nat → Option Nat
  | 0, _ => none
  | fuel + 1, nonce =>
    if solves crates t nonce then some nonce else search crates t fuel (nonce + 1)

end Script

variable {crates : Crates} {digest : List UInt8} {b : UInt8} {d n i k : Nat}

/-! ## Zeros at the front -/

lemma digitChar_eq_zero (h : n < 16) : '0' = Nat.digitChar n ↔ n = 0 := by
  constructor
  · intro e
    exact digitChar_inj h (by decide) e.symm
  · rintro rfl
    rfl

lemma hexEncode_cons : hexEncode (b :: digest)
    = Nat.digitChar (b.toNat / 16) :: Nat.digitChar (b.toNat % 16) :: hexEncode digest := by
  have hb : b.toNat / 16 < 16 := Nat.div_lt_of_lt_mul b.toNat_lt
  show [] ++ [Nat.digitChar (b.toNat / 16 % 16)] ++ [Nat.digitChar (b.toNat % 16)]
    ++ hexEncode digest = _
  rw [Nat.mod_eq_of_lt hb]
  rfl

/-- The high half of a byte. -/
lemma shiftRight_eq_zero : b >>> 4 = 0 ↔ b.toNat / 16 = 0 := by
  have hshift : (b >>> 4).toNat = b.toNat / 16 :=
    (UInt8.toNat_shiftRight b 4).trans (Nat.shiftRight_eq_div_pow b.toNat 4)
  constructor
  · intro h
    rw [← hshift, h]
    rfl
  · intro h
    exact UInt8.toNat_inj.mp (hshift.trans h)

/-- A byte is zero iff both of its digits are. -/
lemma byte_eq_zero : b = 0 ↔ b.toNat / 16 = 0 ∧ b.toNat % 16 = 0 := by
  have hzero : b = 0 ↔ b.toNat = 0 := UInt8.toNat_inj.symm
  rw [hzero]
  omega

/-- The bytes of a digest that are zero, and half of the next one for an odd difficulty. -/
def LeadingZeros (digest : List UInt8) (d : Nat) : Bool :=
  (digest.take (d / 2)).all (· == 0) && (d % 2 != 1 || digest.getD (d / 2) 0 >>> 4 == 0)

/-- Two more zeros are one more zero byte. -/
lemma leadingZeros_step :
    LeadingZeros (b :: digest) (d + 2) = (b == 0 && LeadingZeros digest d) := by
  unfold LeadingZeros
  rw [Nat.add_div_right d (by decide), Nat.add_mod_right, List.take_succ_cons, List.all_cons,
    List.getD_cons_succ, Bool.and_assoc]

/-- Zero bytes and halves are zeros in hexadecimal, two digits for each byte. -/
lemma leadingZeros_iff (h : d ≤ 2 * digest.length) :
    LeadingZeros digest d = true ↔ List.replicate d '0' <+: hexEncode digest := by
  induction digest generalizing d with
  | nil =>
    obtain rfl : d = 0 := Nat.le_zero.mp h
    exact ⟨fun _ => List.nil_prefix, fun _ => rfl⟩
  | cons b digest ih =>
    have hhigh : b.toNat / 16 < 16 := Nat.div_lt_of_lt_mul b.toNat_lt
    have hlow : b.toNat % 16 < 16 := Nat.mod_lt _ (by decide)
    rw [hexEncode_cons]
    cases d with
    | zero => exact ⟨fun _ => List.nil_prefix, fun _ => rfl⟩
    | succ d =>
      cases d with
      | zero =>
        -- the odd half byte
        have hodd : LeadingZeros (b :: digest) 1 = (b >>> 4 == 0) := rfl
        rw [hodd, beq_iff_eq, shiftRight_eq_zero, ← digitChar_eq_zero hhigh]
        constructor
        · intro e
          exact List.cons_prefix_cons.mpr ⟨e, List.nil_prefix⟩
        · intro e
          exact (List.cons_prefix_cons.mp e).1
      | succ d =>
        have hd : d ≤ 2 * digest.length := by
          rw [List.length_cons] at h
          omega
        rw [leadingZeros_step, Bool.and_eq_true, beq_iff_eq, byte_eq_zero, ih hd,
          ← digitChar_eq_zero hhigh, ← digitChar_eq_zero hlow, List.replicate_succ,
          List.replicate_succ, List.cons_prefix_cons, List.cons_prefix_cons, and_assoc]

/-! ## The loop is the test -/

/-- The loop over the bytes from `i` on that are there. -/
lemma zeroAt_range' (h : i + k ≤ digest.length) :
    zeroAt digest (List.range' i k) = some (((digest.drop i).take k).all (· == 0)) := by
  induction k generalizing i with
  | zero => rfl
  | succ k ih =>
    have hi : i < digest.length := by omega
    have hrest := ih (i := i + 1) (by omega)
    rw [List.range'_succ, zeroAt, List.getElem?_eq_getElem hi, List.drop_eq_getElem_cons hi,
      List.take_succ_cons, List.all_cons]
    simp only
    split
    case isTrue hne =>
      rw [beq_false_of_ne hne, Bool.false_and]
    case isFalse hne =>
      rw [beq_iff_eq.mpr (not_not.mp hne), Bool.true_and]
      exact hrest

/-- No index of `verify_pow` is out of range as long as the digest has the digits. -/
lemma verifyDigest_leading (h : d ≤ 2 * digest.length) :
    verifyDigest digest d = some (LeadingZeros digest d) := by
  have hbytes : zeroAt digest (List.range (d / 2)) = some ((digest.take (d / 2)).all (· == 0)) := by
    rw [List.range_eq_range']
    exact zeroAt_range' (by omega)
  rw [verifyDigest, hbytes, LeadingZeros]
  cases (digest.take (d / 2)).all (· == 0) with
  | false => rfl
  | true =>
    rw [Bool.true_and]
    cases Nat.mod_two_eq_zero_or_one d with
    | inl heven =>
      rw [heven]
      rfl
    | inr hodd =>
      have hi : d / 2 < digest.length := by omega
      have hget : digest.getD (d / 2) 0 = digest[d / 2] := by
        rw [List.getD_eq_getElem?_getD, List.getElem?_eq_getElem hi, Option.getD_some]
      rw [hodd, hget, List.getElem?_eq_getElem hi]
      simp only
      rw [if_pos trivial]
      split
      case isTrue hne =>
        rw [beq_false_of_ne hne]
        rfl
      case isFalse hne =>
        rw [beq_iff_eq.mpr (not_not.mp hne)]
        rfl

/-- The loop of `verify_pow` accepts a digest iff its text starts with the zeros. -/
lemma verifyDigest_eq (h : d ≤ 2 * digest.length) :
    verifyDigest digest d = some ((List.replicate d '0').isPrefixOf (hexEncode digest)) := by
  rw [verifyDigest_leading h, Option.some.injEq, Bool.eq_iff_iff, leadingZeros_iff h,
    List.isPrefixOf_iff_prefix]

/-- The text that the script makes of a byte is that of `hex::encode`. -/
lemma padStart_toDigits (h : n < 256) : Script.padStart (Nat.toDigits 16 n) = hex 2 n := by
  have hlow : n % 16 < 16 := Nat.mod_lt _ (by decide)
  have hhigh : n / 16 < 16 := Nat.div_lt_of_lt_mul h
  have hhex : hex 2 n = [Nat.digitChar (n / 16), Nat.digitChar (n % 16)] := by
    show [] ++ [Nat.digitChar (n / 16 % 16)] ++ [Nat.digitChar (n % 16)] = _
    rw [Nat.mod_eq_of_lt hhigh]
    rfl
  rw [hhex, Nat.toDigits_eq_if (by decide)]
  split
  case isTrue hn =>
    rw [Nat.div_eq_of_lt hn, Nat.mod_eq_of_lt hn]
    rfl
  case isFalse hn =>
    rw [Nat.toDigits_of_lt_base hhigh]
    rfl

/-- The script writes digests as the server does. -/
lemma hexText_eq : Script.hexText digest = hexEncode digest := by
  rw [Script.hexText, hexEncode]
  exact List.flatMap_congr fun b _ => padStart_toDigits b.toNat_lt

/-! ## The page and the server -/

/-- The server's check is the loop, for the difficulties that a digest has digits for. -/
lemma verifyPow_loop {challenge nonce : Str} (h : d ≤ 64) :
    verifyDigest (crates.sha256 (utf8 challenge ++ utf8 nonce)).toList d
      = some (verifyPow crates challenge nonce d) := by
  apply verifyDigest_leading
  rw [Vector.length_toList]
  exact h

/-- A nonce is accepted iff the text of its digest starts with the zeros. -/
lemma verifyPow_iff {challenge nonce : Str} (h : d ≤ 64) :
    verifyPow crates challenge nonce d = true
      ↔ List.replicate d '0' <+: hexEncode (crates.sha256 (utf8 challenge ++ utf8 nonce)).toList := by
  apply leadingZeros_iff
  rw [Vector.length_toList]
  exact h

namespace Script

variable {t : ChallengeToken} {fuel nonce : Nat}

/-- The script takes exactly the nonces that the server accepts. -/
lemma solves_iff (h : t.difficulty ≤ 64) :
    solves crates t n = true ↔ verifyPow crates t.challenge (dec n) t.difficulty = true := by
  rw [verifyPow_iff h, solves, utf8_append, hexText_eq]
  exact List.isPrefixOf_iff_prefix

/-- The loop ends with the first nonce that passes. -/
lemma search_eq_some : search crates t fuel nonce = some n
    ↔ solves crates t n = true ∧ nonce ≤ n ∧ n < nonce + fuel
      ∧ ∀ m, nonce ≤ m → m < n → solves crates t m = false := by
  induction fuel generalizing nonce with
  | zero =>
    constructor
    · intro h
      cases h
    · rintro ⟨-, hle, hlt, -⟩
      exact absurd hle (Nat.not_le.mpr hlt)
  | succ fuel ih =>
    rw [search]
    split
    case isTrue hs =>
      constructor
      · intro h
        cases h
        exact ⟨hs, Nat.le_refl _, by omega, fun m hle hlt => absurd hle (Nat.not_le.mpr hlt)⟩
      · rintro ⟨-, hle, -, hfirst⟩
        obtain rfl | hlt := Nat.eq_or_lt_of_le hle
        · rfl
        · rw [hfirst nonce (Nat.le_refl _) hlt] at hs
          cases hs
    case isFalse hs =>
      rw [ih]
      refine and_congr_right fun hn => ?_
      constructor
      · rintro ⟨hle, hlt, hfirst⟩
        refine ⟨by omega, by omega, fun m hle' hlt' => ?_⟩
        obtain rfl | hm := Nat.eq_or_lt_of_le hle'
        · exact Bool.eq_false_iff.mpr hs
        · exact hfirst m hm hlt'
      · rintro ⟨hle, hlt, hfirst⟩
        -- the nonce that failed is not the one that passes
        have hne : nonce ≠ n := fun e => hs (e ▸ hn)
        exact ⟨by omega, by omega, fun m hle' hlt' => hfirst m (by omega) hlt'⟩

/-- A nonce that passes is reached, or one before it. -/
lemma exists_search (h : solves crates t n = true) :
    ∃ m ≤ n, search crates t (n + 1) 0 = some m := by
  have hex : ∃ m, solves crates t m = true := ⟨n, h⟩
  have hle : Nat.find hex ≤ n := Nat.find_min' hex h
  refine ⟨Nat.find hex, hle, search_eq_some.mpr ⟨Nat.find_spec hex, Nat.zero_le _, by omega, ?_⟩⟩
  intro m _ hm
  exact Bool.eq_false_iff.mpr (Nat.find_min hex hm)

end Script

lemma new_difficulty_le {secret cookieName : Str} {ttl : Nat} :
    (Challenger.new secret cookieName ttl d).powDifficulty ≤ 64 :=
  (Nat.min_le_right _ 8).trans (by decide)

/-- Server and page agree on the proof of work. The loop of `verify_pow` over a digest of 32 bytes has no
index out of range and accepts iff the text of the digest starts with the zeros, which is what the script
tests. What the script ends with is accepted until the token expires, it ends if a nonce passes, and the
server accepts nothing with fewer zeros. -/
theorem work_agrees (crates : Crates) (secret cookieName : Str) (ttl difficulty : Nat)
    (c : Challenger) (hc : c = Challenger.new secret cookieName ttl difficulty) :
    (∀ (digest : Vector UInt8 32) (d : Nat), d ≤ 64 →
      verifyDigest digest.toList d
          = some ((List.replicate d '0').isPrefixOf (Script.hexText digest.toList))
        ∧ Script.hexText digest.toList = hexEncode digest.toList)
      ∧ (∀ (challenge nonce : Str) (d : Nat), d ≤ 64 →
        verifyDigest (crates.sha256 (utf8 challenge ++ utf8 nonce)).toList d
          = some (verifyPow crates challenge nonce d))
      ∧ (∀ (issued now : Nat) (chal : Vector UInt8 16) (t : ChallengeToken),
        t = c.issue crates issued chal →
        (∀ fuel nonce, Script.search crates t fuel 0 = some nonce → now ≤ t.expiresAt →
            c.verify crates now t.challenge (dec nonce) t.signature t.expiresAt = .ok ())
          ∧ ∀ nonce, c.verify crates now t.challenge (dec nonce) t.signature t.expiresAt = .ok () →
            ∃ first ≤ nonce, Script.search crates t (nonce + 1) 0 = some first)
      ∧ ∀ (now : Nat) (challenge nonce signature : Str) (exp : Nat),
        c.verify crates now challenge nonce signature exp = .ok () →
        List.replicate c.powDifficulty '0' <+:
          hexEncode (crates.sha256 (utf8 challenge ++ utf8 nonce)).toList := by
  subst hc
  refine ⟨fun digest d h => ?_, fun challenge nonce d h => verifyPow_loop h, ?_, ?_⟩
  · have hlen : d ≤ 2 * digest.toList.length := by
      rw [Vector.length_toList]
      exact h
    rw [hexText_eq]
    exact ⟨verifyDigest_eq hlen, rfl⟩
  · rintro issued now chal t rfl
    have hd := @new_difficulty_le difficulty secret cookieName ttl
    constructor
    · intro fuel nonce hsearch hexp
      have hsolves := (Script.search_eq_some.mp hsearch).1
      exact Challenger.verify_iff.mpr
        ⟨hexp, rfl, (Script.solves_iff hd).mp hsolves⟩
    · intro nonce hok
      have hpow := (Challenger.verify_iff.mp hok).2.2
      exact Script.exists_search ((Script.solves_iff hd).mpr hpow)
  · intro now challenge nonce signature exp hok
    exact (verifyPow_iff new_difficulty_le).mp (Challenger.verify_iff.mp hok).2.2

/-- The crates on the inputs of the example: the signature of the challenge with the expiry 1700000120,
and the digest of the challenge followed by `0`. -/
def workCrates : Crates where
  __ := idleCrates
  hmac _ _ := "w0nCzI-IoJx6vOIGC7ELQD7_BsZM49JJMJoAfCjkhM0"
  sha256 _ :=
    #v[6, 117, 54, 13, 28, 76, 214, 170, 13, 251, 117, 175, 67, 135, 223, 4, 89, 97, 254, 121, 194,
      213, 215, 49, 116, 115, 129, 72, 56, 84, 144, 196]

/-- A challenger of difficulty 1. -/
def workServer : Challenger := .new "a-very-secret-key-of-some-length" "ck" 60 1

/-- What it issues at 1700000000 s. -/
def workToken : ChallengeToken :=
  workServer.issue workCrates 1700000000 #v[3, 0, 0, 0, 0, 0, 0, 0, 0, 0, 0, 0, 0, 0, 0, 0]

/-- A token that the first nonce solves. -/
theorem work_agrees_witness :
    Script.search workCrates workToken 1 0 = some 0
      ∧ workServer.verify workCrates 1700000060 workToken.challenge (dec 0) workToken.signature
        workToken.expiresAt = .ok () := by
  have hsearch : Script.search workCrates workToken 1 0 = some 0 := by decide
  have hagrees := work_agrees workCrates "a-very-secret-key-of-some-length" "ck" 60 1 workServer rfl
  exact ⟨hsearch, (hagrees.2.2.1 1700000000 1700000060 _ workToken rfl).1 1 0 hsearch (by decide)⟩

end Waf
