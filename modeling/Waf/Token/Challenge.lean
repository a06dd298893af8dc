import Waf.Config

/-!
# Challenge tokens and clearance cookies

Model of the signing side of `challenge.rs`. A challenge token is a random challenge with an expiry,
signed together; a clearance cookie is an expiry with a signature of its own format. The clock and
the random bytes are arguments. `now` is in seconds.
-/

namespace Waf
open Lib

/-- `ct_eq`, in `challenge.rs` and in `bic.rs`. -/
def ctEq (a b : List UInt8) : Bool :=
  if a.length ≠ b.length then false
  else (List.zipWith (fun x y => x ^^^ y) a b).foldl (fun diff x => diff ||| x) 0 == 0

lemma foldl_or_eq_zero {xs : List UInt8} {d : UInt8} :
    xs.foldl (fun diff x => diff ||| x) d = 0 ↔ d = 0 ∧ ∀ x ∈ xs, x = 0 := by
  induction xs generalizing d with
  | nil => simp
  | cons x xs ih =>
    rw [List.foldl_cons, ih, UInt8.or_eq_zero_iff, List.forall_mem_cons, and_assoc]

/-- The constant-time comparison is equality. -/
lemma ctEq_iff {a b : List UInt8} : ctEq a b = true ↔ a = b := by
  induction a generalizing b with
  | nil =>
    cases b with
    | nil => simp [ctEq]
    | cons y b => simp [ctEq]
  | cons x a ih =>
    cases b with
    | nil => simp [ctEq]
    | cons y b =>
      rw [List.cons_eq_cons, ← ih]
      simp only [ctEq, List.length_cons, List.zipWith_cons_cons]
      split
      case isTrue h => simp [show a.length ≠ b.length by omega]
      case isFalse h =>
        rw [if_neg (by omega)]
        simp [foldl_or_eq_zero]

/-- A check of a signature in bytes is equality of texts. -/
lemma ctEq_utf8 {s t : Str} : ctEq (utf8 s) (utf8 t) = true ↔ s = t := by
  rw [ctEq_iff]
  exact ⟨utf8_inj, congrArg utf8⟩

structure Challenger where
  secret : Str
  cookieName : Str
  cookieTtl : Nat
  powDifficulty : Nat

/-- `challenge::Token`. -/
structure ChallengeToken where
  challenge : Str
  expiresAt : Nat
  signature : Str
  difficulty : Nat

inductive ChallengeError where
  | badFormat
  | expired
  | badSig
  | badPow
  deriving DecidableEq

/-- `sign`, in `challenge.rs` and in `bic.rs`. -/
def sign (crates : Crates) (secret challenge : Str) (exp : Nat) : Str :=
  crates.hmac secret (challenge ++ '|' :: dec exp)

/-- The payload of a clearance cookie. -/
def clearancePayload (exp : Nat) : Str := "clr" ++ '|' :: dec exp

def verifyPow (crates : Crates) (challenge nonce : Str) (difficulty : Nat) : Bool :=
  let digest := (crates.sha256 (utf8 challenge ++ utf8 nonce)).toList
  let fullBytes := difficulty / 2
  (digest.take fullBytes).all (· == 0)
    && (difficulty % 2 != 1 || digest.getD fullBytes 0 >>> 4 == 0)

namespace Challenger

def new (secret cookieName : Str) (cookieTtl powDifficulty : Nat) : Challenger :=
  ⟨secret, cookieName, cookieTtl, min (max powDifficulty 1) 8⟩

/-- `Challenger::issue` with the random bytes `chal`. -/
def issue (crates : Crates) (c : Challenger) (now : Nat) (chal : Vector UInt8 16) :
    ChallengeToken :=
  let expiresAt := (now + 120) % 2 ^ 64
  let challenge := hexEncode chal.toList
  ⟨challenge, expiresAt, sign crates c.secret challenge expiresAt, c.powDifficulty⟩

def verify (crates : Crates) (c : Challenger) (now : Nat) (challenge nonce signature : Str)
    (expiresAt : Nat) : Except ChallengeError Unit :=
  if expiresAt < now then .error .expired
  else if !ctEq (utf8 (sign crates c.secret challenge expiresAt)) (utf8 signature) then
    .error .badSig
  else if !verifyPow crates challenge nonce c.powDifficulty then .error .badPow
  else .ok ()

def mintClearance (crates : Crates) (c : Challenger) (now : Nat) : Str :=
  let exp := (now + c.cookieTtl) % 2 ^ 64
  dec exp ++ '.' :: crates.hmac c.secret (clearancePayload exp)

def verifyClearance (crates : Crates) (c : Challenger) (now : Nat) (value : Str) : Bool :=
  match splitOnce '.' value with
  | none => false
  | some (expS, sig) =>
    match parseU64 expS with
    | none => false
    | some exp =>
      if exp ≤ now then false
      else ctEq (utf8 (crates.hmac c.secret (clearancePayload exp))) (utf8 sig)

/-- What is in time, signed and worked for passes the three checks that are made of it. -/
lemma checks_ok_iff {ε : Type} {exp now : Nat} {signed worked : Bool} {late unsigned idle : ε} :
    (if exp < now then Except.error late else if !signed then .error unsigned
        else if !worked then .error idle else .ok ()) = .ok ()
      ↔ now ≤ exp ∧ signed = true ∧ worked = true := by
  split
  case isTrue h => exact ⟨nofun, fun h' => absurd h'.1 (not_le.mpr h)⟩
  case isFalse h =>
    have hle : now ≤ exp := not_lt.mp h
    cases signed with
    | false => exact ⟨nofun, fun h' => absurd h'.2.1 nofun⟩
    | true =>
      cases worked with
      | false => exact ⟨nofun, fun h' => absurd h'.2.2 nofun⟩
      | true => exact ⟨fun _ => ⟨hle, rfl, rfl⟩, fun _ => rfl⟩

/-- A submission passes when it is in time, its signature is that of its pair, and its work is
done. -/
lemma verify_iff {crates : Crates} {c : Challenger} {now challenge nonce signature expiresAt} :
    c.verify crates now challenge nonce signature expiresAt = .ok ()
      ↔ now ≤ expiresAt ∧ sign crates c.secret challenge expiresAt = signature
        ∧ verifyPow crates challenge nonce c.powDifficulty = true := by
  unfold verify
  rw [checks_ok_iff, ctEq_utf8]

/-- A clearance passes when its expiry lies ahead and its signature is that of the expiry. -/
lemma verifyClearance_iff {crates : Crates} {c : Challenger} {now value} :
    c.verifyClearance crates now value = true
      ↔ ∃ expS sig exp, splitOnce '.' value = some (expS, sig) ∧ parseU64 expS = some exp
        ∧ now < exp ∧ crates.hmac c.secret (clearancePayload exp) = sig := by
  unfold verifyClearance
  cases hv : splitOnce '.' value with
  | none => simp
  | some p =>
    obtain ⟨expS, sig⟩ := p
    simp only
    cases he : parseU64 expS with
    | none =>
      refine ⟨nofun, ?_⟩
      rintro ⟨expS', sig', exp', hv', he', -⟩
      cases hv'
      rw [he] at he'
      cases he'
    | some exp =>
      simp only
      constructor
      · intro h
        split at h
        case isTrue => cases h
        case isFalse hlt => exact ⟨expS, sig, exp, rfl, he, by omega, ctEq_utf8.mp h⟩
      · rintro ⟨expS', sig', exp', hv', he', hlt, hs⟩
        cases hv'
        rw [he] at he'
        cases he'
        rw [if_neg (by omega)]
        exact ctEq_utf8.mpr hs

end Challenger

end Waf
