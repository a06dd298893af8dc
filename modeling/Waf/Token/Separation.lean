import Waf.Token.Bic

/-!
# Separation of the signed formats

One secret signs four formats: challenge tokens, clearance cookies, BIC tokens and BIC cookies. A run
of the server is the list of the outputs it has released. The MAC is ideal for a signature when every
payload it verifies for was released (`Unforged`).

The cookies are told apart from everything else (`cookies_sound_complete`): `clr|` and `bic|` cannot
begin with a challenge in hexadecimal. The tokens are not. The challenge of a submission is text that
the client chooses, so a clearance cookie reads as the token with challenge `clr`, and the tokens of
the two schemes read as each other. `resubmission_iff` says that these readings are all there is.
-/

namespace Waf
open Lib

/-- An output of the server. -/
inductive Release where
  | challenge (now : Nat) (chal : Vector UInt8 16)
  | clearance (now : Nat)
  | bicToken (now : Nat) (chal : Vector UInt8 12)
  | bicCookie (now : Nat) (ip : IpAddr)

namespace Release

/-- The expiry of an output. -/
def expiry (c : Challenger) : Release → Nat
  | challenge now _ => (now + 120) % 2 ^ 64
  | clearance now => (now + c.cookieTtl) % 2 ^ 64
  | bicToken now _ => (now + Bic.TOKEN_TTL_SECS) % 2 ^ 64
  | bicCookie now _ => (now + Bic.COOKIE_TTL_SECS) % 2 ^ 64

/-- The text that is signed. -/
def payload (c : Challenger) (r : Release) : Str :=
  match r with
  | challenge _ chal => hexEncode chal.toList ++ '|' :: dec (r.expiry c)
  | clearance _ => clearancePayload (r.expiry c)
  | bicToken _ chal => hexEncode chal.toList ++ '|' :: dec (r.expiry c)
  | bicCookie _ ip => bicPayload (r.expiry c) (subnetMarker ip)

/-- What the server hands out for a release is signed with its payload. -/
lemma signed {crates : Crates} {c : Challenger} (r : Release) :
    match r with
    | challenge now chal => (c.issue crates now chal).signature = crates.hmac c.secret (r.payload c)
    | clearance now => c.mintClearance crates now
        = dec (r.expiry c) ++ '.' :: crates.hmac c.secret (r.payload c)
    | bicToken now chal => ((Bic.new c.secret).issue crates now chal).signature
        = crates.hmac c.secret (r.payload c)
    | bicCookie now ip => ((Bic.new c.secret).mint crates now ip).2
        = dec (r.expiry c) ++ '.' :: (subnetMarker ip ++ '.' ::
          crates.hmac c.secret (r.payload c)) := by
  cases r <;> rfl

/-- Does the payload read as a token with challenge `text` and expiry `exp`? -/
def ReadsAs (c : Challenger) (text : Str) (exp : Nat) (r : Release) : Prop :=
  match r with
  | challenge _ chal => text = hexEncode chal.toList ∧ exp = r.expiry c
  | clearance _ => text = "clr".toList ∧ exp = r.expiry c
  | bicToken _ chal => text = hexEncode chal.toList ∧ exp = r.expiry c
  | bicCookie _ ip => text = "bic" ++ '|' :: dec (r.expiry c) ∧ dec exp = subnetMarker ip

/-- Numbers have no bar in them. -/
lemma bar_not_mem_dec {n : Nat} : '|' ∉ dec n := not_mem_dec (by decide)

lemma bar_not_mem_marker {ip : IpAddr} : '|' ∉ subnetMarker ip := not_mem_marker (by decide)

/-- A payload is the text of a token exactly when it reads as that token. -/
lemma payload_eq_iff {c : Challenger} {r : Release} {text exp} :
    text ++ '|' :: dec exp = r.payload c ↔ r.ReadsAs c text exp := by
  have hdec : ∀ {t : Str} {e : Nat}, text ++ '|' :: dec exp = t ++ '|' :: dec e
      ↔ text = t ∧ exp = e := by
    intro t e
    constructor
    · intro h
      obtain ⟨h1, h2⟩ := append_sep_inj_right bar_not_mem_dec bar_not_mem_dec h
      exact ⟨h1, dec_inj h2⟩
    · rintro ⟨rfl, rfl⟩
      rfl
  cases r with
  | challenge now chal => exact hdec
  | clearance now => exact hdec
  | bicToken now chal => exact hdec
  | bicCookie now ip =>
    constructor
    · intro h
      exact append_sep_inj_right bar_not_mem_dec bar_not_mem_marker h
    · rintro ⟨h1, h2⟩
      rw [h1, h2]
      rfl

/-- Is this a token of the challenge scheme? -/
def isChallenge : Release → Bool
  | challenge .. => true
  | _ => false

/-- Is this a token of the BIC scheme? -/
def isBicToken : Release → Bool
  | bicToken .. => true
  | _ => false

/-- A text that is a challenge in hexadecimal does not contain a character like `l` or `|`. -/
lemma hex_ne_of_mem {bs : List UInt8} {t : Str} {x : Char} (hx : isHexLower x = false)
    (h : x ∈ t) : t ≠ hexEncode bs := by
  rintro rfl
  exact not_mem_hexEncode hx h

/-- The formats of tokens of the two schemes, and of the cookies, are told apart by the challenge. -/
lemma readsAs_challenge {c : Challenger} {r r' : Release} {text exp} (h : r.ReadsAs c text exp)
    (h' : r'.ReadsAs c text exp) (hr : r.isChallenge = true) : r'.isChallenge = true := by
  cases r with
  | challenge now chal =>
    obtain ⟨rfl, -⟩ := h
    cases r' with
    | challenge => rfl
    | clearance => exact absurd h'.1.symm (hex_ne_of_mem (x := 'l') (by decide) (by decide))
    | bicToken now' chal' =>
      have hlen := congrArg List.length h'.1
      simp at hlen
    | bicCookie => exact absurd h'.1.symm (hex_ne_of_mem (x := '|') (by decide) (by simp))
  | clearance | bicToken | bicCookie => cases hr

/-- Tokens that read the same are both integrity tokens or none is. -/
lemma readsAs_bicToken {c : Challenger} {r r' : Release} {text exp} (h : r.ReadsAs c text exp)
    (h' : r'.ReadsAs c text exp) (hr : r.isBicToken = true) : r'.isBicToken = true := by
  cases r with
  | bicToken now chal =>
    obtain ⟨rfl, -⟩ := h
    cases r' with
    | bicToken => rfl
    | clearance => exact absurd h'.1.symm (hex_ne_of_mem (x := 'l') (by decide) (by decide))
    | challenge now' chal' =>
      have hlen := congrArg List.length h'.1
      simp at hlen
    | bicCookie => exact absurd h'.1.symm (hex_ne_of_mem (x := '|') (by decide) (by simp))
  | challenge | clearance | bicCookie => cases hr

end Release

/-- The MAC is ideal for `sig`: the server released every payload it verifies for. -/
def Unforged (crates : Crates) (c : Challenger) (run : List Release) (sig : Str) : Prop :=
  ∀ p, crates.hmac c.secret p = sig → ∃ r ∈ run, r.payload c = p

/-- Was the pair produced by `Challenger::issue`? -/
def ChallengeIssued (c : Challenger) (run : List Release) (text : Str) (exp : Nat) : Prop :=
  ∃ r ∈ run, r.isChallenge = true ∧ r.ReadsAs c text exp

/-- Was the pair produced by `Bic::issue`? -/
def BicIssued (c : Challenger) (run : List Release) (text : Str) (exp : Nat) : Prop :=
  ∃ r ∈ run, r.isBicToken = true ∧ r.ReadsAs c text exp

/-- A released text of another format than `own` that reads as the pair. -/
def Misread (c : Challenger) (run : List Release) (own : Release → Bool) (text : Str)
    (exp : Nat) : Prop :=
  ∃ r ∈ run, own r = false ∧ r.ReadsAs c text exp

/-- A signature that verifies for a pair was released for a text that reads as the pair. -/
lemma Unforged.reads {crates c run sig text exp} (ideal : Unforged crates c run sig)
    (h : sign crates c.secret text exp = sig) : ∃ r ∈ run, r.ReadsAs c text exp := by
  obtain ⟨r, hr, hp⟩ := ideal _ h
  exact ⟨r, hr, Release.payload_eq_iff.mp hp.symm⟩

/-- A submission passes for a pair that its scheme did not issue exactly when it resubmits, in time
and with the work or the proof done, a released text of another format that reads as the pair. -/
theorem resubmission_iff {crates : Crates} {c : Challenger} {run : List Release} {sig : Str}
    (ideal : Unforged crates c run sig) (now : Nat) (text nonce proof : Str) (exp : Nat) :
    ((c.verify crates now text nonce sig exp = .ok () → ChallengeIssued c run text exp)
        ↔ ¬ (Misread c run Release.isChallenge text exp ∧ now ≤ exp
          ∧ sign crates c.secret text exp = sig
          ∧ verifyPow crates text nonce c.powDifficulty = true))
      ∧ (((Bic.new c.secret).verifyProof crates now text exp sig proof = .ok ()
          → BicIssued c run text exp)
        ↔ ¬ (Misread c run Release.isBicToken text exp ∧ now ≤ exp
          ∧ sign crates c.secret text exp = sig ∧ Bic.wantedProof crates text = proof)) := by
  rw [Challenger.verify_iff, Bic.verifyProof_iff]
  constructor
  · constructor
    · rintro h ⟨⟨r, hr, hown, hreads⟩, hpass⟩
      obtain ⟨r', -, hown', hreads'⟩ := h hpass
      rw [Release.readsAs_challenge hreads' hreads hown'] at hown
      cases hown
    · intro h hpass
      obtain ⟨r, hr, hreads⟩ := ideal.reads hpass.2.1
      cases hown : r.isChallenge with
      | true => exact ⟨r, hr, hown, hreads⟩
      | false => exact absurd ⟨⟨r, hr, hown, hreads⟩, hpass⟩ h
  · constructor
    · rintro h ⟨⟨r, hr, hown, hreads⟩, hpass⟩
      obtain ⟨r', -, hown', hreads'⟩ := h hpass
      rw [Release.readsAs_bicToken hreads' hreads hown'] at hown
      cases hown
    · intro h hpass
      obtain ⟨r, hr, hreads⟩ := ideal.reads hpass.2.1
      cases hown : r.isBicToken with
      | true => exact ⟨r, hr, hown, hreads⟩
      | false => exact absurd ⟨⟨r, hr, hown, hreads⟩, hpass⟩ h

/-- The server of the example. -/
def leakServer : Challenger := .new "a-very-secret-key-of-some-length" "__2t1_clearance" 1800 4

/-- It has handed out one cookie of each scheme, at 1700000000 s. -/
def leakRun : List Release := [.clearance 1700000000, .bicCookie 1700000000 (.v4 (.new 1 2 3 4))]

/-- The signature of the clearance cookie. -/
def leakedSig : Str := "aUZ6BCDMW7g-K_UW_MRm8op6LCRo0ez0KrE_wqpDsAU"

/-- The signature of the BIC cookie. -/
def leakedBicSig : Str := "VyxMSQYl3sWd6I25B6zXIDmKIUEHb-z9Mh2JAjWi-5o"

/-- The crates on the inputs of the example: the signatures of `clr|1700001800` and of
`bic|1700001800|4010203`, and the digest of `clr169901`. -/
def leakCrates : Crates where
  __ := idleCrates
  hmac _ p :=
    if p = "clr|1700001800".toList then leakedSig
    else if p = "bic|1700001800|4010203".toList then leakedBicSig
    else []
  sha256 bytes :=
    if bytes = utf8 "clr169901" then
      #v[0, 0, 179, 184, 138, 103, 117, 243, 58, 207, 144, 156, 53, 167, 22, 80, 197, 153, 185, 168,
        139, 200, 153, 11, 190, 65, 72, 85, 119, 181, 137, 46]
    else .replicate 32 1

/-- The sample signatures are those of what was released. -/
lemma leak_hmac {p sig} (hsig : sig ≠ []) (h : leakCrates.hmac leakServer.secret p = sig) :
    ∃ r ∈ leakRun, r.payload leakServer = p := by
  simp only [leakCrates] at h
  split at h
  case isTrue e => exact ⟨.clearance 1700000000, .head _, e.symm⟩
  case isFalse =>
    split at h
    case isTrue e => exact ⟨_, .tail _ (.head _), e.symm⟩
    case isFalse => exact absurd h.symm hsig

/-- The cookie, resubmitted as the token with challenge `clr`, passes. -/
theorem clearance_resubmitted :
    Unforged leakCrates leakServer leakRun leakedSig
      ∧ leakServer.verify leakCrates 1700001000 "clr" "169901" leakedSig 1700001800 = .ok ()
      ∧ ¬ ChallengeIssued leakServer leakRun "clr" 1700001800 := by
  refine ⟨fun p hp => leak_hmac (by decide) hp, by rfl, ?_⟩
  rintro ⟨r, hr, hown, -⟩
  rcases List.mem_pair.mp hr with rfl | rfl
  · cases hown
  · cases hown

/-- The clearance of the sample, submitted as a challenge. -/
theorem resubmission_iff_witness :
    ((leakServer.verify leakCrates 1700001000 "clr" "169901" leakedSig 1700001800 = .ok ()
          → ChallengeIssued leakServer leakRun "clr" 1700001800)
        ↔ ¬ (Misread leakServer leakRun Release.isChallenge "clr" 1700001800
          ∧ 1700001000 ≤ 1700001800
          ∧ sign leakCrates leakServer.secret "clr" 1700001800 = leakedSig
          ∧ verifyPow leakCrates "clr" "169901" leakServer.powDifficulty = true))
      ∧ (((Bic.new leakServer.secret).verifyProof leakCrates 1700001000 "clr" 1700001800 leakedSig []
          = .ok () → BicIssued leakServer leakRun "clr" 1700001800)
        ↔ ¬ (Misread leakServer leakRun Release.isBicToken "clr" 1700001800
          ∧ 1700001000 ≤ 1700001800
          ∧ sign leakCrates leakServer.secret "clr" 1700001800 = leakedSig
          ∧ Bic.wantedProof leakCrates "clr" = [])) :=
  resubmission_iff (fun p hp => leak_hmac (by decide) hp) 1700001000 "clr" "169901" [] 1700001800

/-! ## Cookies -/

/-- The MAC is ideal for every part of a cookie that follows a dot. -/
def UnforgedParts (crates : Crates) (c : Challenger) (run : List Release) (value : Str) : Prop :=
  ∀ a sig, value = a ++ '.' :: sig → Unforged crates c run sig

/-- Only a clearance cookie signs the payload of one. -/
lemma Release.of_clearancePayload {c : Challenger} {r : Release} {exp}
    (h : r.payload c = clearancePayload exp) :
    ∃ t, r = .clearance t ∧ r.expiry c = exp := by
  have hreads : r.ReadsAs c "clr" exp := payload_eq_iff.mp h.symm
  cases r with
  | challenge => exact absurd hreads.1 (hex_ne_of_mem (x := 'l') (by decide) (by decide))
  | clearance t => exact ⟨t, rfl, hreads.2.symm⟩
  | bicToken => exact absurd hreads.1 (hex_ne_of_mem (x := 'l') (by decide) (by decide))
  | bicCookie =>
    have hne : ∀ t, "clr".toList ≠ "bic".toList ++ '|' :: t := nofun
    exact absurd hreads.1 (hne _)

/-- Only a BIC cookie signs the payload of one. -/
lemma Release.of_bicPayload {c : Challenger} {r : Release} {exp ip}
    (h : r.payload c = bicPayload exp (subnetMarker ip)) :
    ∃ t ip', r = .bicCookie t ip' ∧ r.expiry c = exp ∧ SameSubnet ip' ip := by
  have hbar : '|' ∈ "bic".toList ++ '|' :: dec exp := by simp
  cases r with
  | challenge =>
    obtain ⟨e, -⟩ := append_sep_inj_right bar_not_mem_dec bar_not_mem_marker h
    exact absurd e.symm (hex_ne_of_mem (by decide) hbar)
  | clearance =>
    obtain ⟨e, -⟩ := append_sep_inj_right bar_not_mem_dec bar_not_mem_marker h
    have hne : ∀ t, "clr".toList ≠ "bic".toList ++ '|' :: t := nofun
    exact absurd e (hne _)
  | bicToken =>
    obtain ⟨e, -⟩ := append_sep_inj_right bar_not_mem_dec bar_not_mem_marker h
    exact absurd e.symm (hex_ne_of_mem (by decide) hbar)
  | bicCookie t ip' =>
    obtain ⟨e, hm⟩ := append_sep_inj_right bar_not_mem_marker bar_not_mem_marker h
    obtain ⟨-, e⟩ := List.append_inj e rfl
    exact ⟨t, ip', rfl, dec_inj (List.cons_eq_cons.mp e).2, subnetMarker_iff.mp hm⟩

/-- Numbers have no dot in them. -/
lemma dot_not_mem_dec {n : Nat} : '.' ∉ dec n := not_mem_dec (by decide)

lemma dot_not_mem_marker {ip : IpAddr} : '.' ∉ subnetMarker ip := not_mem_marker (by decide)

lemma Release.expiry_lt {c : Challenger} {r : Release} : r.expiry c < 2 ^ 64 := by
  cases r <;> exact Nat.mod_lt _ (by decide)

/-- A clearance that passes was minted, and its expiry lies ahead. -/
lemma clearance_sound {crates : Crates} {c : Challenger} {run : List Release} {value now}
    (ideal : UnforgedParts crates c run value)
    (h : c.verifyClearance crates now value = true) :
    ∃ expS sig t, splitOnce '.' value = some (expS, sig) ∧ .clearance t ∈ run
      ∧ parseU64 expS = some ((Release.clearance t).expiry c)
      ∧ now < (Release.clearance t).expiry c := by
  obtain ⟨expS, sig, exp, hv, he, hlt, hs⟩ := Challenger.verifyClearance_iff.mp h
  obtain ⟨r, hr, hp⟩ := ideal expS sig (splitOnce_eq_some hv).1 _ hs
  obtain ⟨t, rfl, rfl⟩ := Release.of_clearancePayload hp
  exact ⟨expS, sig, t, hv, hr, he, hlt⟩

/-- A BIC cookie that passes was minted for the subnet of the address, and its expiry lies ahead. -/
lemma bicCookie_sound {crates : Crates} {c : Challenger} {run : List Release} {value now ip}
    (ideal : UnforgedParts crates c run value)
    (h : (Bic.new c.secret).verifyCookie crates now value ip = true) :
    ∃ expS rest t ip', splitOnce '.' value = some (expS, rest) ∧ .bicCookie t ip' ∈ run
      ∧ parseU64 expS = some ((Release.bicCookie t ip').expiry c) ∧ SameSubnet ip' ip
      ∧ now < (Release.bicCookie t ip').expiry c := by
  obtain ⟨expS, rest, sig, exp, hv, hrest, he, hlt, hs⟩ := Bic.verifyCookie_iff.mp h
  have hparts : value = (expS ++ '.' :: subnetMarker ip) ++ '.' :: sig := by
    rw [(splitOnce_eq_some hv).1, (splitOnce_eq_some hrest).1]
    simp
  obtain ⟨r, hr, hp⟩ := ideal _ sig hparts _ hs
  obtain ⟨t, ip', rfl, rfl, hsub⟩ := Release.of_bicPayload hp
  exact ⟨expS, rest, t, ip', hv, hr, he, hsub, hlt⟩

/-- A minted clearance passes exactly before its expiry. -/
lemma clearance_complete {crates : Crates} {c : Challenger} {t now} :
    c.verifyClearance crates now (c.mintClearance crates t) = true
      ↔ now < (Release.clearance t).expiry c := by
  have hsplit : splitOnce '.' (c.mintClearance crates t) = some (dec ((Release.clearance t).expiry c),
      crates.hmac c.secret (clearancePayload ((Release.clearance t).expiry c))) :=
    splitOnce_append dot_not_mem_dec
  rw [Challenger.verifyClearance_iff, hsplit]
  constructor
  · rintro ⟨expS, sig, exp, hv, he, hlt, -⟩
    cases hv
    rw [parseU64, parseNat_dec Release.expiry_lt] at he
    obtain rfl := Option.some.inj he
    exact hlt
  · intro hlt
    exact ⟨_, _, _, rfl, parseNat_dec Release.expiry_lt, hlt, rfl⟩

/-- A minted BIC cookie passes exactly before its expiry and from the subnet it was minted for. -/
lemma bicCookie_complete {crates : Crates} {c : Challenger} {t ip' now ip} :
    (Bic.new c.secret).verifyCookie crates now ((Bic.new c.secret).mint crates t ip').2 ip = true
      ↔ SameSubnet ip' ip ∧ now < (Release.bicCookie t ip').expiry c := by
  have hsplit : splitOnce '.' ((Bic.new c.secret).mint crates t ip').2
      = some (dec ((Release.bicCookie t ip').expiry c), subnetMarker ip' ++ '.' ::
        crates.hmac c.secret (bicPayload ((Release.bicCookie t ip').expiry c) (subnetMarker ip'))) :=
    splitOnce_append dot_not_mem_dec
  rw [Bic.verifyCookie_iff, hsplit]
  constructor
  · rintro ⟨expS, rest, sig, exp, hv, hrest, he, hlt, -⟩
    cases hv
    rw [splitOnce_append dot_not_mem_marker] at hrest
    rw [parseU64, parseNat_dec Release.expiry_lt] at he
    obtain rfl := Option.some.inj he
    exact ⟨subnetMarker_iff.mp (congrArg Prod.fst (Option.some.inj hrest)), hlt⟩
  · rintro ⟨hsub, hlt⟩
    have hm := subnetMarker_iff.mpr hsub
    refine ⟨_, _, _, _, rfl, ?_, parseNat_dec Release.expiry_lt, hlt, rfl⟩
    rw [← hm, splitOnce_append dot_not_mem_marker]
    rfl

/-- Cookies are sound and complete: one that passes was minted with the expiry it carries, for the
subnet of the address, and a minted one passes exactly before its expiry. -/
theorem cookies_sound_complete {crates : Crates} {c : Challenger} {run : List Release} :
    (∀ value now, UnforgedParts crates c run value → c.verifyClearance crates now value = true →
      ∃ expS sig t, splitOnce '.' value = some (expS, sig) ∧ .clearance t ∈ run
        ∧ parseU64 expS = some ((Release.clearance t).expiry c)
        ∧ now < (Release.clearance t).expiry c)
      ∧ (∀ value now ip, UnforgedParts crates c run value →
        (Bic.new c.secret).verifyCookie crates now value ip = true →
        ∃ expS rest t ip', splitOnce '.' value = some (expS, rest) ∧ .bicCookie t ip' ∈ run
          ∧ parseU64 expS = some ((Release.bicCookie t ip').expiry c) ∧ SameSubnet ip' ip
          ∧ now < (Release.bicCookie t ip').expiry c)
      ∧ (∀ t now, c.verifyClearance crates now (c.mintClearance crates t) = true
        ↔ now < (Release.clearance t).expiry c)
      ∧ ∀ t ip' now ip,
        (Bic.new c.secret).verifyCookie crates now ((Bic.new c.secret).mint crates t ip').2 ip = true
          ↔ SameSubnet ip' ip ∧ now < (Release.bicCookie t ip').expiry c :=
  ⟨fun _ _ => clearance_sound, fun _ _ _ => bicCookie_sound, fun _ _ => clearance_complete,
    fun _ _ _ _ => bicCookie_complete⟩

/-- No part of a cookie that ends in a signature of the example is empty after a dot. -/
lemma leak_parts {front sig : Str} {x : Char} (hx : sig.getLast? = some x) (hdot : x ≠ '.') :
    UnforgedParts leakCrates leakServer leakRun (front ++ sig) := by
  intro a part e p hp
  refine leak_hmac ?_ hp
  rintro rfl
  have hlast := congrArg List.getLast? e
  rw [List.getLast?_append, hx] at hlast
  simp at hlast
  exact hdot hlast

/-- The two cookies of the sample. -/
theorem cookies_sound_complete_witness :
    (∃ expS sig t, splitOnce '.' ("1700001800.".toList ++ leakedSig) = some (expS, sig)
        ∧ .clearance t ∈ leakRun
        ∧ parseU64 expS = some ((Release.clearance t).expiry leakServer)
        ∧ 1700001799 < (Release.clearance t).expiry leakServer)
      ∧ (∃ expS rest t ip', splitOnce '.' ("1700001800.4010203.".toList ++ leakedBicSig)
            = some (expS, rest)
          ∧ .bicCookie t ip' ∈ leakRun
          ∧ parseU64 expS = some ((Release.bicCookie t ip').expiry leakServer)
          ∧ SameSubnet ip' (.v4 (.new 1 2 3 99))
          ∧ 1700001799 < (Release.bicCookie t ip').expiry leakServer)
      ∧ (leakServer.verifyClearance leakCrates 1700001800
          (leakServer.mintClearance leakCrates 1700000000) = true
        ↔ 1700001800 < (Release.clearance 1700000000).expiry leakServer) :=
  have h := @cookies_sound_complete leakCrates leakServer leakRun
  ⟨h.1 _ 1700001799 (leak_parts (x := 'U') rfl (by decide)) (by rfl),
    h.2.1 _ 1700001799 (.v4 (.new 1 2 3 99)) (leak_parts (x := 'o') rfl (by decide)) (by rfl),
    h.2.2.1 1700000000 1700001800⟩

end Waf
