import Waf.Lib.Percent
import Waf.Lib.Position
import Waf.Net.Header
import Waf.Proxy.Ladder

/-!
# Captcha verification

The request of `do_verify` to a provider: a form with the secret, the visitor's token and the address,
each encoded by `urlenc`, behind seven header lines. `siteverify_fields` says that the provider reads the
three fields with their bytes and the body with its length, whatever the token is.
-/

namespace Waf
open Lib

def Provider.host : Provider → Str
  | turnstile => "challenges.cloudflare.com"
  | hcaptcha => "hcaptcha.com"

def Provider.path : Provider → Str
  | turnstile => "/turnstile/v0/siteverify"
  | hcaptcha => "/siteverify"

namespace Siteverify

/-- The bytes that `urlenc` leaves as they are. -/
def isUnreserved (b : UInt8) : Bool :=
  (65 ≤ b && b ≤ 90) || (97 ≤ b && b ≤ 122) || (48 ≤ b && b ≤ 57) || b == 45 || b == 95 || b == 46
    || b == 126

def urlencByte (b : UInt8) : Str :=
  if isUnreserved b then [Char.ofNat b.toNat] else '%' :: hexUpper b

def urlenc (s : Str) : Str := (utf8 s).flatMap urlencByte

def body (secret token remoteIp : Str) : Str :=
  "secret=" ++ urlenc secret ++ "&response=" ++ urlenc token ++ "&remoteip=" ++ urlenc remoteIp

/-- The bytes that `do_verify` sends, as text. -/
def request (provider : Provider) (secret token remoteIp : Str) : Str :=
  let body := body secret token remoteIp
  "POST " ++ provider.path ++ " HTTP/1.1\r\n"
    ++ "Host: " ++ provider.host ++ "\r\n"
    ++ "User-Agent: 2t1-waf\r\n"
    ++ "Content-Type: application/x-www-form-urlencoded\r\n"
    ++ "Content-Length: " ++ dec (byteLen body) ++ "\r\n"
    ++ "Connection: close\r\n"
    ++ "Accept: application/json\r\n\r\n"
    ++ body

/-! ## What the provider reads -/

/-- A field of a form: a name and a value at the first equals sign, percent-decoded. -/
def field (part : Str) : Option (List UInt8 × List UInt8) :=
  (splitOnce '=' part).map fun kv => (percentDecode kv.1, percentDecode kv.2)

def fields (form : Str) : List (Option (List UInt8 × List UInt8)) := (form.splitOn '&').map field

/-- The lines of the header, for a body of some length. -/
def headerLines (provider : Provider) (length : Nat) : List Str :=
  ["POST " ++ provider.path ++ " HTTP/1.1", "Host: " ++ provider.host, "User-Agent: 2t1-waf",
    "Content-Type: application/x-www-form-urlencoded", "Content-Length: " ++ dec length,
    "Connection: close", "Accept: application/json"]

/-- The header without its last line end. -/
def header (provider : Provider) (length : Nat) : List UInt8 :=
  crlf.intercalate ((headerLines provider length).map utf8)

variable {secret token remoteIp s t : Str} {b x : UInt8} {c : Char}

/-! ## One byte -/

lemma isUnreserved_lt (h : isUnreserved b = true) : b.toNat < 128 := by
  have hle : ∀ {m : UInt8}, m.toNat < 128 → b ≤ m → b.toNat < 128 := fun hm hb =>
    lt_of_le_of_lt (UInt8.le_iff_toNat_le.mp hb) hm
  simp only [isUnreserved, Bool.or_eq_true, Bool.and_eq_true, decide_eq_true_eq, beq_iff_eq] at h
  obtain (((((⟨-, h⟩ | ⟨-, h⟩) | ⟨-, h⟩) | rfl) | rfl) | rfl) | rfl := h
  · exact hle (by decide) h
  · exact hle (by decide) h
  · exact hle (by decide) h
  all_goals decide

/-- A byte is read back. -/
lemma percentDecode_urlencByte : percentDecode (urlencByte b ++ s) = b :: percentDecode s := by
  unfold urlencByte
  split
  case isTrue h =>
    have hne : Char.ofNat b.toNat ≠ '%' := by
      intro e
      have hb := utf8EncodeChar_byte (isUnreserved_lt h)
      rw [e] at hb
      cases hb
      cases h
    rw [List.singleton_append, percentDecode_of_ne hne,
      utf8EncodeChar_byte (isUnreserved_lt h)]
    rfl
  case isFalse => exact percentDecode_upper

/-- Capital digits are unreserved. -/
lemma utf8_upper {n : Nat} (h : n < 16) :
    ∀ x ∈ utf8 [(Nat.digitChar n).toUpper], isUnreserved x = true := by
  have key : ∀ a : Fin 16, (utf8 [(Nat.digitChar a).toUpper]).all isUnreserved = true := by decide
  exact List.all_eq_true.mp (key ⟨n, h⟩)

/-- A byte is written with unreserved ones and percent signs. -/
lemma utf8_urlencByte (h : x ∈ utf8 (urlencByte b)) : isUnreserved x = true ∨ x = 37 := by
  unfold urlencByte at h
  split at h
  case isTrue hb =>
    have hone : utf8 [Char.ofNat b.toNat] = [b] := by
      rw [utf8, List.flatMap_singleton, utf8EncodeChar_byte (isUnreserved_lt hb)]
    rw [hone] at h
    rw [List.mem_singleton.mp h]
    exact .inl hb
  case isFalse =>
    have hsplit : utf8 ('%' :: hexUpper b)
        = 37 :: (utf8 [(Nat.digitChar (b.toNat / 16 % 16)).toUpper]
          ++ utf8 [(Nat.digitChar (b.toNat % 16)).toUpper]) := by
      rw [hexUpper_eq, ← utf8_append]
      rfl
    rw [hsplit] at h
    cases h with
    | head => exact .inr rfl
    | tail _ h =>
      obtain h | h := List.mem_append.mp h
      · exact .inl (utf8_upper (Nat.mod_lt _ (by decide)) x h)
      · exact .inl (utf8_upper (Nat.mod_lt _ (by decide)) x h)

/-! ## One field -/

/-- What is encoded is decoded to its bytes. -/
lemma percentDecode_urlenc : percentDecode (urlenc s) = utf8 s := by
  unfold urlenc
  generalize utf8 s = bs
  induction bs with
  | nil => rfl
  | cons b bs ih => rw [List.flatMap_cons, percentDecode_urlencByte, ih]

/-- An encoding has unreserved characters and percent signs. -/
lemma utf8_urlenc (h : x ∈ utf8 (urlenc s)) : isUnreserved x = true ∨ x = 37 := by
  obtain ⟨c, hc, hx⟩ := List.mem_flatMap.mp h
  obtain ⟨b, -, hb⟩ := List.mem_flatMap.mp hc
  exact utf8_urlencByte (List.mem_flatMap.mpr ⟨c, hb, hx⟩)

/-- A separator of the form does not occur in a field. -/
lemma not_mem_urlenc {x : UInt8} (hc : String.utf8EncodeChar c = [x]) (hx : isUnreserved x = false)
    (hp : x ≠ 37) : c ∉ urlenc s := by
  intro hmem
  have hbyte : x ∈ utf8 (urlenc s) := List.mem_flatMap.mpr ⟨c, hmem, by rw [hc]; exact .head _⟩
  cases utf8_urlenc hbyte with
  | inl h =>
    rw [hx] at h
    cases h
  | inr h => exact hp h

lemma amp_not_mem : '&' ∉ urlenc s := not_mem_urlenc (x := 38) (by decide) rfl (by decide)

/-- A field is read as it was written. -/
lemma field_urlenc (hname : '=' ∉ t) (hplain : '%' ∉ t) :
    field (t ++ '=' :: urlenc s) = some (utf8 t, utf8 s) := by
  rw [field, splitOnce_append hname, Option.map_some, percentDecode_plain hplain,
    percentDecode_urlenc]

/-! ## The request -/

/-- The form is read as its three fields. -/
lemma fields_body : fields (body secret token remoteIp)
    = [some (utf8 "secret", utf8 secret), some (utf8 "response", utf8 token),
      some (utf8 "remoteip", utf8 remoteIp)] := by
  have hbody : body secret token remoteIp
      = ['&'].intercalate ["secret".toList ++ '=' :: urlenc secret,
        "response".toList ++ '=' :: urlenc token, "remoteip".toList ++ '=' :: urlenc remoteIp] := by
    have hsecret : "secret=".toList = "secret".toList ++ ['='] := by decide
    have hresponse : "&response=".toList = '&' :: ("response".toList ++ ['=']) := by decide
    have hremoteip : "&remoteip=".toList = '&' :: ("remoteip".toList ++ ['=']) := by decide
    unfold body
    simp only [hsecret, hresponse, hremoteip, List.intercalate_cons_cons,
      List.intercalate_singleton, List.append_assoc, List.cons_append, List.nil_append]
  have hpart : ∀ name : Str, '&' ∉ name → ∀ s, '&' ∉ name ++ '=' :: urlenc s := by
    intro name hname s hmem
    obtain hmem | hmem := List.mem_append.mp hmem
    · exact hname hmem
    · cases hmem with
      | tail _ hmem => exact amp_not_mem hmem
  rw [fields, hbody, List.splitOn_intercalate]
  · simp only [List.map_cons, List.map_nil]
    rw [field_urlenc (by decide) (by decide), field_urlenc (by decide) (by decide),
      field_urlenc (by decide) (by decide)]
  · intro part hmem
    cases hmem with
    | head => exact hpart _ (by decide) secret
    | tail _ hmem =>
      cases hmem with
      | head => exact hpart _ (by decide) token
      | tail _ hmem =>
        rw [List.mem_singleton.mp hmem]
        exact hpart _ (by decide) remoteIp
  · exact List.cons_ne_nil _ _

/-- The body has unreserved bytes, percent signs and the two separators. -/
lemma body_bytes (h : x ∈ utf8 (body secret token remoteIp)) :
    isUnreserved x = true ∨ x = 37 ∨ x = 38 ∨ x = 61 := by
  have hname : ∀ name : Str, (utf8 name).all (fun x => isUnreserved x || x == 38 || x == 61) = true →
      x ∈ utf8 name → isUnreserved x = true ∨ x = 37 ∨ x = 38 ∨ x = 61 := by
    intro name hall hx
    have hx := List.all_eq_true.mp hall x hx
    simp only [Bool.or_eq_true, beq_iff_eq] at hx
    obtain (hx | hx) | hx := hx
    · exact .inl hx
    · exact .inr (.inr (.inl hx))
    · exact .inr (.inr (.inr hx))
  have hvalue : ∀ s, x ∈ utf8 (urlenc s) → isUnreserved x = true ∨ x = 37 ∨ x = 38 ∨ x = 61 := by
    intro s hx
    cases utf8_urlenc hx with
    | inl hx => exact .inl hx
    | inr hx => exact .inr (.inl hx)
  unfold body at h
  simp only [utf8_append, List.mem_append] at h
  obtain ((((h | h) | h) | h) | h) | h := h
  · exact hname "secret=" (by decide) h
  · exact hvalue secret h
  · exact hname "&response=" (by decide) h
  · exact hvalue token h
  · exact hname "&remoteip=" (by decide) h
  · exact hvalue remoteIp h

/-- A number has no line end. -/
lemma dec_text {n : Nat} : 13 ∉ utf8 (dec n) ∧ 10 ∉ utf8 (dec n) := by
  have hdigit : ∀ c ∈ dec n, 13 ∉ String.utf8EncodeChar c ∧ 10 ∉ String.utf8EncodeChar c := by
    intro c hc
    have key : ∀ m : Fin 128, (Char.ofNat m).isDigit = true →
        13 ∉ String.utf8EncodeChar (Char.ofNat m) ∧ 10 ∉ String.utf8EncodeChar (Char.ofNat m) := by
      decide
    have hd := isDigit_of_mem_dec hc
    have hle : c.toNat ≤ 57 := by
      simp only [Char.isDigit, Bool.and_eq_true, decide_eq_true_eq] at hd
      exact hd.2
    obtain ⟨m, rfl⟩ := exists_ascii (Nat.lt_of_le_of_lt hle (by decide : 57 < 128))
    exact key m hd
  constructor
  · intro h
    obtain ⟨c, hc, hx⟩ := List.mem_flatMap.mp h
    exact (hdigit c hc).1 hx
  · intro h
    obtain ⟨c, hc, hx⟩ := List.mem_flatMap.mp h
    exact (hdigit c hc).2 hx

/-- The lines of the header are lines. -/
lemma headerLines_text {provider : Provider} {length : Nat} :
    ∀ line ∈ (headerLines provider length).map utf8, HeaderText line := by
  have hlength : HeaderText (utf8 ("Content-Length: " ++ dec length)) := by
    have hlabel : HeaderText (utf8 "Content-Length: ") := ⟨by decide, by decide, by decide⟩
    rw [utf8_append]
    exact hlabel.append dec_text.1 dec_text.2
  intro line hline
  obtain ⟨l, hl, rfl⟩ := List.mem_map.mp hline
  simp only [headerLines, List.mem_cons, List.not_mem_nil, or_false] at hl
  obtain rfl | rfl | rfl | rfl | rfl | rfl | rfl := hl
  · cases provider with
    | turnstile => exact ⟨by decide, by decide, by decide⟩
    | hcaptcha => exact ⟨by decide, by decide, by decide⟩
  · cases provider with
    | turnstile => exact ⟨by decide, by decide, by decide⟩
    | hcaptcha => exact ⟨by decide, by decide, by decide⟩
  · exact ⟨by decide, by decide, by decide⟩
  · exact ⟨by decide, by decide, by decide⟩
  · exact hlength
  · exact ⟨by decide, by decide, by decide⟩
  · exact ⟨by decide, by decide, by decide⟩

/-- The request is the header, an empty line and the body. -/
lemma utf8_request {provider : Provider} : utf8 (request provider secret token remoteIp)
    = header provider (byteLen (body secret token remoteIp))
      ++ (doubleCrlf ++ utf8 (body secret token remoteIp)) := by
  have hversion : " HTTP/1.1\r\n".toList = " HTTP/1.1".toList ++ ['\r', '\n'] := by decide
  have hagent : "User-Agent: 2t1-waf\r\n".toList = "User-Agent: 2t1-waf".toList ++ ['\r', '\n'] := by
    decide
  have htype : "Content-Type: application/x-www-form-urlencoded\r\n".toList
      = "Content-Type: application/x-www-form-urlencoded".toList ++ ['\r', '\n'] := by
    decide
  have hconn : "Connection: close\r\n".toList = "Connection: close".toList ++ ['\r', '\n'] := by decide
  have haccept : "Accept: application/json\r\n\r\n".toList
      = "Accept: application/json".toList ++ ['\r', '\n', '\r', '\n'] := by
    decide
  have hend : "\r\n".toList = ['\r', '\n'] := by decide
  have hrequest : request provider secret token remoteIp
      = ['\r', '\n'].intercalate (headerLines provider (byteLen (body secret token remoteIp)))
        ++ (['\r', '\n', '\r', '\n'] ++ body secret token remoteIp) := by
    unfold request headerLines
    simp only [hversion, hagent, htype, hconn, haccept, hend, List.intercalate_cons_cons,
      List.intercalate_singleton, List.append_assoc]
  have hcrlf : utf8 ['\r', '\n'] = crlf := by decide
  have hdouble : utf8 ['\r', '\n', '\r', '\n'] = doubleCrlf := by decide
  rw [hrequest, utf8_append, utf8_append, utf8_intercalate, hcrlf, hdouble]
  rfl

/-- A captcha verification cannot be tampered with. The form that the provider splits and decodes has the
three fields with their bytes, the body has no byte that is not unreserved, a percent sign or a separator,
and the first empty line of the request ends a header in which of the fields only the length of the body
is seen. What follows is the body of this length. -/
theorem siteverify_fields (provider : Provider) (secret token remoteIp : Str) :
    fields (body secret token remoteIp)
        = [some (utf8 "secret", utf8 secret), some (utf8 "response", utf8 token),
          some (utf8 "remoteip", utf8 remoteIp)]
      ∧ (∀ x ∈ utf8 (body secret token remoteIp),
        isUnreserved x = true ∨ x = 37 ∨ x = 38 ∨ x = 61)
      ∧ ∃ length, position doubleCrlf (utf8 (request provider secret token remoteIp))
          = some (header provider length).length
        ∧ (utf8 (request provider secret token remoteIp)).take (header provider length).length
          = header provider length
        ∧ (utf8 (request provider secret token remoteIp)).drop ((header provider length).length + 4)
          = utf8 (body secret token remoteIp)
        ∧ (utf8 (body secret token remoteIp)).length = length := by
  refine ⟨fields_body, fun x hx => body_bytes hx, byteLen (body secret token remoteIp), ?_, ?_, ?_,
    rfl⟩
  · rw [utf8_request]
    exact position_header (List.cons_ne_nil _ _) headerLines_text
  · rw [utf8_request, List.take_left]
  · rw [utf8_request, ← List.append_assoc]
    exact List.drop_left' List.length_append

end Siteverify

/-- A token that tries to override the secret and to add a header line. -/
example : Siteverify.urlenc "a&secret=b\r\nX: y" = "a%26secret%3Db%0D%0AX%3A%20y".toList := by decide

end Waf
