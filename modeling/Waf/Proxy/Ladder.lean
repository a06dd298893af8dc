import Waf.Proxy.Context
import Waf.Token.Separation

/-!
# The challenge ladder

What a challenged visitor is served: with the browser check on and no BIC cookie that verifies, the
integrity page, and then a captcha or the proof of work. `handle_bic_verify` mints the cookie for the
resolved client address, but `serve_challenge` checks it with the address of the socket, which behind
a proxy is the proxy's. `ladder_progress_iff` says who gets past the first page. The JSON parser is a
parameter.
-/

namespace Waf
open Lib

inductive Provider where
  | turnstile
  | hcaptcha
  deriving DecidableEq

def Provider.fromStr (s : Str) : Provider :=
  if toAsciiLower s = "hcaptcha".toList then .hcaptcha else .turnstile

/-- The page of a challenge, with what it shows: the integrity check, a captcha or the proof of
work. -/
inductive Page where
  | bic (token : BicToken) (requestId original : Str)
  | captcha (provider : Provider) (siteKey requestId original : Str)
  | pow (token : ChallengeToken) (requestId : Str)

def Page.status : Page → Nat
  | bic .. => 200
  | captcha .. | pow .. => 403

/-- The header `x-waf-action`. -/
def Page.action : Page → Str
  | bic .. => "bic"
  | captcha .. => "captcha"
  | pow .. => "challenge"

/-- The body that `handle_bic_verify` expects. -/
structure BicSubmit where
  c : Str
  e : Nat
  s : Str
  p : Str

/-- The body read from its chunks, up to the chunk that reaches the limit. -/
def readBody (limit : Nat) : List UInt8 → List (List UInt8) → List UInt8
  | buf, [] => buf
  | buf, chunk :: chunks => if buf.length < limit then readBody limit (buf ++ chunk) chunks else buf

/-- The reply of `handle_bic_verify`: 204 with a cookie, or 400. -/
inductive BicReply where
  | minted (name value : Str)
  | failed
  deriving DecidableEq

namespace BicReply

def status : BicReply → Nat
  | minted .. => 204
  | failed => 400

/-- The header `set-cookie`. -/
def setCookie : BicReply → Option Str
  | minted name value =>
    some (name ++ "=" ++ value ++ "; Path=/; Max-Age=" ++ dec Bic.COOKIE_TTL_SECS
      ++ "; HttpOnly; SameSite=Lax")
  | failed => none

end BicReply

def handleBicVerify (crates : Crates) (json : List UInt8 → Option BicSubmit) (e : Engine)
    (body : List (List UInt8)) (clientIp : IpAddr) (now : Nat) : BicReply :=
  let ok := (json (readBody 1024 [] body)).any fun s =>
    (e.bic.verifyProof crates now s.c s.e s.s s.p).isOk
  if ok then
    let cookie := e.bic.mint crates now clientIp
    .minted cookie.1 cookie.2
  else .failed

/-- The cookies that `serve_challenge` reads, of the first line of the name. -/
def Session.cookies (s : Session) : HashMap Str Str :=
  parseCookieHeader (((headerGet s.headers "cookie").bind HeaderValue.toStr).getD [])

/-- Does `serve_challenge` regard the BIC cookie as present? -/
def bicPresent (crates : Crates) (e : Engine) (s : Session) (now : Nat) : Bool :=
  (s.cookies.get BIC_COOKIE_NAME).any fun c => e.bic.verifyCookie crates now c (socketIp s.clientAddr)

/-- `serve_challenge`, with the random bytes of the two tokens. -/
def serveChallenge (crates : Crates) (e : Engine) (s : Session) (d : Decision) (now : Nat)
    (bicChal : Vector UInt8 12) (powChal : Vector UInt8 16) : Page :=
  let rt := e.runtime
  let original := s.pathAndQuery.getD "/"
  if rt.defenses.bic && !bicPresent crates e s now then
    .bic (e.bic.issue crates now bicChal) d.requestId original
  else if (rt.challengeModeV = .interactive ∨ rt.challengeModeV = .combined)
      ∧ rt.turnstileSiteKey ≠ [] then
    .captcha (.fromStr rt.turnstileProvider) rt.turnstileSiteKey d.requestId original
  else .pow (e.challenger.issue crates now powChal) d.requestId

/-- Is a page past the integrity check? -/
def Page.Past : Page → Prop
  | bic .. => False
  | captcha .. | pow .. => True

section

variable {crates : Crates} {json : List UInt8 → Option BicSubmit} {e : Engine} {s : Session}
  {d : Decision} {now : Nat} {bicChal : Vector UInt8 12} {powChal : Vector UInt8 16}

/-- With the cookie present the page is past the integrity check. -/
lemma serveChallenge_past (h : bicPresent crates e s now = true) :
    (serveChallenge crates e s d now bicChal powChal).Past := by
  simp only [serveChallenge, h, Bool.not_true, Bool.and_false, Bool.false_eq_true, if_false]
  split
  case isTrue => trivial
  case isFalse => trivial

/-- What `handle_bic_verify` mints. -/
lemma minted_eq {body : List (List UInt8)} {ip : IpAddr} {name value : Str}
    (h : handleBicVerify crates json e body ip now = .minted name value) :
    name = BIC_COOKIE_NAME ∧ value = (e.bic.mint crates now ip).2 := by
  simp only [handleBicVerify] at h
  split at h
  case isTrue =>
    cases h
    exact ⟨rfl, rfl⟩
  case isFalse => cases h

/-- A minted cookie passes from the subnet it was minted for until it expires. -/
lemma verifyCookie_minted {b : Bic} {t : Nat} {a ip : IpAddr} :
    b.verifyCookie crates now (b.mint crates t a).2 ip = true
      ↔ SameSubnet a ip ∧ now < (t + Bic.COOKIE_TTL_SECS) % 2 ^ 64 :=
  @bicCookie_complete crates (.new b.secret [] 0 0) t a now ip

/-- A visitor who carries a cookie that was minted for the address `a` and has not expired has it
present iff the address of the socket lies in the subnet of `a`. -/
lemma bicPresent_minted {e₀ : Engine} {a : IpAddr} {t : Nat} {body : List (List UInt8)}
    {name value : Str} (hbic : e.bic = e₀.bic)
    (hmint : handleBicVerify crates json e₀ body a t = .minted name value)
    (hcarry : s.cookies.get name = some value)
    (hexp : now < (t + Bic.COOKIE_TTL_SECS) % 2 ^ 64) :
    bicPresent crates e s now = true ↔ SameSubnet a (socketIp s.clientAddr) := by
  obtain ⟨rfl, rfl⟩ := minted_eq hmint
  rw [bicPresent, hcarry, Option.any_some, hbic, verifyCookie_minted]
  exact and_iff_left hexp

/-- Who gets past the first page. A visitor who carries a cookie that was minted for a resolved
address and has not expired is served the captcha or the proof of work iff the address of the socket
lies in the subnet of that address, whatever its own resolved address. Without proxies the resolved
address is that of the socket, so every visitor who stays in its subnet makes progress. -/
theorem ladder_progress_iff {e₀ : Engine} {s₀ : Session} {hops t : Nat} {body : List (List UInt8)}
    {name value : Str} (hbic : e.bic = e₀.bic)
    (hmint : handleBicVerify crates json e₀ body (resolveClientIp s₀.clientAddr s₀.headers hops) t
      = .minted name value)
    (hcarry : s.cookies.get name = some value)
    (hexp : now < (t + Bic.COOKIE_TTL_SECS) % 2 ^ 64) :
    ((bicPresent crates e s now = true ∧ (serveChallenge crates e s d now bicChal powChal).Past)
        ↔ SameSubnet (resolveClientIp s₀.clientAddr s₀.headers hops) (socketIp s.clientAddr))
      ∧ (hops = 0 → SameSubnet (resolveClientIp s₀.clientAddr s₀.headers hops)
          (resolveClientIp s.clientAddr s.headers hops) →
        (serveChallenge crates e s d now bicChal powChal).Past) := by
  have hpresent : bicPresent crates e s now = true
      ↔ SameSubnet (resolveClientIp s₀.clientAddr s₀.headers hops) (socketIp s.clientAddr) :=
    bicPresent_minted hbic hmint hcarry hexp
  refine ⟨(and_iff_left_of_imp serveChallenge_past).trans hpresent, ?_⟩
  rintro rfl hsub
  have hsocket : resolveClientIp s.clientAddr s.headers 0 = socketIp s.clientAddr := rfl
  rw [hsocket] at hsub
  exact serveChallenge_past (hpresent.mpr hsub)

end

/-- The proof that the crates of the example want. -/
def sampleSubmit : BicSubmit := ⟨"c", 1700000060, "", "0000000000000000"⟩

/-- A visitor behind one proxy. -/
def proxied (headers : List HeaderLine) : Session where
  clientAddr := some (.inet (.v4 (.new 10 0 0 1)))
  method := "GET"
  uri := "/"
  path := "/"
  query := none
  pathAndQuery := some "/"
  version := "HTTP/1.1"
  headers := ⟨"x-forwarded-for", utf8 "1.2.3.4"⟩ :: headers

/-- The cookie that is minted for the visitor. -/
def proxiedCookie : Str :=
  (Engine.sampleEngine.bic.mint idleCrates 1700000000 (.v4 (.new 1 2 3 4))).2

/-- The next request of the visitor, with the cookie. -/
def proxiedNext : Session :=
  proxied [⟨"cookie", utf8 (BIC_COOKIE_NAME ++ '=' :: proxiedCookie)⟩]

/-- The post through the proxy is answered with a cookie. -/
lemma proxied_minted : handleBicVerify idleCrates (fun _ => some sampleSubmit) Engine.sampleEngine []
    (resolveClientIp (proxied []).clientAddr (proxied []).headers 1) 1700000000
    = .minted BIC_COOKIE_NAME proxiedCookie := by decide

/-- The next request carries it. -/
lemma proxied_carries : proxiedNext.cookies.get BIC_COOKIE_NAME = some proxiedCookie := by
  decide

/-- A proxy that is trusted, and the request after the post. -/
theorem ladder_progress_iff_witness :
    (bicPresent idleCrates Engine.sampleEngine proxiedNext 1700000100 = true
        ∧ (serveChallenge idleCrates Engine.sampleEngine proxiedNext (.challenge "t" 50 [])
          1700000100 (.replicate 12 0) (.replicate 16 0)).Past)
      ↔ SameSubnet (resolveClientIp (proxied []).clientAddr (proxied []).headers 1)
        (socketIp proxiedNext.clientAddr) :=
  (ladder_progress_iff rfl proxied_minted proxied_carries (by decide)).1

/-- The visitor, whose resolved address has not changed, is served the integrity page again. -/
theorem proxied_stuck :
    handleBicVerify idleCrates (fun _ => some sampleSubmit) Engine.sampleEngine []
        (resolveClientIp (proxied []).clientAddr (proxied []).headers 1) 1700000000
        = .minted BIC_COOKIE_NAME proxiedCookie
      ∧ proxiedNext.cookies.get BIC_COOKIE_NAME = some proxiedCookie
      ∧ resolveClientIp proxiedNext.clientAddr proxiedNext.headers 1 = .v4 (.new 1 2 3 4)
      ∧ resolveClientIp (proxied []).clientAddr (proxied []).headers 1 = .v4 (.new 1 2 3 4)
      ∧ bicPresent idleCrates Engine.sampleEngine proxiedNext 1700000100 = false
      ∧ (serveChallenge idleCrates Engine.sampleEngine proxiedNext (.challenge "t" 50 [])
        1700000100 (.replicate 12 0) (.replicate 16 0)).action = "bic".toList :=
  ⟨proxied_minted, proxied_carries, by decide, by decide, by decide,
    by decide⟩

end Waf
