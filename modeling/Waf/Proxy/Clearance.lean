import Waf.Proxy.Filter
import Waf.Proxy.Siteverify
import Waf.Token.Separation
import Waf.Token.Work

/-!
# Clearances

How a visitor comes by a clearance cookie, and what it is good for: `handle_verify` mints one for a proof
of work, `handle_turnstile_verify` for a captcha that the provider accepts. The JSON parsers and the
connection to the provider are parameters.

Who runs the script of the page and posts what it ends with is not challenged again before the cookie
expires (`solver_cleared`). Over a whole run of the server, whatever is posted, every clearance has a
captcha behind it or a token that was worked for in time, if need be through earlier clearances
(`clearance_earned`). The detour is a real one: the signature of a clearance reads as that of the token
`clr`, and the work for this token does not depend on its expiry, so one nonce keeps a visitor cleared for
good (`renewed_forever`).
-/

namespace Waf
open Lib

/-- The body that `handle_verify` expects. -/
structure PowSubmit where
  c : Str
  n : Str
  s : Str
  e : Nat
  deriving DecidableEq

/-- The JSON parsers of the bodies, and the connection to a provider. -/
structure Readers where
  submit : List UInt8 → Option PowSubmit
  bicSubmit : List UInt8 → Option BicSubmit
  captchaToken : List UInt8 → Option Str
  /-- The field `success` of a `VerifyResponse`. -/
  success : List UInt8 → Option Bool
  /-- What is read of the answer to a request, in pieces. `none` if the connection fails or the time is
  up. -/
  exchange : Provider → Str → Option (List (List UInt8))

/-- The reply of the two handlers: 204 with a cookie, or an error. -/
inductive ClearanceReply where
  | minted (name value : Str) (ttl : Nat)
  | refused (status : Nat) (error : Str)
  deriving DecidableEq

namespace ClearanceReply

def status : ClearanceReply → Nat
  | minted .. => 204
  | refused status _ => status

def body : ClearanceReply → Str
  | minted .. => []
  | refused _ error => "\x7b\"error\":\"" ++ error ++ "\"\x7d"

/-- The header `set-cookie`. -/
def setCookie : ClearanceReply → Option Str
  | minted name value ttl =>
    some (name ++ "=" ++ value ++ "; Path=/; Max-Age=" ++ dec ttl ++ "; HttpOnly; SameSite=Lax")
  | refused .. => none

end ClearanceReply

namespace Siteverify

/-- The pieces of an answer, up to its end or the one that exceeds 16 KiB. -/
def readAnswer : List UInt8 → List (List UInt8) → List UInt8
  | buf, [] => buf
  | buf, chunk :: chunks =>
    if chunk = [] then buf
    else if 16 * 1024 < (buf ++ chunk).length then buf ++ chunk
    else readAnswer (buf ++ chunk) chunks

/-- `do_verify`. `none` is an error. -/
def doVerify (rd : Readers) (provider : Provider) (secret token remoteIp : Str) : Option Bool := do
  let chunks ← rd.exchange provider (request provider secret token remoteIp)
  let buf := readAnswer [] chunks
  let i ← position doubleCrlf buf
  rd.success (buf.drop (i + 4))

def verify (rd : Readers) (provider : Provider) (secret token remoteIp : Str) : Bool :=
  if secret.isEmpty || token.isEmpty then false
  else (doVerify rd provider secret token remoteIp).getD false

end Siteverify

def handleVerify (crates : Crates) (rd : Readers) (e : Engine) (body : List (List UInt8)) (now : Nat) :
    ClearanceReply :=
  let ok := (rd.submit (readBody 4096 [] body)).any fun s =>
    (e.challenger.verify crates now s.c s.n s.s s.e).isOk
  if ok then
    .minted e.challenger.cookieName (e.challenger.mintClearance crates now) e.challenger.cookieTtl
  else .refused 400 "verification failed"

def handleTurnstileVerify (crates : Crates) (rd : Readers) (e : Engine) (body : List (List UInt8))
    (clientIp : IpAddr) (now : Nat) : ClearanceReply :=
  let token := (rd.captchaToken (readBody 8192 [] body)).getD []
  let secret := e.runtime.turnstileSecret
  let provider := Provider.fromStr e.runtime.turnstileProvider
  if secret.isEmpty then .refused 503 "captcha not configured"
  else if Siteverify.verify rd provider secret token clientIp.toStr then
    .minted e.challenger.cookieName (e.challenger.mintClearance crates now) e.challenger.cookieTtl
  else .refused 403 "captcha verification failed"

/-! ## The two handlers -/

/-- A submission that `handle_verify` takes. -/
structure Submitted (crates : Crates) (rd : Readers) (c : Challenger) (body : List (List UInt8))
    (now : Nat) (s : PowSubmit) : Prop where
  read : rd.submit (readBody 4096 [] body) = some s
  inTime : now ≤ s.e
  signed : sign crates c.secret s.c s.e = s.s
  worked : verifyPow crates s.c s.n c.powDifficulty = true

/-- The provider has accepted the token of a body for the address. -/
structure CaptchaPassed (rd : Readers) (rt : Runtime) (body : List (List UInt8)) (ip : IpAddr) :
    Prop where
  configured : rt.turnstileSecret ≠ []
  accepted : ∃ token chunks i, rd.captchaToken (readBody 8192 [] body) = some token ∧ token ≠ []
    ∧ rd.exchange (.fromStr rt.turnstileProvider) (Siteverify.request (.fromStr rt.turnstileProvider)
        rt.turnstileSecret token ip.toStr) = some chunks
    ∧ position doubleCrlf (Siteverify.readAnswer [] chunks) = some i
    ∧ rd.success ((Siteverify.readAnswer [] chunks).drop (i + 4)) = some true

section

variable {crates : Crates} {rd : Readers} {c : Challenger} {e : Engine} {body : List (List UInt8)}
  {ip : IpAddr} {now : Nat} {name value : Str} {ttl : Nat}

/-- A check that is passed has no other result. -/
lemma isOk_iff {ε : Type} {x : Except ε Unit} : x.isOk = true ↔ x = .ok () := by
  cases x with
  | error => exact ⟨nofun, nofun⟩
  | ok => exact ⟨fun _ => rfl, fun _ => rfl⟩

/-- `handle_verify` mints for the submissions that it takes, and nothing else. -/
lemma handleVerify_minted_iff : handleVerify crates rd e body now = .minted name value ttl
    ↔ (∃ s, Submitted crates rd e.challenger body now s) ∧ name = e.challenger.cookieName
      ∧ value = e.challenger.mintClearance crates now ∧ ttl = e.challenger.cookieTtl := by
  have hok : ((rd.submit (readBody 4096 [] body)).any fun s =>
      (e.challenger.verify crates now s.c s.n s.s s.e).isOk) = true
        ↔ ∃ s, Submitted crates rd e.challenger body now s := by
    rw [Option.any_eq_true]
    refine exists_congr fun s => ?_
    rw [isOk_iff, Challenger.verify_iff]
    exact ⟨fun h => ⟨h.1, h.2.1, h.2.2.1, h.2.2.2⟩, fun h => ⟨h.1, h.2, h.3, h.4⟩⟩
  rw [← hok]
  unfold handleVerify
  simp only
  split
  case isTrue h =>
    rw [ClearanceReply.minted.injEq]
    exact ⟨fun ⟨hn, hv, ht⟩ => ⟨h, hn.symm, hv.symm, ht.symm⟩,
      fun ⟨_, hn, hv, ht⟩ => ⟨hn.symm, hv.symm, ht.symm⟩⟩
  case isFalse h => exact ⟨nofun, fun h' => absurd h'.1 h⟩

/-- The verification ends well only if the provider says so: a failed connection, an answer without an
empty line and one that does not parse count as a failure. -/
lemma siteverify_iff {provider : Provider} {secret token remoteIp : Str} :
    Siteverify.verify rd provider secret token remoteIp = true
      ↔ secret ≠ [] ∧ token ≠ [] ∧ ∃ chunks i,
        rd.exchange provider (Siteverify.request provider secret token remoteIp) = some chunks
        ∧ position doubleCrlf (Siteverify.readAnswer [] chunks) = some i
        ∧ rd.success ((Siteverify.readAnswer [] chunks).drop (i + 4)) = some true := by
  have hverified : (Siteverify.doVerify rd provider secret token remoteIp).getD false = true
      ↔ Siteverify.doVerify rd provider secret token remoteIp = some true := by
    cases Siteverify.doVerify rd provider secret token remoteIp with
    | none =>
      constructor
      · intro h
        cases h
      · intro h
        cases h
    | some b => exact Option.some_inj.symm
  unfold Siteverify.verify
  split
  case isTrue h =>
    rw [Bool.or_eq_true, List.isEmpty_iff, List.isEmpty_iff] at h
    constructor
    · intro hverify
      cases hverify
    · rintro ⟨hs, ht, -⟩
      exact (h.elim hs ht).elim
  case isFalse h =>
    rw [Bool.or_eq_true, List.isEmpty_iff, List.isEmpty_iff, not_or] at h
    rw [hverified, Siteverify.doVerify]
    simp only [Option.bind_eq_bind, Option.bind_eq_some_iff]
    constructor
    · rintro ⟨chunks, hx, i, hi, hb⟩
      exact ⟨h.1, h.2, chunks, i, hx, hi, hb⟩
    · rintro ⟨-, -, chunks, i, hx, hi, hb⟩
      exact ⟨chunks, hx, i, hi, hb⟩

/-- `handle_turnstile_verify` mints for the captchas that the provider accepts, and nothing else. -/
lemma handleTurnstileVerify_minted_iff :
    handleTurnstileVerify crates rd e body ip now = .minted name value ttl
      ↔ CaptchaPassed rd e.runtime body ip ∧ name = e.challenger.cookieName
        ∧ value = e.challenger.mintClearance crates now ∧ ttl = e.challenger.cookieTtl := by
  have hok : Siteverify.verify rd (.fromStr e.runtime.turnstileProvider) e.runtime.turnstileSecret
      ((rd.captchaToken (readBody 8192 [] body)).getD []) ip.toStr = true
        ↔ CaptchaPassed rd e.runtime body ip := by
    rw [siteverify_iff]
    constructor
    · rintro ⟨hsecret, htoken, chunks, i, hx, hi, hb⟩
      refine ⟨hsecret, ?_⟩
      cases hread : rd.captchaToken (readBody 8192 [] body) with
      | none =>
        rw [hread] at htoken
        exact absurd rfl htoken
      | some token =>
        rw [hread] at htoken hx
        exact ⟨token, chunks, i, rfl, htoken, hx, hi, hb⟩
    · rintro ⟨hsecret, token, chunks, i, hread, htoken, hx, hi, hb⟩
      rw [hread]
      exact ⟨hsecret, htoken, chunks, i, hx, hi, hb⟩
  rw [← hok]
  unfold handleTurnstileVerify
  simp only
  split
  case isTrue h =>
    refine ⟨nofun, fun h' => ?_⟩
    exact absurd (List.isEmpty_iff.mp h) (hok.mp h'.1).configured
  case isFalse =>
    split
    case isTrue h =>
      rw [ClearanceReply.minted.injEq]
      exact ⟨fun ⟨hn, hv, ht⟩ => ⟨h, hn.symm, hv.symm, ht.symm⟩,
        fun ⟨_, hn, hv, ht⟩ => ⟨hn.symm, hv.symm, ht.symm⟩⟩
    case isFalse h => exact ⟨nofun, fun h' => absurd h'.1 h⟩

end

/-! ## The visitor who solves -/

section

variable {crates : Crates} {rd : Readers} {c : Challenger} {e : Engine} {disk : Disk}
  {ctx : RequestCtx} {nowMs : Nat}

/-- The page of the proof of work has a token of the challenger. -/
lemma serveChallenge_pow {s : Session} {d : Decision} {now : Nat} {bicChal : Vector UInt8 12}
    {powChal : Vector UInt8 16} {token : ChallengeToken} {requestId : Str}
    (h : serveChallenge crates e s d now bicChal powChal = .pow token requestId) :
    token = e.challenger.issue crates now powChal := by
  simp only [serveChallenge] at h
  split at h
  case isTrue => cases h
  case isFalse =>
    split at h
    case isTrue => cases h
    case isFalse =>
      cases h
      rfl

namespace Engine

/-- A cleared request is allowed or, by a check before the cookie, blocked. -/
lemma cleared_decision (h : e.cleared crates ctx nowMs = true) :
    ((e.evaluate crates disk ctx nowMs).1.action = .allow
        ∨ (e.evaluate crates disk ctx nowMs).1.action = .block)
      ∧ (Admitted e ctx nowMs → (e.evaluate crates disk ctx nowMs).1.action = .allow) := by
  show ((e.pipeline crates disk ctx nowMs).1.action = .allow
      ∨ (e.pipeline crates disk ctx nowMs).1.action = .block)
    ∧ (Admitted e ctx nowMs → (e.pipeline crates disk ctx nowMs).1.action = .allow)
  have hexit := @pipeline_exit crates e disk ctx nowMs
  generalize e.pipeline crates disk ctx nowMs = res at hexit
  cases hexit with
  | listed hd =>
    exact ⟨listed_cases hd, fun adm => absurd (adm.listed.symm.trans hd) nofun⟩
  | crawler => exact ⟨.inl rfl, fun _ => rfl⟩
  | trapped un hr => exact ⟨.inr rfl, fun adm => absurd (adm.trapped.symm.trans hr) nofun⟩
  | overCap un hr hd =>
    exact ⟨.inr (overCap_block hd).1, fun adm => absurd (adm.overCap.symm.trans hd) nofun⟩
  | hardLimits un hr hc hd =>
    exact ⟨.inr (hardLimits_block hd), fun adm => absurd (adm.hardLimits.symm.trans hd) nofun⟩
  | limited un hr hc hl hk => exact ⟨.inr rfl, fun adm => absurd (adm.limiter.symm.trans hk) nofun⟩
  | cleared => exact ⟨.inl rfl, fun _ => rfl⟩
  | forced adm hc => exact absurd (h.symm.trans hc) nofun
  | scored adm hc => exact absurd (h.symm.trans hc) nofun

/-- A clearance that is sent before it expires clears the request. -/
lemma cleared_minted {t : Nat} (h : e.challenger = c)
    (hcarry : ctx.cookie c.cookieName = some (c.mintClearance crates t))
    (hexp : nowMs / 1000 < (t + c.cookieTtl) % 2 ^ 64) :
    (e.enter ctx.clientIp).cleared crates ctx nowMs = true := by
  show (ctx.cookie e.challenger.cookieName).any
    (fun v => e.challenger.verifyClearance crates (nowMs / 1000) v) = true
  rw [h, hcarry, Option.any_some, clearance_complete]
  exact hexp

/-- A cleared request is not challenged or held in the tarpit. -/
lemma decided_of_cleared {d : Decision} (h : (e.enter ctx.clientIp).cleared crates ctx nowMs = true)
    (hd : (e.requestFilter crates disk ctx nowMs).1 = .decided d) :
    (d.action = .allow ∨ d.action = .block)
      ∧ (Admitted (e.enter ctx.clientIp) ctx nowMs → d.action = .allow) := by
  have hcases := @cleared_decision crates _ disk _ _ h
  simp only [requestFilter] at hd
  split at hd
  case isTrue => cases hd
  case isFalse =>
    split at hd
    case h_1 => cases hd
    case h_2 =>
      cases hd
      exact hcases

end Engine

/-- Who runs the script of the page and posts what it ends with before the token expires is handed a
cookie. With this cookie, until it expires, no request is challenged or held in the tarpit: it is allowed
or, by a check before the cookie, blocked. -/
theorem solver_cleared {secret cookieName : Str} {cookieTtl difficulty : Nat} {e₀ e₁ : Engine}
    {s : Session} {d : Decision} {t₀ t₁ fuel nonce : Nat} {bicChal : Vector UInt8 12}
    {powChal : Vector UInt8 16} {token : ChallengeToken} {requestId : Str} {body : List (List UInt8)}
    (hc : c = .new secret cookieName cookieTtl difficulty) (h₀ : e₀.challenger = c)
    (h₁ : e₁.challenger = c)
    (hpage : serveChallenge crates e₀ s d t₀ bicChal powChal = .pow token requestId)
    (hsearch : Script.search crates token fuel 0 = some nonce)
    (hpost : rd.submit (readBody 4096 [] body)
      = some ⟨token.challenge, dec nonce, token.signature, token.expiresAt⟩)
    (hintime : t₁ ≤ token.expiresAt) :
    handleVerify crates rd e₁ body t₁
        = .minted cookieName (c.mintClearance crates t₁) cookieTtl
      ∧ ∀ (e₂ : Engine) (disk : Disk) (ctx : RequestCtx) (nowMs : Nat), e₂.challenger = c →
        ctx.cookie cookieName = some (c.mintClearance crates t₁) →
        nowMs / 1000 < (t₁ + cookieTtl) % 2 ^ 64 →
        ∀ d, (e₂.requestFilter crates disk ctx nowMs).1 = .decided d →
          (d.action = .allow ∨ d.action = .block)
            ∧ (Engine.Admitted (e₂.enter ctx.clientIp) ctx nowMs → d.action = .allow) := by
  have htoken : token = c.issue crates t₀ powChal := h₀ ▸ serveChallenge_pow hpage
  have hdifficulty : token.difficulty = c.powDifficulty := by rw [htoken]; rfl
  have hsmall : token.difficulty ≤ 64 := by
    rw [hdifficulty, hc]
    exact new_difficulty_le
  have hsolved := (Script.solves_iff hsmall).mp (Script.search_eq_some.mp hsearch).1
  have hsubmitted : Submitted crates rd e₁.challenger body t₁
      ⟨token.challenge, dec nonce, token.signature, token.expiresAt⟩ := by
    refine ⟨hpost, hintime, ?_, ?_⟩
    · rw [h₁, htoken]
      rfl
    · rw [h₁, ← hdifficulty]
      exact hsolved
  have hname : c.cookieName = cookieName := by rw [hc]; rfl
  have httl : c.cookieTtl = cookieTtl := by rw [hc]; rfl
  constructor
  · exact handleVerify_minted_iff.mpr ⟨⟨_, hsubmitted⟩, by rw [h₁, hname], by rw [h₁], by rw [h₁, httl]⟩
  · intro e₂ disk ctx nowMs h₂ hcarry hexp d hdecided
    refine Engine.decided_of_cleared ?_ hdecided
    exact Engine.cleared_minted h₂ (by rw [hname, hcarry]) (by rwa [httl])

end

/-! ### A visitor -/

/-- A challenger of difficulty 1. -/
def visitServer : Challenger := .new "a-very-secret-key-of-some-length" "__2t1_clearance" 1800 1

/-- The signature of the token that it issues at 1700000000 s. -/
def visitTokenSig : Str := "IeBJ0eGB-hEwON3kJQF6EKDr_Kh3KwA6e8utQ7TLCpk"

/-- The signatures of the clearances of 1700000060 s and 1700001860 s. -/
def visitFirstSig : Str := "8qsp7giO6VYcaRS7jWnI-vuhep8K2mapAuTQPNxBfUU"

def visitSecondSig : Str := "RbBy8aaMmUUGOWge4cX_sd1WkJxO1LMxrsN8Iu98BOI"

/-- The crates on the inputs of the example: the three signatures, and the digests of the challenge
followed by `0` and of `clr3`. -/
def visitCrates : Crates where
  __ := idleCrates
  hmac _ p :=
    if p = "05000000000000000000000000000000|1700000120".toList then visitTokenSig
    else if p = "clr|1700001860".toList then visitFirstSig
    else if p = "clr|1700003660".toList then visitSecondSig
    else []
  sha256 bytes :=
    if bytes = utf8 "clr3" then
      #v[10, 226, 67, 30, 161, 26, 218, 38, 97, 39, 251, 224, 63, 1, 173, 134, 194, 140, 93, 194,
        144, 112, 221, 33, 220, 207, 22, 213, 213, 14, 211, 11]
    else
      #v[0, 159, 145, 170, 192, 179, 179, 164, 63, 86, 164, 37, 135, 87, 113, 145, 30, 65, 74, 188,
        239, 4, 33, 208, 139, 22, 34, 13, 217, 177, 42, 49]

/-- What the script posts. -/
def visitSolved : List UInt8 :=
  utf8 ("\x7b\"c\":\"05000000000000000000000000000000\",\"n\":\"0\",\"s\":\"" ++ visitTokenSig
    ++ "\",\"e\":1700000120\x7d")

/-- What the visitor posts with the first cookie. -/
def visitRenewed : List UInt8 :=
  utf8 ("\x7b\"c\":\"clr\",\"n\":\"3\",\"s\":\"" ++ visitFirstSig ++ "\",\"e\":1700001860\x7d")

/-- The parser on the two bodies. -/
def visitSubmit (bytes : List UInt8) : Option PowSubmit :=
  if bytes = visitSolved then
    some ⟨"05000000000000000000000000000000", "0", visitTokenSig, 1700000120⟩
  else if bytes = visitRenewed then some ⟨"clr", "3", visitFirstSig, 1700001860⟩
  else none

def visitReaders : Readers where
  submit := visitSubmit
  bicSubmit _ := none
  captchaToken _ := none
  success _ := none
  exchange _ _ := none

def visitEngine : Engine :=
  { Engine.sampleEngine with
    challenger := visitServer
    runtime := { Engine.sampleEngine.runtime with
      defenses := { Engine.sampleEngine.runtime.defenses with bic := false } } }

def visitChal : Vector UInt8 16 := #v[5, 0, 0, 0, 0, 0, 0, 0, 0, 0, 0, 0, 0, 0, 0, 0]

/-- The request with the cookie of some time. -/
def visitCtx (t : Nat) : RequestCtx :=
  { Engine.sampleCtx with
    cookies := parseCookieHeader ("__2t1_clearance=" ++ visitServer.mintClearance visitCrates t) }

/-- The first post is read as it was sent. -/
lemma visitSubmit_solved : visitReaders.submit (readBody 4096 [] [visitSolved])
    = some ⟨"05000000000000000000000000000000", "0", visitTokenSig, 1700000120⟩ := by
  show visitSubmit visitSolved = _
  unfold visitSubmit
  exact if_pos rfl

lemma visitSubmit_renewed : visitReaders.submit (readBody 4096 [] [visitRenewed])
    = some ⟨"clr", "3", visitFirstSig, 1700001860⟩ := by
  show visitSubmit visitRenewed = _
  unfold visitSubmit
  rw [if_neg (by decide), if_pos rfl]

/-- The first post of the sample, and a request with its cookie. -/
theorem solver_cleared_witness :
    handleVerify visitCrates visitReaders visitEngine [visitSolved] 1700000060
        = .minted "__2t1_clearance" (visitServer.mintClearance visitCrates 1700000060) 1800
      ∧ ∀ d, (visitEngine.requestFilter visitCrates (fun _ => none) (visitCtx 1700000060) 1700001859999).1
          = .decided d →
        (d.action = .allow ∨ d.action = .block)
          ∧ (Engine.Admitted (visitEngine.enter (visitCtx 1700000060).clientIp)
            (visitCtx 1700000060) 1700001859999 → d.action = .allow) := by
  have hpage : serveChallenge visitCrates visitEngine (proxied []) (.challenge "t" 50 []) 1700000000
      (.replicate 12 0) visitChal = .pow (visitServer.issue visitCrates 1700000000 visitChal) "t" := rfl
  have hsearch : Script.search visitCrates (visitServer.issue visitCrates 1700000000 visitChal) 1 0
      = some 0 := by decide
  have h := @solver_cleared visitCrates visitReaders visitServer _ _ 1800 1 visitEngine visitEngine
    _ _ _ 1700000060 1 0 _ _ _ _ _ rfl rfl rfl hpage hsearch visitSubmit_solved (by decide)
  exact ⟨h.1, h.2 visitEngine (fun _ => none) (visitCtx 1700000060) 1700001859999 rfl (by decide)
    (by decide)⟩

/-! ## The run of a server -/

namespace Clearance

/-- What reaches the server that has to do with tokens: a page is served, or a body is posted. -/
inductive Call where
  | page (s : Session) (d : Decision) (bicChal : Vector UInt8 12) (powChal : Vector UInt8 16)
  | verify (body : List (List UInt8))
  | bicVerify (body : List (List UInt8)) (clientIp : IpAddr)
  | turnstileVerify (body : List (List UInt8)) (clientIp : IpAddr)

/-- A call at some time, with the engine that it meets. -/
structure Visit where
  engine : Engine
  now : Nat
  call : Call

/-- What the server hands out. -/
def Visit.released (crates : Crates) (rd : Readers) (v : Visit) : List Release :=
  match v.call with
  | .page s d bicChal powChal =>
    match serveChallenge crates v.engine s d v.now bicChal powChal with
    | .bic .. => [.bicToken v.now bicChal]
    | .captcha .. => []
    | .pow .. => [.challenge v.now powChal]
  | .verify body =>
    match handleVerify crates rd v.engine body v.now with
    | .minted .. => [.clearance v.now]
    | .refused .. => []
  | .bicVerify body ip =>
    match handleBicVerify crates rd.bicSubmit v.engine body ip v.now with
    | .minted .. => [.bicCookie v.now ip]
    | .failed => []
  | .turnstileVerify body ip =>
    match handleTurnstileVerify crates rd v.engine body ip v.now with
    | .minted .. => [.clearance v.now]
    | .refused .. => []

def released (crates : Crates) (rd : Readers) (visits : List Visit) : List Release :=
  visits.flatMap fun v => v.released crates rd

/-- The MAC is ideal for what is submitted: a signature verifies only for what was released before. -/
def Ideal (crates : Crates) (rd : Readers) (c : Challenger) (visits : List Visit) : Prop :=
  ∀ before v after body s, visits = before ++ v :: after → v.call = .verify body →
    rd.submit (readBody 4096 [] body) = some s →
      Unforged crates c (released crates rd before) s.s

/-- There was a captcha or work behind the clearance of time `t`. -/
inductive Earned (crates : Crates) (rd : Readers) (c : Challenger) : List Visit → Nat → Prop
  | captcha {before v body ip} (hcall : v.call = .turnstileVerify body ip)
      (h : CaptchaPassed rd v.engine.runtime body ip) :
      Earned crates rd c (before ++ [v]) v.now
  /-- A token was worked for, or a BIC cookie that reads as one. -/
  | solved {before v body s r} (hcall : v.call = .verify body)
      (hs : Submitted crates rd c body v.now s) (hr : r ∈ released crates rd before)
      (htoken : ∀ t, r ≠ .clearance t) (hreads : r.ReadsAs c s.c s.e) :
      Earned crates rd c (before ++ [v]) v.now
  /-- The token `clr` was worked for, with the signature of an earlier clearance. -/
  | renewed {before v body s t} (hcall : v.call = .verify body)
      (hs : Submitted crates rd c body v.now s) (ht : Earned crates rd c before t)
      (hreads : (Release.clearance t).ReadsAs c s.c s.e) :
      Earned crates rd c (before ++ [v]) v.now
  | later {before v t} (h : Earned crates rd c before t) : Earned crates rd c (before ++ [v]) t

variable {crates : Crates} {rd : Readers} {c : Challenger} {visits before : List Visit} {v : Visit}
  {t : Nat}

lemma mem_released_append {r : Release} : r ∈ released crates rd (before ++ [v])
    ↔ r ∈ released crates rd before ∨ r ∈ v.released crates rd := by
  rw [released, List.flatMap_append, List.mem_append, List.flatMap_singleton]
  rfl

/-- The visits that release a clearance. -/
lemma clearance_mem_released (hv : v.engine.challenger = c) :
    .clearance t ∈ v.released crates rd ↔ t = v.now
      ∧ ((∃ body s, v.call = .verify body ∧ Submitted crates rd c body v.now s)
        ∨ ∃ body ip, v.call = .turnstileVerify body ip
          ∧ CaptchaPassed rd v.engine.runtime body ip) := by
  subst hv
  unfold Visit.released
  cases hcall : v.call with
  | page s d bicChal powChal =>
    simp only
    constructor
    · intro h
      split at h <;> simp at h
    · rintro ⟨-, ⟨_, _, h, -⟩ | ⟨_, _, h, -⟩⟩ <;> cases h
  | verify body =>
    simp only
    constructor
    · intro h
      split at h
      case h_1 hm =>
        obtain ⟨⟨s, hs⟩, -⟩ := handleVerify_minted_iff.mp hm
        cases List.mem_singleton.mp h
        exact ⟨rfl, .inl ⟨body, s, rfl, hs⟩⟩
      case h_2 => cases h
    · rintro ⟨rfl, ⟨_, s, h, hs⟩ | ⟨_, _, h, -⟩⟩
      · cases h
        rw [handleVerify_minted_iff.mpr ⟨⟨s, hs⟩, rfl, rfl, rfl⟩]
        exact List.mem_singleton.mpr rfl
      · cases h
  | bicVerify body ip =>
    simp only
    constructor
    · intro h
      split at h <;> simp at h
    · rintro ⟨-, ⟨_, _, h, -⟩ | ⟨_, _, h, -⟩⟩ <;> cases h
  | turnstileVerify body ip =>
    simp only
    constructor
    · intro h
      split at h
      case h_1 hm =>
        have hpassed := (handleTurnstileVerify_minted_iff.mp hm).1
        cases List.mem_singleton.mp h
        exact ⟨rfl, .inr ⟨body, ip, rfl, hpassed⟩⟩
      case h_2 => cases h
    · rintro ⟨rfl, ⟨_, _, h, -⟩ | ⟨_, _, h, hpassed⟩⟩
      · cases h
      · cases h
        rw [handleTurnstileVerify_minted_iff.mpr ⟨hpassed, rfl, rfl, rfl⟩]
        exact List.mem_singleton.mpr rfl

/-- What the last visit adds. -/
lemma earned_append : Earned crates rd c (before ++ [v]) t ↔ Earned crates rd c before t
    ∨ t = v.now
      ∧ ((∃ body ip, v.call = .turnstileVerify body ip ∧ CaptchaPassed rd v.engine.runtime body ip)
        ∨ ∃ body s, v.call = .verify body ∧ Submitted crates rd c body v.now s
          ∧ ((∃ r ∈ released crates rd before, (∀ t', r ≠ .clearance t') ∧ r.ReadsAs c s.c s.e)
            ∨ ∃ t', Earned crates rd c before t' ∧ (Release.clearance t').ReadsAs c s.c s.e)) := by
  constructor
  · intro h
    generalize hall : before ++ [v] = all at h
    cases h with
    | captcha hcall hpassed =>
      obtain ⟨rfl, hv⟩ := List.append_inj' hall rfl
      cases hv
      exact .inr ⟨rfl, .inl ⟨_, _, hcall, hpassed⟩⟩
    | solved hcall hs hr htoken hreads =>
      obtain ⟨rfl, hv⟩ := List.append_inj' hall rfl
      cases hv
      exact .inr ⟨rfl, .inr ⟨_, _, hcall, hs, .inl ⟨_, hr, htoken, hreads⟩⟩⟩
    | renewed hcall hs ht hreads =>
      obtain ⟨rfl, hv⟩ := List.append_inj' hall rfl
      cases hv
      exact .inr ⟨rfl, .inr ⟨_, _, hcall, hs, .inr ⟨_, ht, hreads⟩⟩⟩
    | later h =>
      obtain ⟨rfl, -⟩ := List.append_inj' hall rfl
      exact .inl h
  · rintro (h | ⟨rfl, ⟨body, ip, hcall, hpassed⟩ | ⟨body, s, hcall, hs, h⟩⟩)
    · exact .later h
    · exact .captcha hcall hpassed
    · obtain ⟨r, hr, htoken, hreads⟩ | ⟨t', ht, hreads⟩ := h
      · exact .solved hcall hs hr htoken hreads
      · exact .renewed hcall hs ht hreads

/-- Every clearance that the server has released was earned, and nothing else is. -/
lemma clearance_released_iff (hserved : ∀ v ∈ visits, v.engine.challenger = c)
    (ideal : Ideal crates rd c visits) :
    .clearance t ∈ released crates rd visits ↔ Earned crates rd c visits t := by
  induction visits using List.reverseRecOn generalizing t with
  | nil =>
    constructor
    · intro h
      cases h
    · intro h
      generalize hnil : ([] : List Visit) = all at h
      cases h <;> exact absurd hnil.symm (List.append_ne_nil_of_right_ne_nil _ (List.cons_ne_nil _ _))
  | append_singleton before v ih =>
    have hv : v.engine.challenger = c := hserved v (List.mem_append_right _ (.head _))
    have hbefore : ∀ t, .clearance t ∈ released crates rd before ↔ Earned crates rd c before t := by
      intro t
      refine ih (fun w hw => hserved w (List.mem_append_left _ hw)) fun pre w post body s hsplit => ?_
      exact ideal pre w (post ++ [v]) body s (by rw [hsplit, List.append_assoc]; rfl)
    rw [mem_released_append, clearance_mem_released hv, earned_append, hbefore]
    refine or_congr_right (and_congr_right fun _ => ?_)
    constructor
    · rintro (⟨body, s, hcall, hs⟩ | h)
      · refine .inr ⟨body, s, hcall, hs, ?_⟩
        -- the signature is one of those released before, so the pair reads as one of them
        obtain ⟨r, hr, hreads⟩ := (ideal before v [] body s rfl hcall hs.read).reads hs.signed
        by_cases hclear : ∃ t', r = .clearance t'
        · obtain ⟨t', rfl⟩ := hclear
          exact .inr ⟨t', (hbefore t').mp hr, hreads⟩
        · exact .inl ⟨r, hr, fun t' ht' => hclear ⟨t', ht'⟩, hreads⟩
      · exact .inl h
    · rintro (h | ⟨body, s, hcall, hs, -⟩)
      · exact .inr h
      · exact .inl ⟨body, s, hcall, hs⟩

/-- No clearance comes without a captcha or work. In a run of the server in which signatures are not
forged, the clearances that are released are the earned ones: the provider accepted a captcha, a token or
a BIC cookie that reads as one was worked for in time, or the token `clr` with the signature of an earlier
clearance was, before this one expired. So a request that is cleared has such a clearance, which has not
expired. -/
theorem clearance_earned (hserved : ∀ v ∈ visits, v.engine.challenger = c)
    (ideal : Ideal crates rd c visits) :
    (∀ t, .clearance t ∈ released crates rd visits ↔ Earned crates rd c visits t)
      ∧ ∀ (e : Engine) (ctx : RequestCtx) (nowMs : Nat), e.challenger = c →
        (∀ value, ctx.cookie c.cookieName = some value →
          UnforgedParts crates c (released crates rd visits) value) →
        e.cleared crates ctx nowMs = true →
        ∃ t, Earned crates rd c visits t ∧ nowMs / 1000 < (t + c.cookieTtl) % 2 ^ 64 := by
  refine ⟨fun t => clearance_released_iff hserved ideal, fun e ctx nowMs he hparts hcleared => ?_⟩
  obtain ⟨value, hvalue, hverify⟩ := Option.any_eq_true _ _ |>.mp hcleared
  rw [he] at hvalue hverify
  obtain ⟨_, _, t, _, ht, _, hlt⟩ := clearance_sound (hparts value hvalue) hverify
  exact ⟨t, (clearance_released_iff hserved ideal).mp ht, hlt⟩

/-- The visitor solves, and renews the clearance. -/
def visitRun : List Visit :=
  [⟨visitEngine, 1700000000, .page (proxied []) (.challenge "t" 50 []) (.replicate 12 0) visitChal⟩,
    ⟨visitEngine, 1700000060, .verify [visitSolved]⟩,
    ⟨visitEngine, 1700001860, .verify [visitRenewed]⟩]

/-- The first post is answered with a clearance. -/
lemma visit_first : handleVerify visitCrates visitReaders visitEngine [visitSolved] 1700000060
    = .minted "__2t1_clearance" (visitServer.mintClearance visitCrates 1700000060) 1800 :=
  handleVerify_minted_iff.mpr
    ⟨⟨_, visitSubmit_solved, by decide, by decide, by decide⟩, rfl, rfl, rfl⟩

lemma visit_second : handleVerify visitCrates visitReaders visitEngine [visitRenewed] 1700001860
    = .minted "__2t1_clearance" (visitServer.mintClearance visitCrates 1700001860) 1800 :=
  handleVerify_minted_iff.mpr
    ⟨⟨_, visitSubmit_renewed, by decide, by decide, by decide⟩, rfl, rfl, rfl⟩

/-- The first post releases the first clearance. -/
lemma visit_first_released : Visit.released visitCrates visitReaders
    ⟨visitEngine, 1700000060, .verify [visitSolved]⟩ = [.clearance 1700000060] := by
  simp only [Visit.released, visit_first]

/-- The second post releases the second. -/
lemma visit_second_released : Visit.released visitCrates visitReaders
    ⟨visitEngine, 1700001860, .verify [visitRenewed]⟩ = [.clearance 1700001860] := by
  simp only [Visit.released, visit_second]

/-- What is released in the sample. -/
lemma visitRun_released : released visitCrates visitReaders visitRun
    = [.challenge 1700000000 visitChal, .clearance 1700000060, .clearance 1700001860] := by
  rw [released, visitRun, List.flatMap_cons, List.flatMap_cons, List.flatMap_cons,
    visit_first_released, visit_second_released]
  rfl

/-- What the MAC of the example signs. -/
lemma visit_hmac {p : Str} (sig : Str) (hsig : sig ≠ [])
    (h : visitCrates.hmac visitServer.secret p = sig) :
    ((Release.challenge 1700000000 visitChal).payload visitServer = p ∧ sig = visitTokenSig)
      ∨ ((Release.clearance 1700000060).payload visitServer = p ∧ sig = visitFirstSig)
      ∨ ((Release.clearance 1700001860).payload visitServer = p ∧ sig = visitSecondSig) := by
  simp only [visitCrates] at h
  split at h
  case isTrue e => exact .inl ⟨e ▸ by decide, h.symm⟩
  case isFalse =>
    split at h
    case isTrue e => exact .inr (.inl ⟨e ▸ by decide, h.symm⟩)
    case isFalse =>
      split at h
      case isTrue e => exact .inr (.inr ⟨e ▸ by decide, h.symm⟩)
      case isFalse => exact absurd h.symm hsig

/-- No signature of the sample is forged. -/
lemma visitRun_ideal : Ideal visitCrates visitReaders visitServer visitRun := by
  intro before v after body s hsplit hcall hread
  cases before with
  | nil =>
    obtain ⟨rfl, -⟩ := List.cons_eq_cons.mp hsplit
    cases hcall
  | cons page before =>
    obtain ⟨rfl, hrest⟩ := List.cons_eq_cons.mp hsplit
    cases before with
    | nil =>
      obtain ⟨rfl, -⟩ := List.cons_eq_cons.mp hrest
      cases hcall
      obtain rfl := Option.some_inj.mp (visitSubmit_solved.symm.trans hread)
      intro p hp
      obtain ⟨h, -⟩ | ⟨-, h⟩ | ⟨-, h⟩ := visit_hmac visitTokenSig (by decide) hp
      · exact ⟨_, .head _, h⟩
      · exact absurd h (by decide)
      · exact absurd h (by decide)
    | cons first before =>
      obtain ⟨rfl, hlast⟩ := List.cons_eq_cons.mp hrest
      cases before with
      | nil =>
        obtain ⟨rfl, -⟩ := List.cons_eq_cons.mp hlast
        cases hcall
        obtain rfl := Option.some_inj.mp (visitSubmit_renewed.symm.trans hread)
        intro p hp
        obtain ⟨-, h⟩ | ⟨h, -⟩ | ⟨-, h⟩ := visit_hmac visitFirstSig (by decide) hp
        · exact absurd h (by decide)
        · refine ⟨.clearance 1700000060, ?_, h⟩
          rw [released, List.flatMap_cons, List.flatMap_cons, visit_first_released]
          exact .tail _ (.head _)
        · exact absurd h (by decide)
      | cons second before =>
        obtain ⟨-, hend⟩ := List.cons_eq_cons.mp hlast
        exact absurd hend.symm (List.append_ne_nil_of_right_ne_nil _ (List.cons_ne_nil _ _))

lemma visit_parts : UnforgedParts visitCrates visitServer
    (released visitCrates visitReaders visitRun) (visitServer.mintClearance visitCrates 1700001860) := by
  intro a part e p hp
  rw [visitRun_released]
  have hpart : part ≠ [] := by
    rintro rfl
    have hlast : (visitServer.mintClearance visitCrates 1700001860).getLast? = some 'I' := by decide
    rw [e, List.getLast?_append] at hlast
    cases hlast
  obtain ⟨h, -⟩ | ⟨h, -⟩ | ⟨h, -⟩ := visit_hmac part hpart hp
  · exact ⟨_, .head _, h⟩
  · exact ⟨_, .tail _ (.head _), h⟩
  · exact ⟨_, .tail _ (.tail _ (.head _)), h⟩

/-- The second clearance of the sample. -/
theorem clearance_earned_witness :
    Earned visitCrates visitReaders visitServer visitRun 1700001860
      ∧ ∃ t, Earned visitCrates visitReaders visitServer visitRun t
        ∧ 1700002000000 / 1000 < (t + 1800) % 2 ^ 64 := by
  have hserved : ∀ v ∈ visitRun, v.engine.challenger = visitServer := by
    intro v hv
    simp only [visitRun, List.mem_cons, List.not_mem_nil, or_false] at hv
    obtain rfl | rfl | rfl := hv
    · rfl
    · rfl
    · rfl
  have h := clearance_earned hserved visitRun_ideal
  constructor
  · rw [← h.1, visitRun_released]
    exact .tail _ (.tail _ (.head _))
  · refine h.2 visitEngine (visitCtx 1700001860) 1700002000000 rfl ?_ (by decide)
    intro value hvalue
    have hmint : (visitCtx 1700001860).cookie visitServer.cookieName
        = some (visitServer.mintClearance visitCrates 1700001860) := by decide
    obtain rfl := Option.some_inj.mp (hmint.symm.trans hvalue)
    exact visit_parts

/-! ## One nonce for good -/

/-- What a visitor posts to renew a clearance, made of the value of the cookie. -/
def resubmit (nonce value : Str) : Option PowSubmit :=
  match splitOnce '.' value with
  | none => none
  | some (expS, sig) => (parseU64 expS).map fun exp => ⟨"clr", nonce, sig, exp⟩

/-- The value that a visitor has after renewals at some times. `post` writes a submission. -/
def renew (crates : Crates) (rd : Readers) (e : Nat → Engine) (post : PowSubmit → List (List UInt8))
    (nonce : Str) : Str → List Nat → Option Str
  | value, [] => some value
  | value, now :: times =>
    match resubmit nonce value with
    | none => none
    | some s =>
      match handleVerify crates rd (e now) (post s) now with
      | .minted _ value _ => renew crates rd e post nonce value times
      | .refused .. => none

variable {e : Nat → Engine} {post : PowSubmit → List (List UInt8)} {nonce : Str} {k : Nat}

/-- A renewal once in the lifetime of a cookie, `k` times. -/
def schedule (ttl : Nat) : Nat → Nat → List Nat
  | _, 0 => []
  | t, k + 1 => (t + ttl) :: schedule ttl (t + ttl) k

/-- The submission reads as the clearance. -/
lemma resubmit_minted : resubmit nonce (c.mintClearance crates t)
    = some ⟨"clr", nonce, sign crates c.secret "clr" ((t + c.cookieTtl) % 2 ^ 64),
      (t + c.cookieTtl) % 2 ^ 64⟩ := by
  have hsplit : splitOnce '.' (c.mintClearance crates t) = some (dec ((t + c.cookieTtl) % 2 ^ 64),
      crates.hmac c.secret (clearancePayload ((t + c.cookieTtl) % 2 ^ 64))) :=
    splitOnce_append dot_not_mem_dec
  have hparse : parseU64 (dec ((t + c.cookieTtl) % 2 ^ 64)) = some ((t + c.cookieTtl) % 2 ^ 64) :=
    parseNat_dec (Nat.mod_lt _ (by decide))
  simp only [resubmit, hsplit, hparse, Option.map_some]
  rfl

/-- A renewal before the cookie expires is taken. -/
lemma handleVerify_renewal {now : Nat} {body : List (List UInt8)} {e : Engine} (he : e.challenger = c)
    (hwork : verifyPow crates "clr" nonce c.powDifficulty = true)
    (hread : ∀ s, resubmit nonce (c.mintClearance crates t) = some s →
      rd.submit (readBody 4096 [] body) = some s)
    (hnow : now ≤ (t + c.cookieTtl) % 2 ^ 64) :
    handleVerify crates rd e body now
      = .minted c.cookieName (c.mintClearance crates now) c.cookieTtl := by
  subst he
  refine handleVerify_minted_iff.mpr ⟨⟨_, hread _ resubmit_minted, hnow, rfl, hwork⟩, rfl, rfl, rfl⟩

/-- Each renewal of the schedule is taken. -/
lemma renew_schedule (he : ∀ now, (e now).challenger = c)
    (hwork : verifyPow crates "clr" nonce c.powDifficulty = true)
    (hread : ∀ i < k, ∀ s, resubmit nonce (c.mintClearance crates (t + i * c.cookieTtl)) = some s →
      rd.submit (readBody 4096 [] (post s)) = some s)
    (hmax : t + k * c.cookieTtl < 2 ^ 64) :
    renew crates rd e post nonce (c.mintClearance crates t) (schedule c.cookieTtl t k)
      = some (c.mintClearance crates (t + k * c.cookieTtl)) := by
  induction k generalizing t with
  | zero => rw [schedule, renew, Nat.zero_mul, Nat.add_zero]
  | succ k ih =>
    have hnext : t + (k + 1) * c.cookieTtl = t + c.cookieTtl + k * c.cookieTtl := by ring
    have hlt : t + c.cookieTtl < 2 ^ 64 := by
      rw [hnext] at hmax
      exact lt_of_le_of_lt (Nat.le_add_right _ _) hmax
    have htaken : ∀ s, resubmit nonce (c.mintClearance crates t) = some s →
        handleVerify crates rd (e (t + c.cookieTtl)) (post s) (t + c.cookieTtl)
          = .minted c.cookieName (c.mintClearance crates (t + c.cookieTtl)) c.cookieTtl := by
      intro s hs
      apply handleVerify_renewal (he _) hwork
      · intro s' hs'
        obtain rfl : s = s' := Option.some_inj.mp (hs.symm.trans hs')
        apply hread 0 (Nat.succ_pos k)
        rw [Nat.zero_mul, Nat.add_zero]
        exact hs
      · exact Nat.le_of_eq (Nat.mod_eq_of_lt hlt).symm
    rw [schedule, renew, resubmit_minted]
    simp only [htaken _ resubmit_minted]
    rw [hnext]
    refine ih (fun i hi s hs => hread (i + 1) (Nat.succ_lt_succ hi) s ?_) (hnext ▸ hmax)
    have hshift : t + (i + 1) * c.cookieTtl = t + c.cookieTtl + i * c.cookieTtl := by ring
    rw [hshift]
    exact hs

/-- One nonce keeps a visitor cleared for good. Who has a clearance and a nonce that works for `clr` posts
the signature of the cookie as that of a token, once in the lifetime of a cookie, and is handed the next
cookie each time. At every later time the clearance is valid after the posts up to then. -/
theorem renewed_forever {t₀ T : Nat} (he : ∀ now, (e now).challenger = c)
    (hwork : verifyPow crates "clr" nonce c.powDifficulty = true)
    (hread : ∀ i < (T - t₀) / c.cookieTtl,
      ∀ s, resubmit nonce (c.mintClearance crates (t₀ + i * c.cookieTtl)) = some s →
        rd.submit (readBody 4096 [] (post s)) = some s)
    (hpos : 0 < c.cookieTtl) (hT : t₀ ≤ T) (hmax : T + c.cookieTtl < 2 ^ 64) :
    ∃ value, renew crates rd e post nonce (c.mintClearance crates t₀)
        (schedule c.cookieTtl t₀ ((T - t₀) / c.cookieTtl)) = some value
      ∧ c.verifyClearance crates T value = true := by
  have hdiv : (T - t₀) / c.cookieTtl * c.cookieTtl ≤ T - t₀ := Nat.div_mul_le_self _ _
  have hrest : T - t₀ < (T - t₀) / c.cookieTtl * c.cookieTtl + c.cookieTtl :=
    Nat.lt_div_mul_add hpos
  refine ⟨_, renew_schedule he hwork hread (by omega), ?_⟩
  rw [clearance_complete, Release.expiry, Nat.mod_eq_of_lt (by omega)]
  omega

/-- One renewal. -/
theorem renewed_forever_witness :
    ∃ value, renew visitCrates visitReaders (fun _ => visitEngine) (fun _ => [visitRenewed]) "3"
        (visitServer.mintClearance visitCrates 1700000060)
        (schedule 1800 1700000060 ((1700002800 - 1700000060) / 1800)) = some value
      ∧ visitServer.verifyClearance visitCrates 1700002800 value = true := by
  refine renewed_forever (c := visitServer) (fun _ => rfl) (by decide) ?_ (by decide) (by decide)
    (by decide)
  intro i hi s hs
  obtain rfl : i = 0 := by
    have hone : (1700002800 - 1700000060) / visitServer.cookieTtl = 1 := by decide
    omega
  have hmint : resubmit "3" (visitServer.mintClearance visitCrates 1700000060)
      = some ⟨"clr", "3", visitFirstSig, 1700001860⟩ := by decide
  obtain rfl := Option.some_inj.mp (hmint.symm.trans hs)
  exact visitSubmit_renewed

end Clearance

end Waf
