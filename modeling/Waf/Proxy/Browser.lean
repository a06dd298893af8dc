import Waf.Proxy.Clearance
import Waf.Proxy.Cookies

/-!
# Browsers

The other side of the challenge ladder: a browser that keeps the cookies it is handed as long as their
`Max-Age` says, sends them in one line and does what the pages ask. The script of the integrity page
posts the front of a digest, that of the proof of work the nonce with which its loop ends, and a captcha
is solved by its visitor.

The two sides fit together. Over a whole run of requests, however the server and its settings change in
between, a page is not served again before the cookie for it has expired, so that within one lifetime a
visitor sees two pages at most (`two_pages`).
-/

namespace Waf
open Lib

/-! ## The jar -/

/-- The visible characters of ASCII. -/
def isVisible (c : Char) : Bool := 32 < c.toNat && c.toNat < 127

/-- The characters of a `token`. -/
def isTokenChar (c : Char) : Bool :=
  isVisible c && !"\"(),/:;<=>?@[\\]\x7b\x7d".toList.contains c

/-- The characters of a cookie value. -/
def isCookieOctet (c : Char) : Bool := isVisible c && !"\",;\\".toList.contains c

structure Cookie where
  name : Str
  value : Str
  token : name.all isTokenChar = true
  octets : value.all isCookieOctet = true

namespace Cookie

def kv (k : Cookie) : Str × Str := (k.name, k.value)

def text (k : Cookie) : Str := k.name ++ '=' :: k.value

/-- A pair that no cookie is made of is dropped. -/
def ofPair (name value : Str) : Option Cookie :=
  if h : name.all isTokenChar = true ∧ value.all isCookieOctet = true then
    some ⟨name, value, h.1, h.2⟩
  else none

end Cookie

/-- The text of a `Cookie` line. -/
def cookieText (cookies : List Cookie) : Str := "; ".toList.intercalate (cookies.map Cookie.text)

/-- The line that is sent for some cookies, if there are any. -/
def cookieHeader : List Cookie → List HeaderLine
  | [] => []
  | cookies => [⟨"cookie", utf8 (cookieText cookies)⟩]

/-- A cookie in the jar, and when it is thrown away. -/
structure Kept where
  cookie : Cookie
  expires : Nat

abbrev Jar := List Kept

namespace Jar

/-- The cookies that have not expired. -/
def fresh (jar : Jar) (now : Nat) : List Cookie :=
  (jar.filter fun k => now < k.expires).map Kept.cookie

/-- A cookie takes the place of the one of its name. -/
def keep (jar : Jar) (k : Kept) : Jar :=
  (jar.filter fun old => old.cookie.name != k.cookie.name) ++ [k]

end Jar

namespace SetCookie

/-- The two sides of a part `k=v`. -/
def part (s : Str) : Option (Str × Str) := (splitOnce '=' s).map fun kv => (trim kv.1, trim kv.2)

/-- The value of an attribute `Max-Age`. -/
def maxAge (attr : Str) : Option Nat :=
  (part attr).bind fun kv => if toAsciiLower kv.1 = "max-age" then parseU64 kv.2 else none

/-- A `Set-Cookie` line: the cookie and how long it is to be kept. Cookies without `Max-Age`, which the
server does not send, are left out. -/
def read (line : Str) : Option (Cookie × Nat) :=
  match line.splitOn ';' with
  | [] => none
  | pair :: attrs => do
    let kv ← part pair
    let cookie ← Cookie.ofPair kv.1 kv.2
    let seconds ← attrs.findSome? maxAge
    some (cookie, seconds)

end SetCookie

/-- The jar after a reply with some `Set-Cookie` line, or with none. -/
def Jar.receive (jar : Jar) (now : Nat) (setCookie : Option Str) : Jar :=
  match setCookie.bind SetCookie.read with
  | some (cookie, seconds) => jar.keep ⟨cookie, now + seconds⟩
  | none => jar

section

variable {name value : Str} {now expires ttl : Nat} {cookies : List Cookie} {k : Cookie} {jar : Jar}

/-! ### What the server reads -/

/-- What both kinds of characters have in common. -/
lemma visible_char {c : Char} {others : Str} (h : (isVisible c && !others.contains c) = true)
    (hsemicolon : ';' ∈ others) (hquote : '"' ∈ others) :
    (32 ≤ c.toNat ∧ c.toNat < 127) ∧ c ≠ ';' ∧ isSpace c = false ∧ (c == '"') = false := by
  rw [Bool.and_eq_true, Bool.not_eq_true'] at h
  obtain ⟨hvisible, hother⟩ := h
  have hrange : 32 < c.toNat ∧ c.toNat < 127 := by
    rwa [isVisible, Bool.and_eq_true, decide_eq_true_eq, decide_eq_true_eq] at hvisible
  have key : ∀ n : Fin 128, isVisible (Char.ofNat n) = true → isSpace (Char.ofNat n) = false := by
    decide
  obtain ⟨n, rfl⟩ := exists_ascii (Nat.lt_succ_of_lt hrange.2)
  refine ⟨⟨hrange.1.le, hrange.2⟩, ?_, key n hvisible, beq_false_of_ne ?_⟩
  · intro e
    rw [e, List.contains_iff_mem.mpr hsemicolon] at hother
    cases hother
  · intro e
    rw [e, List.contains_iff_mem.mpr hquote] at hother
    cases hother

namespace Cookie

/-- What the name of a kept cookie is written in. -/
lemma token_char {c : Char} (h : c ∈ k.name) :
    (32 ≤ c.toNat ∧ c.toNat < 127) ∧ c ≠ ';' ∧ isSpace c = false ∧ (c == '"') = false :=
  visible_char (List.all_eq_true.mp k.token c h) (by decide) (by decide)

/-- What its value is written in. -/
lemma octet_char {c : Char} (h : c ∈ k.value) :
    (32 ≤ c.toNat ∧ c.toNat < 127) ∧ c ≠ ';' ∧ isSpace c = false ∧ (c == '"') = false :=
  visible_char (List.all_eq_true.mp k.octets c h) (by decide) (by decide)

/-- The name of a kept cookie is one that the server reads. -/
lemma cookieName : CookieName k.name where
  semicolon h := (token_char h).2.1 rfl
  equals h := absurd (List.all_eq_true.mp k.token _ h) (by decide)
  bare := bare_of_forall fun _ h => (token_char h).2.2.1

lemma cookieValue : CookieValue k.value where
  semicolon h := (octet_char h).2.1 rfl
  bare := bare_of_forall fun _ h => (octet_char h).2.2.1
  unquoted := bare_of_forall fun _ h => (octet_char h).2.2.2

lemma semicolon_not_mem : ';' ∉ k.text := by
  intro hc
  obtain hc | hc := List.mem_append.mp hc
  · exact k.cookieName.semicolon hc
  · obtain hc | hc := List.mem_cons.mp hc
    · exact absurd hc (by decide)
    · exact k.cookieValue.semicolon hc

/-- A pair of the characters of a cookie makes one. -/
lemma ofPair_eq (hname : name.all isTokenChar = true) (hvalue : value.all isCookieOctet = true) :
    ofPair name value = some ⟨name, value, hname, hvalue⟩ := dif_pos ⟨hname, hvalue⟩

end Cookie

/-- The blank behind a semicolon can be read as part of what follows. -/
lemma intercalate_blank {s : Str} {parts : List Str} :
    "; ".toList.intercalate (s :: parts) = [';'].intercalate (s :: parts.map (' ' :: ·)) := by
  induction parts generalizing s with
  | nil => rfl
  | cons t parts ih =>
    rw [List.map_cons, List.intercalate_cons_cons, List.intercalate_cons_cons, ih,
      List.intercalate_cons_cons_left]
    simp only [List.append_assoc]
    rfl

/-- A line of a browser in the pieces that `parse_cookie_header` reads. -/
lemma cookieText_pieces : ∃ pieces : List CookiePiece, (∀ p ∈ pieces, p.WellFormed)
    ∧ cookieText cookies = cookieLine pieces
    ∧ pieces.filterMap CookiePiece.kv = cookies.map Cookie.kv := by
  have hnil : Blank [] := fun _ hc => absurd hc List.not_mem_nil
  have hblank : Blank [' '] := by
    intro c hc
    rw [List.mem_singleton.mp hc]
    decide
  cases cookies with
  | nil => exact ⟨[], fun _ hp => absurd hp List.not_mem_nil, rfl, rfl⟩
  | cons k cookies =>
    refine ⟨.pair [] k.name k.value false [] ::
      cookies.map fun k => .pair " " k.name k.value false [], ?_, ?_, ?_⟩
    · intro p hp
      obtain rfl | hp := List.mem_cons.mp hp
      · exact ⟨hnil, k.cookieName, k.cookieValue, hnil⟩
      · obtain ⟨k, -, rfl⟩ := List.mem_map.mp hp
        exact ⟨hblank, k.cookieName, k.cookieValue, hnil⟩
    · rw [cookieText, List.map_cons, intercalate_blank, cookieLine, List.map_cons, List.map_map,
        List.map_map]
      congr 2
      · exact (List.append_nil _).symm
      · exact List.map_congr_left fun k _ => (List.append_nil _).symm
    · rw [List.filterMap_cons, List.filterMap_map, List.map_cons, ← List.filterMap_eq_map]
      rfl

/-- Of each name the server reads the value that is written last. -/
lemma lookup_cookieText :
    (parseCookieHeader (cookieText cookies)).lookup name = lastValue (cookies.map Cookie.kv) name := by
  obtain ⟨pieces, hwf, htext, hkv⟩ := @cookieText_pieces cookies
  rw [htext, lookup_cookieLine hwf, hkv]

/-- The line is text. -/
lemma toStr_cookieText : HeaderValue.toStr (utf8 (cookieText cookies)) = some (cookieText cookies) := by
  apply HeaderValue.toStr_utf8
  intro c hc
  obtain hc | ⟨part, hpart, hc⟩ := mem_intercalate hc
  · obtain rfl | hc := List.mem_cons.mp hc
    · decide
    · rw [List.mem_singleton.mp hc]
      decide
  · obtain ⟨k, -, rfl⟩ := List.mem_map.mp hpart
    obtain hc | hc := List.mem_append.mp hc
    · exact (k.token_char hc).1
    · obtain rfl | hc := List.mem_cons.mp hc
      · decide
      · exact (k.octet_char hc).1

/-! ### What the browser reads -/

namespace SetCookie

/-- It is read back as the pair that it is. -/
lemma part_cookie : part k.text = some k.kv := by
  rw [part, Cookie.text, splitOnce_append k.cookieName.equals, Option.map_some]
  have hname : trim k.name = k.name := trimMatches_bare k.cookieName.bare
  have hvalue : trim k.value = k.value := trimMatches_bare k.cookieValue.bare
  rw [hname, hvalue]
  rfl

/-- A number is a cookie value. -/
lemma dec_value : CookieValue (dec ttl) :=
  CookieValue.of_forall fun _ hc => Bool.or_eq_true_iff.mpr (.inr (dec_char hc))

/-- The age of a cookie is read as it was written. -/
lemma maxAge_dec (httl : ttl < 2 ^ 64) : maxAge (" Max-Age=" ++ dec ttl) = some ttl := by
  have hsplit : splitOnce '=' (" Max-Age=" ++ dec ttl) = some (" Max-Age".toList, dec ttl) := by
    have hfront : " Max-Age=".toList = " Max-Age".toList ++ ['='] := by decide
    rw [hfront, List.append_assoc]
    exact splitOnce_append (by decide)
  have hdigits : trim (dec ttl) = dec ttl := trimMatches_bare dec_value.bare
  have hkey : toAsciiLower (trim " Max-Age") = "max-age".toList := by decide
  rw [maxAge, part, hsplit]
  show (if toAsciiLower (trim " Max-Age") = "max-age".toList then parseU64 (trim (dec ttl))
    else none) = _
  rw [if_pos hkey, hdigits]
  exact parseNat_dec httl

/-- The line that `handle_verify` and its kind write. -/
lemma read_line (httl : ttl < 2 ^ 64) :
    read (k.name ++ "=" ++ k.value ++ "; Path=/; Max-Age=" ++ dec ttl ++ "; HttpOnly; SameSite=Lax")
      = some (k, ttl) := by
  have hline : k.name ++ "=" ++ k.value ++ "; Path=/; Max-Age=" ++ dec ttl ++ "; HttpOnly; SameSite=Lax"
      = [';'].intercalate [k.text, " Path=/".toList, " Max-Age=" ++ dec ttl, " HttpOnly".toList,
        " SameSite=Lax".toList] := by
    have hage : "; Path=/; Max-Age=".toList = ';' :: (" Path=/" ++ ';' :: " Max-Age=") := by decide
    have hend : "; HttpOnly; SameSite=Lax".toList = ';' :: (" HttpOnly" ++ ';' :: " SameSite=Lax") := by
      decide
    simp only [hage, hend, Cookie.text, List.intercalate_cons_cons, List.intercalate_singleton,
      List.append_assoc, List.cons_append, List.nil_append]
    rfl
  have hage : ';' ∉ " Max-Age=" ++ dec ttl := by
    intro hc
    obtain hc | hc := List.mem_append.mp hc
    · exact absurd hc (by decide)
    · exact dec_value.semicolon hc
  have hparts : ∀ s ∈ [k.text, " Path=/".toList, " Max-Age=" ++ dec ttl, " HttpOnly".toList,
      " SameSite=Lax".toList], ';' ∉ s := by
    simp only [List.forall_mem_cons, List.not_mem_nil, false_implies, implies_true, and_true]
    exact ⟨k.semicolon_not_mem, by decide, hage, by decide, by decide⟩
  have hfirst : [" Path=/".toList, " Max-Age=" ++ dec ttl, " HttpOnly".toList,
      " SameSite=Lax".toList].findSome? maxAge = some ttl := by
    have hpath : maxAge " Path=/" = none := by decide
    rw [List.findSome?_cons, hpath, List.findSome?_cons, maxAge_dec httl]
  rw [hline, read, List.splitOn_intercalate ';' hparts (List.cons_ne_nil _ _)]
  show ((part k.text).bind fun kv => (Cookie.ofPair kv.1 kv.2).bind fun cookie =>
    ([" Path=/".toList, " Max-Age=" ++ dec ttl, " HttpOnly".toList, " SameSite=Lax".toList].findSome?
      maxAge).bind fun seconds => some (cookie, seconds)) = _
  rw [part_cookie, Option.bind_some, hfirst]
  show ((Cookie.ofPair k.name k.value).bind fun cookie => some (cookie, ttl)) = _
  rw [Cookie.ofPair_eq k.token k.octets]
  rfl

end SetCookie

namespace Jar

/-- The jar has a cookie, and no later one of its name. -/
def Holds (jar : Jar) (name value : Str) (expires : Nat) : Prop :=
  ∃ before k after, jar = before ++ k :: after ∧ k.cookie.kv = (name, value) ∧ k.expires = expires
    ∧ ∀ k ∈ after, k.cookie.name ≠ name

/-- A jar holds the cookie that was put in last. -/
lemma keep_holds {k : Kept} (hk : k.cookie.kv = (name, value)) :
    (jar.keep k).Holds name value k.expires :=
  ⟨_, k, [], rfl, hk, rfl, fun _ hk => absurd hk List.not_mem_nil⟩

/-- A cookie of another name does not touch it. -/
lemma Holds.keep {k : Kept} (h : jar.Holds name value expires) (hne : k.cookie.name ≠ name) :
    (jar.keep k).Holds name value expires := by
  obtain ⟨before, old, after, rfl, hkv, hexpires, hafter⟩ := h
  have hold : (old.cookie.name != k.cookie.name) = true := by
    rw [bne_iff_ne]
    rintro e
    exact hne (e.symm.trans (congrArg Prod.fst hkv))
  refine ⟨before.filter fun x => x.cookie.name != k.cookie.name, old,
    after.filter (fun x => x.cookie.name != k.cookie.name) ++ [k], ?_, hkv, hexpires, ?_⟩
  · rw [Jar.keep, List.filter_append, List.filter_cons, if_pos hold, List.append_assoc,
      List.cons_append]
  · intro x hx
    obtain hx | hx := List.mem_append.mp hx
    · exact hafter x (List.mem_of_mem_filter hx)
    · rw [List.mem_singleton.mp hx]
      exact hne

/-- Until it expires it is the last of its name that is sent. -/
lemma Holds.sent {site : List Cookie} (h : jar.Holds name value expires) (hnow : now < expires) :
    lastValue ((site ++ jar.fresh now).map Cookie.kv) name = some value := by
  obtain ⟨before, k, after, rfl, hkv, rfl, hafter⟩ := h
  have hfresh : Jar.fresh (before ++ k :: after) now
      = Jar.fresh before now ++ k.cookie :: Jar.fresh after now := by
    rw [fresh, List.filter_append, List.filter_cons, if_pos (decide_eq_true hnow), List.map_append,
      List.map_cons]
    rfl
  rw [hfresh, ← List.append_assoc, List.map_append, List.map_cons, hkv]
  apply lastValue_of_last
  intro kv hkv
  obtain ⟨x, hx, rfl⟩ := List.mem_map.mp hkv
  obtain ⟨old, hold, rfl⟩ := List.mem_map.mp hx
  exact hafter old (List.mem_of_mem_filter hold)

end Jar

end

/-! ## The visit -/

/-- A request on its way: the lines but for the cookies, the cookies that the site has set, and the
server that it reaches. -/
structure Sent where
  engine : Engine
  disk : Disk
  session : Session
  site : List Cookie
  requestId : Str
  nowMs : Nat

namespace Sent

def now (x : Sent) : Nat := x.nowMs / 1000

def withJar (jar : Jar) (x : Sent) : Session :=
  { x.session with headers := x.session.headers ++ cookieHeader (x.site ++ jar.fresh x.now) }

/-- The address that the server resolves. -/
def clientIp (x : Sent) : IpAddr :=
  resolveClientIp x.session.clientAddr x.session.headers x.engine.cfg.server.trustedProxyHops

def ctx (crates : Crates) (jar : Jar) (x : Sent) : RequestCtx :=
  buildRequestCtx crates (x.withJar jar) x.engine.cfg.server.trustedProxyHops x.requestId

def outcome (crates : Crates) (jar : Jar) (x : Sent) : Outcome :=
  (x.engine.requestFilter crates x.disk (x.ctx crates jar) x.nowMs).1

/-- The `Set-Cookie` line of the reply to a post, if it has one. -/
def reply (crates : Crates) (rd : Readers) (jar : Jar) (x : Sent) (body : List (List UInt8)) :
    Option Str :=
  let ip := (x.ctx crates jar).clientIp
  match x.outcome crates jar with
  | .answered .verify => (handleVerify crates rd x.engine body x.now).setCookie
  | .answered .bicVerify => (handleBicVerify crates rd.bicSubmit x.engine body ip x.now).setCookie
  | .answered .turnstileVerify => (handleTurnstileVerify crates rd x.engine body ip x.now).setCookie
  | _ => none

/-- The post goes to an endpoint, and the server is not at its ceiling. -/
structure PostTo (path : Str) (x : Sent) : Prop where
  path : x.session.path = path
  method : x.session.method = "POST"
  room : x.engine.atCapacity = false

end Sent

/-- What the script of the integrity page finds: `hex.slice(0,16)`. -/
def Script.proof (crates : Crates) (challenge : Str) : Str :=
  (Script.hexText (crates.sha256 (utf8 (challenge ++ "2t1bic"))).toList).take 16

/-- What a page asks is done: the script posts what it ends with before the token expires, or the
captcha is solved. -/
def Page.Solved (crates : Crates) (rd : Readers) (x : Sent) (body : List (List UInt8)) : Page → Prop
  | bic token _ _ => x.PostTo "/__2t1/bic-verify" ∧ x.now ≤ token.expiresAt
      ∧ (rd.bicSubmit (readBody 1024 [] body)
        = some ⟨token.challenge, token.expiresAt, token.signature, Script.proof crates token.challenge⟩)
  | captcha .. => x.PostTo "/__2t1/turnstile-verify"
      ∧ CaptchaPassed rd x.engine.runtime body x.clientIp
  | pow token _ => x.PostTo "/__2t1/verify" ∧ x.now ≤ token.expiresAt
      ∧ ∃ fuel nonce, Script.search crates token fuel 0 = some nonce
        ∧ rd.submit (readBody 4096 [] body)
          = some ⟨token.challenge, dec nonce, token.signature, token.expiresAt⟩

/-- A request of the visitor, the server when it makes a page, and what is posted then. -/
structure Turn where
  asked : Sent
  server : Engine
  bicChal : Vector UInt8 12
  powChal : Vector UInt8 16
  posted : Sent
  body : List (List UInt8)

/-- The page that is served, if the request is challenged. -/
def Turn.page (crates : Crates) (jar : Jar) (t : Turn) : Option Page :=
  match t.asked.outcome crates jar with
  | .decided d =>
    if d.action = .challenge then
      some (serveChallenge crates t.server (t.asked.withJar jar) d t.asked.now t.bicChal t.powChal)
    else none
  | _ => none

/-- A page and when it is served and solved. -/
structure Served where
  page : Page
  servedAt : Nat
  solvedAt : Nat

/-- The visit from a time on, and the pages that it takes. -/
inductive Browses (crates : Crates) (rd : Readers) : Nat → Jar → List Turn → List Served → Prop
  | done {now jar} : Browses crates rd now jar [] []
  | passed {now jar t turns pages} : now ≤ t.asked.now → t.page crates jar = none →
    Browses crates rd t.asked.now jar turns pages → Browses crates rd now jar (t :: turns) pages
  | solved {now jar t turns pages page} : now ≤ t.asked.now → t.page crates jar = some page →
    t.asked.now ≤ t.posted.now → page.Solved crates rd t.posted t.body →
    Browses crates rd t.posted.now
      (jar.receive t.posted.now (t.posted.reply crates rd jar t.body)) turns pages →
    Browses crates rd now jar (t :: turns) (⟨page, t.asked.now, t.posted.now⟩ :: pages)

/-- A request from the subnet of `home`, to a server with the two secrets, that has no other cookies of
their names. -/
structure Sent.From (c : Challenger) (b : Bic) (home : IpAddr) (x : Sent) : Prop where
  challenger : x.engine.challenger = c
  bic : x.engine.bic = b
  names : LowerNames x.session.headers
  bare : ∀ l ∈ x.session.headers, l.name ≠ "cookie"
  site : ∀ k ∈ x.site, k.name ≠ c.cookieName ∧ k.name ≠ BIC_COOKIE_NAME
  socket : SameSubnet home (socketIp x.session.clientAddr)
  resolved : SameSubnet home x.clientIp

structure Turn.From (c : Challenger) (b : Bic) (home : IpAddr) (t : Turn) : Prop where
  asked : t.asked.From c b home
  challenger : t.server.challenger = c
  bic : t.server.bic = b
  posted : t.posted.From c b home

/-- What the visit is about: a server that names its clearances with a token other than the name of the
integrity cookie, and a clock that does not run over. -/
structure Visits (c : Challenger) (b : Bic) (home : IpAddr) (turns : List Turn) : Prop where
  difficulty : c.powDifficulty ≤ 64
  token : c.cookieName.all isTokenChar = true
  own : c.cookieName ≠ BIC_COOKIE_NAME
  served : ∀ t ∈ turns, t.From c b home
  clock : ∀ t ∈ turns,
    t.posted.now + c.cookieTtl < 2 ^ 64 ∧ t.posted.now + Bic.COOKIE_TTL_SECS < 2 ^ 64

/-- A page and a later one: the integrity page is not served again before its cookie has expired, and
after another page none is served before the clearance has. -/
structure Spaced (c : Challenger) (p q : Served) : Prop where
  bic : ¬ p.page.Past → ¬ q.page.Past → p.solvedAt + Bic.COOKIE_TTL_SECS ≤ q.servedAt
  work : p.page.Past → p.solvedAt + c.cookieTtl ≤ q.servedAt

section

variable {crates : Crates} {rd : Readers} {c : Challenger} {b : Bic} {home : IpAddr} {x : Sent}
  {t : Turn} {jar : Jar} {name value : Str} {now expires : Nat} {turns : List Turn}
  {pages : List Served} {page : Page} {body : List (List UInt8)}

/-- The cookies are sent in a line of their name. -/
lemma name_cookieHeader {cookies : List Cookie} {l : HeaderLine} (h : l ∈ cookieHeader cookies) :
    l.name = "cookie" := by
  cases cookies with
  | nil => cases h
  | cons k cookies => rw [List.mem_singleton.mp h]

/-- The line of the cookies is not read under another name. -/
lemma headerGet_cookieHeader {lines : List HeaderLine} {cookies : List Cookie}
    (h : name ≠ "cookie".toList) :
    headerGet (lines ++ cookieHeader cookies) name = headerGet lines name := by
  have hnone : (cookieHeader cookies).find? (fun l => l.name == name) = none := by
    apply List.find?_eq_none.mpr
    intro l hl
    rw [name_cookieHeader hl, beq_iff_eq]
    exact h.symm
  rw [headerGet, List.find?_append, hnone, Option.or_none]
  rfl

namespace Sent

/-- The cookies that are sent do not change the address. -/
lemma ctx_clientIp : (x.ctx crates jar).clientIp = x.clientIp := by
  show resolveClientIp _ (x.session.headers ++ cookieHeader _) _ = _
  rw [resolveClientIp, headerGet_cookieHeader (by decide)]
  rfl

/-- No other line is called so. -/
lemma find_cookie (h : x.From c b home) :
    x.session.headers.find? (fun l => l.name == "cookie".toList) = none :=
  List.find?_eq_none.mpr fun l hl => by
    rw [beq_iff_eq]
    exact h.bare l hl

/-- The cookies as `serve_challenge` reads them. -/
lemma cookies_withJar (h : x.From c b home) :
    (x.withJar jar).cookies = parseCookieHeader (cookieText (x.site ++ jar.fresh x.now)) := by
  show parseCookieHeader (((headerGet (x.session.headers ++ cookieHeader _) "cookie").bind
    HeaderValue.toStr).getD []) = _
  rw [headerGet, List.find?_append, find_cookie h, Option.none_or]
  cases x.site ++ jar.fresh x.now with
  | nil => rfl
  | cons k cookies =>
    show parseCookieHeader ((HeaderValue.toStr (utf8 (cookieText (k :: cookies)))).getD []) = _
    rw [toStr_cookieText]
    rfl

/-- The cookies as `build_request_ctx` reads them. -/
lemma ctx_cookie (h : x.From c b home) : (x.ctx crates jar).cookie name
    = (parseCookieHeader (cookieText (x.site ++ jar.fresh x.now))).lookup name := by
  have hnames : LowerNames (x.withJar jar).headers := by
    intro l hl
    obtain hl | hl := List.mem_append.mp hl
    · exact h.names l hl
    · rw [name_cookieHeader hl]
      decide
  show ((((HeaderTable.ofLines (x.withJar jar).headers).map.get "cookie").map parseCookieHeader).getD
    ∅).lookup name = _
  have hget : (HeaderTable.ofLines (x.withJar jar).headers).map.get "cookie"
      = firstText (x.withJar jar).headers "cookie" := lookup_ofLines hnames
  have hfirst : firstText (x.withJar jar).headers "cookie"
      = ((cookieHeader (x.site ++ jar.fresh x.now)).head?.bind fun l => l.value.toStr) := by
    have hnil : x.session.headers.filter (fun l => l.name == "cookie".toList) = [] :=
      List.filter_eq_nil_iff.mpr (List.find?_eq_none.mp (find_cookie h))
    show ((((x.session.headers ++ cookieHeader _).filter fun l => l.name == "cookie".toList).map
      HeaderLine.value).findSome? HeaderValue.toStr) = _
    rw [List.filter_append, hnil, List.nil_append]
    cases x.site ++ jar.fresh x.now with
    | nil => rfl
    | cons k cookies =>
      show [utf8 (cookieText (k :: cookies))].findSome? HeaderValue.toStr = _
      rw [List.findSome?_singleton]
      rfl
  rw [hget, hfirst]
  cases x.site ++ jar.fresh x.now with
  | nil => rfl
  | cons k cookies =>
    show (((HeaderValue.toStr (utf8 (cookieText (k :: cookies)))).map parseCookieHeader).getD ∅).lookup
      name = _
    rw [toStr_cookieText]
    rfl

/-- A cookie of the server that the jar has is read until it expires. -/
lemma lookup_sent (hjar : jar.Holds name value expires) (hnow : x.now < expires) :
    (parseCookieHeader (cookieText (x.site ++ jar.fresh x.now))).lookup name = some value :=
  lookup_cookieText.trans (hjar.sent hnow)

/-- A post reaches its endpoint. -/
lemma outcome_post {path : Str} {endpoint : Endpoint} (h : x.PostTo path)
    (hendpoint : internalEndpoint { Engine.sampleCtx with path := path, method := "POST" }
      = some endpoint) : x.outcome crates jar = .answered endpoint := by
  have hpath : (x.ctx crates jar).path = path := h.path
  have hmethod : (x.ctx crates jar).method = "POST".toList := h.method
  -- nothing but the path and the method decides
  have hctx : internalEndpoint (x.ctx crates jar) = some endpoint := by
    rw [← hendpoint, internalEndpoint, hpath, hmethod]
    rfl
  rw [outcome, Engine.requestFilter, h.room, if_neg Bool.false_ne_true]
  simp only [hctx]

end Sent

/-! ### The cookies of the pages -/

/-- The first digits are those of the first bytes. -/
lemma take_hexEncode {digest : List UInt8} {n : Nat} :
    (hexEncode digest).take (2 * n) = hexEncode (digest.take n) := by
  have hsplit : hexEncode digest = hexEncode (digest.take n) ++ hexEncode (digest.drop n) := by
    rw [hexEncode, hexEncode, hexEncode, ← List.flatMap_append, List.take_append_drop]
  rw [hsplit]
  by_cases h : n ≤ digest.length
  case pos =>
    apply List.take_left'
    rw [length_hexEncode, List.length_take, Nat.min_eq_left h]
  case neg =>
    have hdrop : digest.drop n = [] := List.drop_eq_nil_of_le (by omega)
    rw [hdrop]
    show List.take _ (hexEncode _ ++ []) = _
    rw [List.append_nil]
    apply List.take_of_length_le
    rw [length_hexEncode, List.length_take]
    omega

/-- What the script of the integrity page finds is what the server wants. -/
lemma proof_eq {challenge : Str} : Script.proof crates challenge = Bic.wantedProof crates challenge := by
  rw [Script.proof, hexText_eq, utf8_append]
  exact @take_hexEncode _ 8

/-- Minted values are written in cookie octets. -/
lemma octets_of_minted (docs : MacDocs crates) (h : Minted crates name value) :
    value.all isCookieOctet = true := by
  have key : ∀ n : Fin 128, (Char.ofNat n == '.' || isBase64Url (Char.ofNat n)) = true →
      isCookieOctet (Char.ofNat n) = true := by decide
  apply List.all_eq_true.mpr
  intro ch hc
  have hch := h.chars docs ch hc
  obtain ⟨n, rfl⟩ := exists_ascii (minted_char_lt hch)
  exact key n hch

/-- A minted cookie is kept for its lifetime. -/
lemma receive_minted {ttl : Nat} (docs : MacDocs crates) (h : Minted crates name value)
    (hname : name.all isTokenChar = true) (httl : ttl < 2 ^ 64) :
    ∃ k : Cookie, k.kv = (name, value)
      ∧ jar.receive now (some (name ++ "=" ++ value ++ "; Path=/; Max-Age=" ++ dec ttl
        ++ "; HttpOnly; SameSite=Lax")) = jar.keep ⟨k, now + ttl⟩ := by
  refine ⟨⟨name, value, hname, octets_of_minted docs h⟩, rfl, ?_⟩
  have hread := @SetCookie.read_line ttl ⟨name, value, hname, octets_of_minted docs h⟩ httl
  rw [Jar.receive, Option.bind_some, hread]

/-- The page of the integrity check has a token of the server. -/
lemma serveChallenge_bic {e : Engine} {sess : Session} {d : Decision} {bicChal : Vector UInt8 12}
    {powChal : Vector UInt8 16} {token : BicToken} {requestId original : Str}
    (h : serveChallenge crates e sess d now bicChal powChal = .bic token requestId original) :
    token = e.bic.issue crates now bicChal := by
  simp only [serveChallenge] at h
  split at h
  case isTrue =>
    cases h
    rfl
  case isFalse =>
    split at h
    case isTrue => cases h
    case isFalse => cases h

/-- What is served is the page of a challenge. -/
lemma page_eq (h : t.page crates jar = some page) : ∃ d, t.asked.outcome crates jar = .decided d
    ∧ d.action = .challenge
    ∧ page = serveChallenge crates t.server (t.asked.withJar jar) d t.asked.now t.bicChal t.powChal := by
  unfold Turn.page at h
  split at h
  case h_1 d houtcome =>
    split at h
    case isTrue haction =>
      cases h
      exact ⟨d, houtcome, haction, rfl⟩
    case isFalse => cases h
  case h_2 => cases h

/-- Whose clearance has not expired is served no page. -/
lemma page_of_clearance {τ : Nat} (hfrom : t.From c b home)
    (hjar : jar.Holds c.cookieName (c.mintClearance crates τ) (τ + c.cookieTtl))
    (hclock : τ + c.cookieTtl < 2 ^ 64) (h : t.page crates jar = some page) :
    τ + c.cookieTtl ≤ t.asked.now := by
  obtain ⟨d, houtcome, haction, -⟩ := page_eq h
  by_contra hnow
  rw [Nat.not_le] at hnow
  have hcarry : (t.asked.ctx crates jar).cookie c.cookieName = some (c.mintClearance crates τ) :=
    (Sent.ctx_cookie hfrom.asked).trans (Sent.lookup_sent hjar hnow)
  have hcleared := @Engine.cleared_minted crates c t.asked.engine _ t.asked.nowMs τ
    hfrom.asked.challenger hcarry ((Nat.mod_eq_of_lt hclock).symm ▸ hnow)
  obtain hallow | hblock := (Engine.decided_of_cleared hcleared houtcome).1
  · rw [haction] at hallow
    cases hallow
  · rw [haction] at hblock
    cases hblock

/-- Who has an integrity cookie that has not expired is served another page. -/
lemma page_of_bic {τ : Nat} {ip : IpAddr} (hfrom : t.From c b home) (hip : SameSubnet home ip)
    (hjar : jar.Holds BIC_COOKIE_NAME (b.mint crates τ ip).2 (τ + Bic.COOKIE_TTL_SECS))
    (hclock : τ + Bic.COOKIE_TTL_SECS < 2 ^ 64) (h : t.page crates jar = some page)
    (hpage : ¬ page.Past) : τ + Bic.COOKIE_TTL_SECS ≤ t.asked.now := by
  obtain ⟨d, -, -, rfl⟩ := page_eq h
  by_contra hnow
  rw [Nat.not_le] at hnow
  have hmarker : subnetMarker ip = subnetMarker (socketIp t.asked.session.clientAddr) :=
    (subnetMarker_iff.mpr hip).symm.trans (subnetMarker_iff.mpr hfrom.asked.socket)
  have hverify : b.verifyCookie crates t.asked.now (b.mint crates τ ip).2
      (socketIp t.asked.session.clientAddr) = true :=
    verifyCookie_minted.mpr ⟨subnetMarker_iff.mp hmarker, (Nat.mod_eq_of_lt hclock).symm ▸ hnow⟩
  have hget : (t.asked.withJar jar).cookies.get BIC_COOKIE_NAME = some (b.mint crates τ ip).2 := by
    rw [Sent.cookies_withJar hfrom.asked]
    exact Sent.lookup_sent hjar hnow
  apply hpage
  apply serveChallenge_past
  rw [bicPresent, hget, Option.any_some, hfrom.bic]
  exact hverify

/-! ### The replies to the posts -/

/-- A proof that is accepted is answered with a cookie. -/
lemma handleBicVerify_minted {e : Engine} {submit : BicSubmit} {ip : IpAddr}
    (hread : rd.bicSubmit (readBody 1024 [] body) = some submit)
    (hok : e.bic.verifyProof crates now submit.c submit.e submit.s submit.p = .ok ()) :
    handleBicVerify crates rd.bicSubmit e body ip now
      = .minted BIC_COOKIE_NAME (e.bic.mint crates now ip).2 := by
  rw [handleBicVerify, hread, Option.any_some, hok]
  rfl

/-- Who does what the integrity page asks is handed its cookie. -/
lemma receive_bic {token : BicToken} {requestId original : Str} (docs : MacDocs crates)
    (hfrom : t.From c b home) (hpage : t.page crates jar = some (.bic token requestId original))
    (hsolved : (Page.bic token requestId original).Solved crates rd t.posted t.body) :
    ∃ k : Cookie, k.kv = b.mint crates t.posted.now t.posted.clientIp
      ∧ jar.receive t.posted.now (t.posted.reply crates rd jar t.body)
        = jar.keep ⟨k, t.posted.now + Bic.COOKIE_TTL_SECS⟩ := by
  obtain ⟨hpost, hintime, hread⟩ := hsolved
  obtain ⟨d, -, -, hserved⟩ := page_eq hpage
  have htoken : token = b.issue crates t.asked.now t.bicChal := by
    rw [serveChallenge_bic hserved.symm, hfrom.bic]
  have houtcome : t.posted.outcome crates jar = .answered .bicVerify :=
    Sent.outcome_post hpost (by decide)
  have hok : t.posted.engine.bic.verifyProof crates t.posted.now token.challenge token.expiresAt
      token.signature (Script.proof crates token.challenge) = .ok () := by
    rw [Bic.verifyProof_iff, hfrom.posted.bic, proof_eq]
    refine ⟨hintime, ?_, rfl⟩
    rw [htoken]
    rfl
  have hreply : t.posted.reply crates rd jar t.body
      = some (BIC_COOKIE_NAME ++ "=" ++ (b.mint crates t.posted.now t.posted.clientIp).2
        ++ "; Path=/; Max-Age=" ++ dec Bic.COOKIE_TTL_SECS ++ "; HttpOnly; SameSite=Lax") := by
    rw [Sent.reply, houtcome]
    show (handleBicVerify crates rd.bicSubmit t.posted.engine t.body (t.posted.ctx crates jar).clientIp
      t.posted.now).setCookie = _
    rw [handleBicVerify_minted hread hok, Sent.ctx_clientIp, hfrom.posted.bic]
    rfl
  rw [hreply]
  exact receive_minted docs (.bic b t.posted.now t.posted.clientIp) (by decide) (by decide)

/-- Who does what another page asks is handed a clearance. -/
lemma receive_work (docs : MacDocs crates) (hdifficulty : c.powDifficulty ≤ 64)
    (htoken : c.cookieName.all isTokenChar = true) (hfrom : t.From c b home)
    (hclock : t.posted.now + c.cookieTtl < 2 ^ 64) (hpage : t.page crates jar = some page)
    (hsolved : page.Solved crates rd t.posted t.body) (hpast : page.Past) :
    ∃ k : Cookie, k.kv = (c.cookieName, c.mintClearance crates t.posted.now)
      ∧ jar.receive t.posted.now (t.posted.reply crates rd jar t.body)
        = jar.keep ⟨k, t.posted.now + c.cookieTtl⟩ := by
  have hreply : t.posted.reply crates rd jar t.body = (ClearanceReply.minted c.cookieName
      (c.mintClearance crates t.posted.now) c.cookieTtl).setCookie := by
    obtain ⟨d, -, -, hserved⟩ := page_eq hpage
    cases page with
    | bic token requestId original => exact hpast.elim
    | captcha provider siteKey requestId original =>
      obtain ⟨hpost, hpassed⟩ := hsolved
      have houtcome : t.posted.outcome crates jar = .answered .turnstileVerify :=
        Sent.outcome_post hpost (by decide)
      have hminted := (@handleTurnstileVerify_minted_iff crates rd t.posted.engine t.body
        t.posted.clientIp t.posted.now _ _ _).mpr ⟨hpassed, rfl, rfl, rfl⟩
      rw [Sent.reply, houtcome]
      show (handleTurnstileVerify crates rd t.posted.engine t.body (t.posted.ctx crates jar).clientIp
        t.posted.now).setCookie = _
      rw [Sent.ctx_clientIp, hminted, hfrom.posted.challenger]
    | pow token requestId =>
      obtain ⟨hpost, hintime, fuel, nonce, hsearch, hread⟩ := hsolved
      have htoken : token = c.issue crates t.asked.now t.powChal := by
        rw [serveChallenge_pow hserved.symm, hfrom.challenger]
      have houtcome : t.posted.outcome crates jar = .answered .verify :=
        Sent.outcome_post hpost (by decide)
      have hsubmitted : Submitted crates rd t.posted.engine.challenger t.body t.posted.now
          ⟨token.challenge, dec nonce, token.signature, token.expiresAt⟩ := by
        have hsame : token.difficulty = c.powDifficulty := by rw [htoken]; rfl
        have hsolves := (Script.solves_iff (hsame.trans_le hdifficulty)).mp
          (Script.search_eq_some.mp hsearch).1
        refine ⟨hread, hintime, ?_, ?_⟩
        · rw [hfrom.posted.challenger, htoken]
          rfl
        · rw [hfrom.posted.challenger, ← hsame]
          exact hsolves
      have hminted := (@handleVerify_minted_iff crates rd t.posted.engine t.body t.posted.now _ _ _).mpr
        ⟨⟨_, hsubmitted⟩, rfl, rfl, rfl⟩
      rw [Sent.reply, houtcome]
      show (handleVerify crates rd t.posted.engine t.body t.posted.now).setCookie = _
      rw [hminted, hfrom.posted.challenger]
  have hname : CookieName c.cookieName := Cookie.cookieName (k := ⟨c.cookieName, [], htoken, rfl⟩)
  rw [hreply]
  exact receive_minted docs (.clearance c t.posted.now hname) htoken
    (lt_of_le_of_lt (Nat.le_add_left _ _) hclock)

/-! ### The visit as a whole -/

lemma Visits.tail (h : Visits c b home (t :: turns)) : Visits c b home turns where
  difficulty := h.difficulty
  token := h.token
  own := h.own
  served x hx := h.served x (.tail _ hx)
  clock x hx := h.clock x (.tail _ hx)

namespace Browses

/-- Pages are served in the order of time. -/
lemma servedAt_ge (h : Browses crates rd now jar turns pages) : ∀ p ∈ pages, now ≤ p.servedAt := by
  induction h with
  | done => exact fun _ hp => absurd hp List.not_mem_nil
  | passed hnow _ _ ih => exact fun p hp => hnow.trans (ih p hp)
  | solved hnow _ hsolved _ _ ih =>
    intro p hp
    obtain rfl | hp := List.mem_cons.mp hp
    · exact hnow
    · exact (hnow.trans hsolved).trans (ih p hp)

/-- With a clearance there is no page until it expires. -/
lemma after_clearance {τ : Nat} (h : Browses crates rd now jar turns pages) (hv : Visits c b home turns)
    (hjar : jar.Holds c.cookieName (c.mintClearance crates τ) (τ + c.cookieTtl))
    (hclock : τ + c.cookieTtl < 2 ^ 64) : ∀ p ∈ pages, τ + c.cookieTtl ≤ p.servedAt := by
  induction h with
  | done => exact fun _ hp => absurd hp List.not_mem_nil
  | passed _ _ _ ih => exact ih hv.tail hjar
  | solved _ hpage hsolved _ hrest _ =>
    have hfirst := page_of_clearance (hv.served _ (.head _)) hjar hclock hpage
    intro p hp
    obtain rfl | hp := List.mem_cons.mp hp
    · exact hfirst
    · -- a page has been served, so that the clearance has expired
      exact (hfirst.trans hsolved).trans (hrest.servedAt_ge p hp)

/-- With an integrity cookie there is no integrity page until it expires. -/
lemma after_bic {τ : Nat} {ip : IpAddr} (docs : MacDocs crates)
    (h : Browses crates rd now jar turns pages) (hv : Visits c b home turns) (hip : SameSubnet home ip)
    (hjar : jar.Holds BIC_COOKIE_NAME (b.mint crates τ ip).2 (τ + Bic.COOKIE_TTL_SECS))
    (hclock : τ + Bic.COOKIE_TTL_SECS < 2 ^ 64) :
    ∀ p ∈ pages, ¬ p.page.Past → τ + Bic.COOKIE_TTL_SECS ≤ p.servedAt := by
  induction h with
  | done => exact fun _ hp => absurd hp List.not_mem_nil
  | passed _ _ _ ih => exact ih hv.tail hjar
  | @solved now jar t turns pages page _ hpage hle hsolved hrest ih =>
    have hfrom := hv.served _ (.head _)
    intro p hp hpast
    by_cases hwork : page.Past
    case pos =>
      obtain rfl | hp := List.mem_cons.mp hp
      · exact absurd hwork hpast
      · -- the clearance that is handed out does not touch the integrity cookie
        obtain ⟨k, hk, hjar'⟩ := receive_work docs hv.difficulty hv.token hfrom
          (hv.clock _ (.head _)).1 hpage hsolved hwork
        have hname : k.name = c.cookieName := congrArg Prod.fst hk
        refine ih hv.tail ?_ p hp hpast
        rw [hjar']
        exact hjar.keep (by rw [hname]; exact hv.own)
    case neg =>
      have hfirst := page_of_bic hfrom hip hjar hclock hpage hwork
      obtain rfl | hp := List.mem_cons.mp hp
      · exact hfirst
      · exact (hfirst.trans hle).trans (hrest.servedAt_ge p hp)

end Browses

/-- The pages of a visit are spaced. -/
lemma Browses.spaced (docs : MacDocs crates) (h : Browses crates rd now jar turns pages)
    (hv : Visits c b home turns) : pages.Pairwise (Spaced c) := by
  induction h with
  | done => exact .nil
  | passed _ _ _ ih => exact ih hv.tail
  | @solved now jar t turns pages page _ hpage _ hsolved hrest ih =>
    have hfrom := hv.served _ (.head _)
    have hclock := hv.clock _ (.head _)
    refine .cons (fun q hq => ⟨fun hpast hq' => ?_, fun hpast => ?_⟩) (ih hv.tail)
    · cases page with
      | bic token requestId original =>
        obtain ⟨k, hk, hjar⟩ := receive_bic docs hfrom hpage hsolved
        have hholds := @Jar.keep_holds _ _ jar ⟨k, t.posted.now + Bic.COOKIE_TTL_SECS⟩ hk
        rw [← hjar] at hholds
        exact hrest.after_bic docs hv.tail hfrom.posted.resolved hholds hclock.2 q hq hq'
      | captcha => exact (hpast trivial).elim
      | pow => exact (hpast trivial).elim
    · obtain ⟨k, hk, hjar⟩ :=
        receive_work docs hv.difficulty hv.token hfrom hclock.1 hpage hsolved hpast
      have hholds := @Jar.keep_holds _ _ jar ⟨k, t.posted.now + c.cookieTtl⟩ hk
      rw [← hjar] at hholds
      exact hrest.after_clearance hv.tail hholds hclock.1 q hq

lemma Browses.servedAt_le (h : Browses crates rd now jar turns pages) :
    ∀ p ∈ pages, p.servedAt ≤ p.solvedAt := by
  induction h with
  | done => exact fun _ hp => absurd hp List.not_mem_nil
  | passed _ _ _ ih => exact ih
  | solved _ _ hle _ _ ih =>
    intro p hp
    obtain rfl | hp := List.mem_cons.mp hp
    · exact hle
    · exact ih p hp

/-- A visitor whose browser does what the pages ask is not served the integrity page again before its
cookie has expired, and no page at all before the clearance has. So a visit that is shorter than both
lifetimes has two pages at most, whatever is asked of the server and however it is set in between. -/
theorem two_pages (docs : MacDocs crates) (hv : Visits c b home turns)
    (h : Browses crates rd now jar turns pages) :
    pages.Pairwise (Spaced c)
      ∧ ((∀ p ∈ pages, p.servedAt < now + c.cookieTtl ∧ p.servedAt < now + Bic.COOKIE_TTL_SECS) →
        pages.length ≤ 2) := by
  have hspaced := h.spaced docs hv
  refine ⟨hspaced, fun hshort => ?_⟩
  -- a page that another one follows is the integrity page
  have hfirst : ∀ p ∈ pages, ∀ q ∈ pages, Spaced c p q → ¬ p.page.Past := by
    intro p hp q hq hpq hpast
    have hsolved := (h.servedAt_ge p hp).trans (h.servedAt_le p hp)
    have hnext := hpq.work hpast
    have hend := (hshort q hq).1
    omega
  by_contra hlong
  cases pages with
  | nil => exact hlong (Nat.zero_le _)
  | cons p pages =>
    cases pages with
    | nil => exact hlong (Nat.le_succ _)
    | cons q pages =>
      cases pages with
      | nil => exact hlong (Nat.le_refl _)
      | cons r rest =>
        obtain ⟨hp, hrest⟩ := List.pairwise_cons.mp hspaced
        have hpq := hp q (.head _)
        have hqr := (List.pairwise_cons.mp hrest).1 r (.head _)
        have hp' := hfirst p (.head _) q (.tail _ (.head _)) hpq
        have hq' := hfirst q (.tail _ (.head _)) r (.tail _ (.tail _ (.head _))) hqr
        have hsolved := (h.servedAt_ge p (.head _)).trans (h.servedAt_le p (.head _))
        have hnext := hpq.bic hp' hq'
        have hend := (hshort q (.tail _ (.head _))).2
        omega

end

/-! ### A visitor -/

/-- A server under attack, which challenges every request that is not cleared. -/
def pressedEngine : Engine :=
  { Engine.sampleEngine with
    challenger := visitServer
    runtime := { Engine.sampleEngine.runtime with uamLevel := 4 } }

/-- The crates on the inputs of the example: the signatures of two tokens and two cookies, and the digest
of the integrity page. -/
def browserCrates : Crates where
  __ := visitCrates
  hmac _ p :=
    if p = "070000000000000000000000|1700000060".toList then base64Url
      [53, 11, 110, 236, 192, 24, 252, 204, 94, 228, 14, 219, 215, 52, 179, 141, 239, 229, 6, 62, 220,
        13, 169, 141, 89, 230, 254, 42, 62, 232, 111, 163]
    else if p = "bic|1700001801|4010203".toList then base64Url
      [187, 5, 115, 177, 246, 15, 142, 216, 173, 65, 235, 88, 209, 66, 220, 206, 223, 48, 236, 199,
        176, 96, 1, 88, 123, 175, 135, 141, 53, 193, 159, 45]
    else if p = "05000000000000000000000000000000|1700000122".toList then base64Url
      [135, 205, 178, 15, 199, 122, 134, 205, 203, 52, 115, 151, 136, 56, 164, 91, 27, 134, 98, 222, 250,
        4, 82, 125, 140, 185, 1, 94, 236, 37, 131, 3]
    else base64Url
      [61, 176, 18, 114, 174, 94, 179, 253, 12, 67, 188, 111, 162, 76, 31, 52, 57, 185, 186, 105, 249, 7,
        146, 195, 33, 123, 92, 111, 183, 76, 162, 87]
  sha256 bytes :=
    if bytes = utf8 "0700000000000000000000002t1bic" then
      #v[106, 100, 116, 128, 43, 225, 43, 104, 111, 129, 155, 21, 137, 99, 238, 237, 20, 175, 165, 84, 91,
        10, 55, 113, 21, 81, 99, 11, 214, 235, 169, 204]
    else visitCrates.sha256 bytes

/-- What the two scripts post. -/
def browserProof : List UInt8 :=
  utf8 ("\x7b\"c\":\"070000000000000000000000\",\"e\":1700000060,\"s\":\""
    ++ "NQtu7MAY_Mxe5A7b1zSzje_lBj7cDamNWeb-Kj7ob6M\",\"p\":\"6a6474802be12b68\"\x7d")

def browserWork : List UInt8 :=
  utf8 ("\x7b\"c\":\"05000000000000000000000000000000\",\"n\":\"0\",\"s\":\""
    ++ "h82yD8d6hs3LNHOXiDikWxuGYt76BFJ9jLkBXuwlgwM\",\"e\":1700000122\x7d")

/-- The parsers on the two bodies. -/
def browserReaders : Readers where
  __ := visitReaders
  bicSubmit bytes :=
    if bytes = browserProof then some ⟨"070000000000000000000000", 1700000060,
      "NQtu7MAY_Mxe5A7b1zSzje_lBj7cDamNWeb-Kj7ob6M", "6a6474802be12b68"⟩
    else none
  submit bytes :=
    if bytes = browserWork then some ⟨"05000000000000000000000000000000", "0",
      "h82yD8d6hs3LNHOXiDikWxuGYt76BFJ9jLkBXuwlgwM", 1700000122⟩
    else none

def browserHeaders : List HeaderLine :=
  [⟨"host", utf8 "h"⟩, ⟨"user-agent", utf8 "Mozilla/5.0"⟩, ⟨"accept", utf8 "*/*"⟩]

/-- A request of the visitor, for a page or to an endpoint. -/
def browserSent (method path : Str) (seconds : Nat) : Sent where
  engine := pressedEngine
  disk _ := none
  session := {
    clientAddr := some (.inet (.v4 (.new 1 2 3 4)))
    method := method
    uri := path
    path := path
    query := none
    pathAndQuery := some path
    version := "HTTP/1.1"
    headers := browserHeaders }
  site := [⟨"lang", "en", by decide, by decide⟩]
  requestId := "t"
  nowMs := seconds * 1000

def browserTurn (asked : Nat) (path : Str) (posted : Nat) (body : List UInt8) : Turn where
  asked := browserSent "GET" "/x" asked
  server := pressedEngine
  bicChal := #v[7, 0, 0, 0, 0, 0, 0, 0, 0, 0, 0, 0]
  powChal := visitChal
  posted := browserSent "POST" path posted
  body := [body]

/-- The integrity page, the proof of work, and what was asked for. -/
def browserTurns : List Turn :=
  [browserTurn 1700000000 "/__2t1/bic-verify" 1700000001 browserProof,
    browserTurn 1700000002 "/__2t1/verify" 1700000003 browserWork,
    browserTurn 1700000004 "/" 1700000005 []]

def browserPages : List Served :=
  [⟨.bic (pressedEngine.bic.issue browserCrates 1700000000 #v[7, 0, 0, 0, 0, 0, 0, 0, 0, 0, 0, 0]) "t"
      "/x", 1700000000, 1700000001⟩,
    ⟨.pow (visitServer.issue browserCrates 1700000002 visitChal) "t", 1700000002, 1700000003⟩]

lemma browserCrates_docs : MacDocs browserCrates := by
  intro key payload
  show ∃ mac, ite _ _ _ = base64Url mac
  split
  case isTrue => exact ⟨_, rfl⟩
  case isFalse =>
    split
    case isTrue => exact ⟨_, rfl⟩
    case isFalse =>
      split
      case isTrue => exact ⟨_, rfl⟩
      case isFalse => exact ⟨_, rfl⟩

/-- The sample requests come from one subnet. -/
lemma browserSent_from {method path : Str} {seconds : Nat} :
    (browserSent method path seconds).From visitServer pressedEngine.bic (.v4 (.new 1 2 3 77)) where
  challenger := rfl
  bic := rfl
  names := by
    intro l hl
    have hall : browserHeaders.all (fun l => decide (toAsciiLower l.name = l.name)) = true := by decide
    exact of_decide_eq_true (List.all_eq_true.mp hall l hl)
  bare := by
    intro l hl
    have hall : browserHeaders.all (fun l => decide (l.name ≠ "cookie".toList)) = true := by decide
    exact of_decide_eq_true (List.all_eq_true.mp hall l hl)
  site := by
    intro k hk
    rw [List.mem_singleton.mp hk]
    decide
  socket := by
    show SameSubnet _ (.v4 (.new 1 2 3 4))
    exact subnetMarker_iff.mp (by decide)
  resolved := by
    show SameSubnet _ (.v4 (.new 1 2 3 4))
    exact subnetMarker_iff.mp (by decide)

/-- The sample is a visit. -/
lemma browserTurns_visits :
    Visits visitServer pressedEngine.bic (.v4 (.new 1 2 3 77)) browserTurns where
  difficulty := by decide
  token := by decide
  own := by decide
  served := by
    intro t ht
    obtain rfl | ht := List.mem_cons.mp ht
    · exact ⟨browserSent_from, rfl, rfl, browserSent_from⟩
    · obtain rfl | ht := List.mem_cons.mp ht
      · exact ⟨browserSent_from, rfl, rfl, browserSent_from⟩
      · rw [List.mem_singleton.mp ht]
        exact ⟨browserSent_from, rfl, rfl, browserSent_from⟩
  clock := by
    intro t ht
    obtain rfl | ht := List.mem_cons.mp ht
    · decide
    · obtain rfl | ht := List.mem_cons.mp ht
      · decide
      · rw [List.mem_singleton.mp ht]
        decide

set_option maxRecDepth 4000 in
/-- It takes two pages. -/
lemma browserTurns_browses : Browses browserCrates browserReaders 1700000000 [] browserTurns
    browserPages := by
  refine .solved (by decide) rfl (by decide) ?_ ?_
  · refine ⟨⟨rfl, rfl, by decide⟩, by decide, ?_⟩
    rfl
  · refine .solved (by decide) rfl (by decide) ?_ ?_
    · refine ⟨⟨rfl, rfl, by decide⟩, by decide, 1, 0, by decide, ?_⟩
      rfl
    · exact .passed (by decide) rfl .done

/-- An integrity page and a proof-of-work page. -/
theorem two_pages_witness :
    browserPages.Pairwise (Spaced visitServer) ∧ browserPages.length ≤ 2 := by
  have h := two_pages browserCrates_docs browserTurns_visits browserTurns_browses
  refine ⟨h.1, h.2 ?_⟩
  intro p hp
  obtain rfl | hp := List.mem_cons.mp hp
  · decide
  · rw [List.mem_singleton.mp hp]
    decide

end Waf
