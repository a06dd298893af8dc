import Waf.Signal.Anomaly

/-!
# Gates

What the engine asks about an address before it scores a request: whether it belongs to a search
crawler (`goodbot.rs`), whether the path is a trap (`honeypots.rs`) and how many of its requests are
in flight (`connections.rs`).

A crawler is verified by lookups that run in the background. Here a classification only notes the
lookup it has started, and `complete` enters the outcome of one.
-/

namespace Waf
open Lib

/-! ## Crawlers -/

namespace Goodbot

def POSITIVE_TTL_SECS : Nat := 3600
def NEGATIVE_TTL_SECS : Nat := 300
def PENDING_TTL_SECS : Nat := 30

def W_GOODBOT_SPOOF : Nat := 60

/-- A crawler: the token in its user agent, the suffixes of its host names and its name. -/
structure Bot where
  token : Str
  suffixes : List Str
  name : Str

def KNOWN_BOTS : List Bot := [
  ⟨"googlebot", [".googlebot.com", ".google.com"], "Googlebot"⟩,
  ⟨"google-inspectiontool", [".google.com"], "Google InspectionTool"⟩,
  ⟨"adsbot-google", [".googlebot.com", ".google.com"], "AdsBot-Google"⟩,
  ⟨"apis-google", [".google.com"], "APIs-Google"⟩,
  ⟨"googleother", [".googlebot.com", ".google.com"], "GoogleOther"⟩,
  ⟨"mediapartners-google", [".google.com"], "Mediapartners"⟩,
  ⟨"bingbot", [".search.msn.com"], "Bingbot"⟩,
  ⟨"adidxbot", [".search.msn.com"], "AdIdxBot"⟩,
  ⟨"msnbot", [".search.msn.com"], "MSNBot"⟩,
  ⟨"duckduckbot", [".duckduckgo.com"], "DuckDuckBot"⟩,
  ⟨"yandexbot", [".yandex.com", ".yandex.net", ".yandex.ru"], "YandexBot"⟩,
  ⟨"yandeximages", [".yandex.com", ".yandex.net", ".yandex.ru"], "YandexImages"⟩,
  ⟨"baiduspider", [".baidu.com", ".baidu.jp"], "Baiduspider"⟩,
  ⟨"applebot", [".applebot.apple.com", ".apple.com"], "Applebot"⟩,
  ⟨"facebookexternalhit", [".facebook.com", ".fbsv.net"], "FacebookBot"⟩,
  ⟨"meta-externalagent", [".facebook.com", ".fbsv.net"], "MetaBot"⟩,
  ⟨"linkedinbot", [".linkedin.com"], "LinkedInBot"⟩,
  ⟨"twitterbot", [".twttr.com", ".twitter.com"], "Twitterbot"⟩,
  ⟨"discordbot", [".discordapp.com", ".discord.com"], "Discordbot"⟩]

inductive State where
  | pending
  | verified (name : Str)
  | rejected
  deriving DecidableEq

structure CacheEntry where
  state : State
  expiresAt : Nat
  ptr : Option Str

inductive Verdict where
  | notABot
  | goodBotVerified (name : Str)
  | goodBotPending
  | goodBotSpoofed (name : Str)
  deriving DecidableEq

/-- A lookup that `spawn_verify` has started. -/
structure Lookup where
  ip : IpAddr
  suffixes : List Str
  name : Str

structure GoodBotVerifier where
  cache : HashMap IpAddr CacheEntry := ∅
  spawned : List Lookup := []

/-- The crawler that a user agent claims to be: the first whose token it contains. -/
def claimedBot (ua : Str) : Option Bot :=
  KNOWN_BOTS.find? fun b => contains b.token (toAsciiLower ua)

namespace GoodBotVerifier

/-- The entry of an address that has not expired. -/
def live (g : GoodBotVerifier) (ip : IpAddr) (now : Nat) : Option CacheEntry :=
  (g.cache.get ip).filter fun e => now < e.expiresAt

def classify (g : GoodBotVerifier) (ip : IpAddr) (ua : Str) (now : Nat) :
    Verdict × GoodBotVerifier :=
  if ua.isEmpty then (.notABot, g)
  else
    match claimedBot ua with
    | none => (.notABot, g)
    | some bot =>
      match g.live ip now with
      | some e =>
        match e.state with
        | .verified n => (.goodBotVerified n, g)
        | .rejected => (.goodBotSpoofed bot.name, g)
        | .pending => (.goodBotPending, g)
      | none =>
        (.goodBotPending,
          { cache := g.cache.insert ip ⟨.pending, (now + PENDING_TTL_SECS) % 2 ^ 64, none⟩
            spawned := g.spawned ++ [⟨ip, bot.suffixes, bot.name⟩] })

/-- The check of a lookup: the host name of the address, in lower case, ends with one of the
suffixes and resolves to the address again. -/
def verifyBlocking (lookupAddr : Option Str) (lookupHost : Str → Option (List IpAddr))
    (l : Lookup) : Bool × Str :=
  match lookupAddr with
  | none => (false, [])
  | some host =>
    let ptr := toAsciiLower host
    if !(l.suffixes.any fun s => endsWith ptr s) then (false, ptr)
    else
      match lookupHost ptr with
      | none => (false, ptr)
      | some resolved => (resolved.contains l.ip, ptr)

/-- The end of a spawned lookup; the outcome is missing when its task failed. -/
def complete (g : GoodBotVerifier) (l : Lookup) (outcome : Option (Bool × Str)) (now : Nat) :
    GoodBotVerifier :=
  let entry : CacheEntry :=
    match outcome with
    | some (true, ptr) => ⟨.verified l.name, (now + POSITIVE_TTL_SECS) % 2 ^ 64, some ptr⟩
    | some (false, ptr) =>
      ⟨.rejected, (now + NEGATIVE_TTL_SECS) % 2 ^ 64, if ptr.isEmpty then none else some ptr⟩
    | none => ⟨.rejected, (now + NEGATIVE_TTL_SECS) % 2 ^ 64, none⟩
  { g with cache := g.cache.insert l.ip entry }

end GoodBotVerifier

def spoofReason (name : Str) : DecisionReason :=
  ⟨"GOODBOT-SPOOF", "bot", W_GOODBOT_SPOOF,
    "UA claims " ++ name ++ " but reverse-DNS contradicted it"⟩

end Goodbot

/-! ## Traps -/

namespace Honeypot

def W_HONEYPOT : Nat := 100

def DEFAULT_TRAPS : List Str := [
  "/.env",
  "/.env.local",
  "/.env.production",
  "/.env.dev",
  "/.git/config",
  "/.git/HEAD",
  "/.git/index",
  "/.gitignore",
  "/.svn/wc.db",
  "/.hg/store",
  "/.aws/credentials",
  "/.ssh/id_rsa",
  "/.ssh/authorized_keys",
  "/.dockerignore",
  "/.docker/config.json",
  "/.npmrc",
  "/.bash_history",
  "/wp-config.php",
  "/wp-config.php.bak",
  "/wp-config.bak",
  "/wp-config.txt",
  "/wp-admin/setup-config.php",
  "/wp-admin/install.php",
  "/wp-content/debug.log",
  "/xmlrpc.php",
  "/phpinfo.php",
  "/info.php",
  "/test.php",
  "/phpmyadmin/",
  "/pma/",
  "/myadmin/",
  "/server-status",
  "/server-info",
  "/console",
  "/manager/html",
  "/manager/status",
  "/admin.php",
  "/setup.php",
  "/.well-known/security.txt.bak",
  "/cgi-bin/luci",
  "/cgi-bin/php-cgi",
  "/HNAP1/",
  "/Autodiscover/Autodiscover.xml",
  "/owa/auth/logon.aspx",
  "/ews/exchange.asmx",
  "/boaform/admin/formLogin",
  "/cgi-bin/.%2e/",
  "/actuator/env",
  "/actuator/heapdump",
  "/actuator/prometheus",
  "/api/v1/cluster/info",
  "/druid/indexer/v1/sampler",
  "/struts2-rest-showcase/orders/3",
  "/_ignition/execute-solution"]

structure Honeypots where
  paths : List Str := DEFAULT_TRAPS

namespace Honeypots

def replace (_ : Honeypots) (paths : List Str) : Honeypots := ⟨paths⟩

def snapshot (h : Honeypots) : List Str := h.paths

def isTrap (h : Honeypots) (path : Str) : Bool :=
  h.paths.any fun p =>
    if endsWith p "/" then startsWith path p else path == p || startsWith path (p ++ "?")

def check (h : Honeypots) (path : Str) : Option DecisionReason :=
  if h.isTrap path then
    some ⟨"HONEYPOT", "honeypot", W_HONEYPOT, "trap path " ++ path.take 64⟩
  else none

end Honeypots

end Honeypot

/-! ## Requests in flight -/

structure ConnTracker where
  inner : HashMap IpAddr Int := ∅

namespace ConnTracker

/-- The number of addresses past which the table takes no new ones. -/
def maxEntries : Nat := 150000

def inc (t : ConnTracker) (ip : IpAddr) : Int × ConnTracker :=
  match t.inner.get ip with
  | some v => (v + 1, { inner := t.inner.insert ip (v + 1) })
  | none => if maxEntries < t.inner.size then (999999, t) else (1, { inner := t.inner.insert ip 1 })

/-- A counter that was not positive is set to zero. -/
def dec (t : ConnTracker) (ip : IpAddr) : ConnTracker :=
  { inner := t.inner.modify ip fun v => if v ≤ 0 then 0 else v - 1 }

def current (t : ConnTracker) (ip : IpAddr) : Int := (t.inner.get ip).getD 0

def gc (t : ConnTracker) : ConnTracker := { inner := t.inner.retain fun _ v => 0 < v }

/-- The requests in flight of all addresses. -/
def total (t : ConnTracker) : Int := t.inner.values.sum

end ConnTracker

end Waf
