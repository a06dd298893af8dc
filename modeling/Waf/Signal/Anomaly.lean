import Waf.Config
import Waf.Decision

/-!
# Anomalies of a single request

The signals that look at nothing but the request: the browser heuristics of `bot_score.rs`, the
flood patterns of `ddos.rs`, and the hosting ranges of `datacenter.rs`.
-/

namespace Waf
open Lib

/-- The reason of a signal, if it fires. -/
def fire (cond : Bool) (r : DecisionReason) : List DecisionReason := if cond then [r] else []

@[simp] lemma mem_fire {cond r r'} : r' ∈ fire cond r ↔ cond = true ∧ r' = r := by
  cases cond with
  | true => simp [fire]
  | false => simp [fire]

def startsWith (s needle : Str) : Bool := needle.isPrefixOf s

def endsWith (s needle : Str) : Bool := needle.isSuffixOf s

namespace BotScore

def W_NO_ACCEPT : Nat := 8
def W_NO_ACCEPT_LANG : Nat := 8
def W_NO_ACCEPT_ENCODING : Nat := 10
def W_NO_SEC_FETCH : Nat := 12
def W_UA_SECCH_MISMATCH : Nat := 35
def W_HTTP_1_0 : Nat := 25
def W_TINY_UA : Nat := 25
def W_NUMERIC_UA : Nat := 30
def W_NO_REFERER_POST : Nat := 12
def W_HEADERLESS_BROWSER : Nat := 30

def isAsciiWhitespace (c : Char) : Bool :=
  c == ' ' || c == '\t' || c == '\n' || c.toNat == 12 || c == '\r'

def score (ctx : RequestCtx) : List DecisionReason :=
  let ua := toAsciiLower ctx.userAgent
  let claimsChromium := contains "chrome/" ua || contains "edg/" ua || contains "opr/" ua
  let claimsBrowser :=
    contains "mozilla/" ua || claimsChromium || contains "firefox/" ua || contains "safari/" ua
  let has := fun name : Str => ctx.headers.containsKey name
  let hasSecFetch := ctx.headers.toPairs.any fun e => startsWith e.1 "sec-fetch-"
  let version := ctx.headers.get "x-http-version"
  fire (!has "accept") ⟨"BOT-NO-ACCEPT", "bot", W_NO_ACCEPT, "Accept header missing"⟩
    ++ fire (!has "accept-language")
      ⟨"BOT-NO-LANG", "bot", W_NO_ACCEPT_LANG, "Accept-Language header missing"⟩
    ++ fire (!has "accept-encoding")
      ⟨"BOT-NO-ENC", "bot", W_NO_ACCEPT_ENCODING, "Accept-Encoding header missing"⟩
    ++ fire (claimsBrowser && !hasSecFetch)
      ⟨"BOT-NO-SEC-FETCH", "bot", W_NO_SEC_FETCH, "claims browser UA but no sec-fetch-* headers"⟩
    ++ fire (claimsChromium && !has "sec-ch-ua")
      ⟨"BOT-UA-MISMATCH", "bot", W_UA_SECCH_MISMATCH, "Chrome UA without sec-ch-ua header"⟩
    ++ fire (version == some "HTTP/1.0".toList || version == some "1.0".toList)
      ⟨"BOT-HTTP10", "bot", W_HTTP_1_0, "HTTP/1.0 from public internet"⟩
    ++ fire (!ctx.userAgent.isEmpty && byteLen ctx.userAgent < 8)
      ⟨"BOT-UA-TINY", "bot", W_TINY_UA, "User-Agent suspiciously short"⟩
    ++ fire (!ctx.userAgent.isEmpty
        && ctx.userAgent.all fun c => c.isDigit || isAsciiWhitespace c)
      ⟨"BOT-UA-NUMERIC", "bot", W_NUMERIC_UA, "User-Agent looks autogenerated"⟩
    ++ fire (claimsBrowser && ctx.headers.size < 6)
      ⟨"BOT-MIN-HDRS", "bot", W_HEADERLESS_BROWSER, "browser UA with very few headers"⟩
    ++ fire (eqIgnoreCase ctx.method "POST" && !has "referer" && !startsWith ctx.path "/api/")
      ⟨"BOT-NO-REFERER-POST", "bot", W_NO_REFERER_POST, "POST without Referer outside /api/"⟩

end BotScore

namespace Ddos

def W_GET_WITH_BODY : Nat := 25
def W_EMPTY_CONNECTION : Nat := 18
def W_CACHE_BUSTER : Nat := 20
def W_DUP_HEADERS : Nat := 18
def W_OPTIONS_NOORIG : Nat := 22
def W_NULLBYTE : Nat := 100
def W_QUERY_BLOAT : Nat := 25

def SUSPECT_BUSTER_KEYS : List Str :=
  ["_t", "_ts", "_r", "_rand", "rand", "nocache", "cb", "cachebust", "_="]

def score (ctx : RequestCtx) : List DecisionReason :=
  let has := fun name : Str => ctx.headers.containsKey name
  let contentLength := ctx.contentLength.getD 0
  let ampersands := ctx.query.count '&'
  let busterHits := (SUSPECT_BUSTER_KEYS.filter fun k => contains (k ++ "=") ctx.query).length
  let duplicated := ctx.headers.get "x-duplicated-headers"
  fire ((eqIgnoreCase ctx.method "GET" || eqIgnoreCase ctx.method "HEAD") && 0 < contentLength)
      ⟨"DDOS-GET-BODY", "ddos", W_GET_WITH_BODY,
        ctx.method ++ " with content-length=" ++ dec contentLength⟩
    ++ fire ((ctx.headers.get "connection").any fun c => (trim c).isEmpty)
      ⟨"DDOS-EMPTY-CONN", "ddos", W_EMPTY_CONNECTION, "empty Connection header"⟩
    ++ fire (eqIgnoreCase ctx.method "OPTIONS" && !has "origin"
        && !has "access-control-request-method")
      ⟨"DDOS-OPTIONS-NOORIG", "ddos", W_OPTIONS_NOORIG, "OPTIONS without CORS preflight headers"⟩
    ++ fire (ctx.uri.contains (Char.ofNat 0))
      ⟨"DDOS-NUL", "ddos", W_NULLBYTE, "NUL byte in URI"⟩
    ++ fire (2048 < byteLen ctx.query || 64 < ampersands)
      ⟨"DDOS-QUERY-BLOAT", "ddos", W_QUERY_BLOAT,
        "query=" ++ dec (byteLen ctx.query) ++ "B params=" ++ dec (ampersands + 1)⟩
    ++ fire (2 ≤ busterHits)
      ⟨"DDOS-CACHEBUST", "ddos", W_CACHE_BUSTER,
        dec busterHits ++ " cache-buster keys in query"⟩
    ++ fire (duplicated.any fun d => d != "0".toList)
      ⟨"DDOS-DUP-HDR", "ddos", W_DUP_HEADERS,
        duplicated.getD [] ++ " duplicated singleton headers"⟩

end Ddos

namespace Datacenter

def RAW : List Str := [
  -- OVH
  "5.39.0.0/17", "5.135.0.0/16", "5.196.0.0/15",
  "37.59.0.0/16", "37.187.0.0/16",
  "46.105.0.0/16", "51.38.0.0/16", "51.68.0.0/16",
  "51.75.0.0/16", "51.77.0.0/16", "51.83.0.0/16",
  "51.89.0.0/16", "51.91.0.0/16", "51.222.0.0/16",
  "54.36.0.0/14", "92.222.0.0/16", "94.23.0.0/16",
  "146.59.0.0/16", "147.135.0.0/16", "149.202.0.0/16",
  "151.80.0.0/16", "164.132.0.0/16", "167.114.0.0/16",
  "176.31.0.0/16", "178.32.0.0/15", "188.165.0.0/16",
  "192.95.0.0/16", "192.99.0.0/16", "198.27.64.0/18",
  "213.32.0.0/16", "213.186.32.0/19", "213.251.128.0/18",
  -- Hetzner
  "5.9.0.0/16", "23.88.0.0/17", "37.27.0.0/16", "46.4.0.0/16",
  "65.108.0.0/16", "78.46.0.0/16", "78.47.0.0/16",
  "88.99.0.0/16", "94.130.0.0/16", "95.216.0.0/16",
  "116.202.0.0/16", "135.181.0.0/16", "136.243.0.0/16",
  "138.201.0.0/16", "144.76.0.0/16", "148.251.0.0/16",
  "157.90.0.0/16", "159.69.0.0/16", "162.55.0.0/16",
  "168.119.0.0/16", "176.9.0.0/16", "188.40.0.0/16",
  "195.201.0.0/16", "213.133.96.0/20", "213.239.192.0/18",
  -- DigitalOcean
  "104.131.0.0/16", "104.236.0.0/16", "138.197.0.0/16",
  "138.68.0.0/16", "139.59.0.0/16", "143.110.144.0/20",
  "143.198.0.0/16", "146.190.0.0/16", "157.230.0.0/16",
  "157.245.0.0/16", "159.65.0.0/16", "159.89.0.0/16",
  "159.203.0.0/16", "162.243.0.0/16", "165.227.0.0/16",
  "167.71.0.0/16", "167.99.0.0/16", "174.138.0.0/17",
  "188.166.0.0/16", "192.81.208.0/20", "198.199.64.0/18",
  "206.81.0.0/19", "207.154.192.0/18",
  -- Vultr
  "8.9.4.0/24", "45.32.0.0/16", "45.63.0.0/16", "45.76.0.0/16",
  "45.77.0.0/16", "63.209.32.0/19", "64.176.0.0/15",
  "66.42.32.0/19", "70.34.192.0/18", "95.179.128.0/17",
  "104.156.224.0/19", "104.207.128.0/17", "104.238.128.0/18",
  "108.61.0.0/16", "136.244.64.0/18", "139.180.128.0/18",
  "140.82.0.0/18", "144.202.0.0/16", "149.28.0.0/16",
  "149.248.0.0/16", "155.138.128.0/17", "207.148.0.0/18",
  "208.85.16.0/20", "209.222.16.0/20",
  -- Linode / Akamai
  "23.92.16.0/20", "23.239.0.0/17", "45.33.0.0/17",
  "45.56.64.0/18", "45.79.0.0/16", "50.116.0.0/18",
  "66.175.208.0/20", "69.164.192.0/19", "72.14.176.0/20",
  "74.207.224.0/19", "96.126.96.0/19", "97.107.128.0/19",
  "103.3.60.0/22", "104.200.16.0/20", "109.74.192.0/19",
  "139.144.0.0/16", "139.162.0.0/16", "143.42.0.0/16",
  "162.216.16.0/22", "172.104.0.0/15", "172.232.0.0/13",
  "173.230.128.0/19", "173.255.192.0/18", "176.58.96.0/19",
  "178.79.128.0/18", "192.46.208.0/20", "192.81.128.0/18",
  "192.155.80.0/20", "194.195.112.0/20", "198.58.96.0/19",
  "212.71.232.0/21",
  -- AWS (a representative slice; AWS publishes the full list)
  "3.0.0.0/15", "3.2.0.0/16", "3.4.0.0/16", "3.5.0.0/16",
  "13.32.0.0/15", "13.34.0.0/15", "13.52.0.0/15",
  "15.177.0.0/16", "18.130.0.0/16", "18.156.0.0/14",
  "18.196.0.0/15", "34.192.0.0/12", "35.71.64.0/22",
  "35.155.0.0/16", "35.180.0.0/16", "44.192.0.0/11",
  "52.0.0.0/11", "52.32.0.0/11", "52.64.0.0/12",
  "52.84.0.0/15", "54.64.0.0/13", "54.144.0.0/12",
  "54.176.0.0/12", "54.192.0.0/12", "54.208.0.0/13",
  "54.216.0.0/14", "54.224.0.0/12", "54.240.0.0/12",
  "100.20.0.0/14", "184.169.128.0/17",
  -- GCP (representative slice)
  "8.34.208.0/20", "23.236.48.0/20", "23.251.128.0/19",
  "34.0.0.0/15", "34.64.0.0/10", "35.184.0.0/13",
  "35.192.0.0/14", "35.196.0.0/15", "35.198.0.0/16",
  "35.199.0.0/17", "104.154.0.0/15", "104.196.0.0/14",
  "107.167.160.0/19", "107.178.192.0/18", "108.59.80.0/20",
  "130.211.0.0/16", "146.148.0.0/17", "162.216.148.0/22",
  "199.192.112.0/22", "199.223.232.0/21", "208.68.108.0/22",
  -- Azure (representative slice)
  "13.64.0.0/11", "13.96.0.0/13", "13.104.0.0/14",
  "20.0.0.0/8", "23.96.0.0/13", "40.64.0.0/10",
  "52.96.0.0/12", "52.112.0.0/14", "65.52.0.0/14",
  "70.37.0.0/17", "94.245.64.0/18", "104.40.0.0/13",
  "138.91.0.0/16", "168.61.0.0/16", "168.62.0.0/15",
  "191.232.0.0/13", "207.46.0.0/16"]

/-- The ranges that `ipnet` accepts. -/
def nets (crates : Crates) : List IpNet := RAW.filterMap crates.ipNet

def isDatacenter (crates : Crates) (ip : IpAddr) : Bool :=
  (nets crates).any fun n => n.contains ip

end Datacenter

end Waf
