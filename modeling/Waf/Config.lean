import Waf.Net.Addr
import Waf.Lib.Ring

/-!
# Configuration

What a process is started with: the sections of `waf.toml` that the modelled code reads, and the
functions of the third-party crates it calls. The crates are parameters of the model, since their
code is not part of the repository.

Fields of 32 bits whose arithmetic the code performs in that width are `UInt32`; all other numbers
are natural numbers.
-/

namespace Waf
open Lib

/-- The functions of third-party crates that the modelled code calls. -/
structure Crates where
  /-- `regex::Regex::new`, an accepted pattern being given by its `is_match`. -/
  regex : Str → Option (Str → Bool)
  /-- `ipnet::IpNet::from_str`. -/
  ipNet : Str → Option IpNet
  /-- What `ipnet::AddrParseError` displays. -/
  ipNetError : Str
  /-- HMAC-SHA256 of a payload under a key (`hmac`, `sha2`), in base64-url without padding
  (`base64`). -/
  hmac : Str → Str → Str
  /-- `sha2::Sha256::digest`. -/
  sha256 : List UInt8 → Vector UInt8 32
  /-- The ASCII case-insensitive `aho_corasick::AhoCorasick` of some texts, given by its
  `is_match`. -/
  ahoCorasick : List Str → Option (Str → Bool)
  /-- `percent_encoding::percent_decode_str`. -/
  percentDecode : Str → List UInt8
  /-- The characters that `Debug` shows as they are, by the Unicode tables of the standard
  library. -/
  printable : Char → Bool
  /-- `str::to_lowercase`, by the same tables. -/
  lowercase : Str → Str

/-- Crates that accept nothing and sign everything alike, for examples to override. -/
def idleCrates : Crates where
  regex _ := none
  ipNet _ := none
  ipNetError := []
  hmac _ _ := []
  sha256 _ := .replicate 32 0
  ahoCorasick _ := none
  percentDecode := utf8
  printable _ := true
  lowercase := toAsciiLower

structure ServerCfg where
  listen : Str := []
  listenTls : Str := []
  tlsCert : Str := []
  tlsKey : Str := []
  trustedProxyHops : Nat := 0

structure LimitsCfg where
  maxBodyBytes : Nat := 1024 * 1024
  maxHeaders : Nat := 100
  maxHeaderValueBytes : Nat := 8192
  maxUriBytes : Nat := 8192
  allowedMethods : List Str := ["GET", "HEAD", "POST", "PUT", "PATCH", "DELETE", "OPTIONS"]

structure RouteRateLimit where
  pattern : Str
  requestsPerMinute : UInt32
  burst : UInt32 := 0

structure RateLimitCfg where
  enabled : Bool := true
  requestsPerMinute : UInt32
  burst : UInt32 := 0
  routes : List RouteRateLimit := []

structure ReputationCfg where
  allowCidrs : List Str := []
  denyCidrs : List Str := []
  autoBanThresholdHits : Nat := 5
  autoBanWindowSecs : Nat := 60
  autoBanDurationSecs : Nat := 3600

structure GeoIpCfg where
  blockCountries : List Str := []
  suspiciousCountries : List Str := []

structure DetectionCfg where
  challengeThreshold : Nat := 40
  blockThreshold : Nat := 70
  sqli : Bool := true
  xss : Bool := true
  traversal : Bool := true
  cmdi : Bool := true
  lfi : Bool := true
  suspiciousUserAgents : List Str := []

structure ChallengeCfg where
  hmacSecret : Str
  cookieName : Str := "__2t1_clearance"
  cookieTtlSecs : Nat := 1800
  powDifficulty : Nat := 4

structure Config where
  server : ServerCfg := {}
  limits : LimitsCfg := {}
  rateLimit : RateLimitCfg
  reputation : ReputationCfg := {}
  geoip : GeoIpCfg := {}
  detection : DetectionCfg := {}
  challenge : ChallengeCfg

/-- What `load` checks of a configuration. -/
def Config.validate (cfg : Config) : Except Str Unit :=
  if byteLen cfg.challenge.hmacSecret < 16 then
    .error "challenge.hmac_secret must be at least 16 bytes"
  else if cfg.detection.blockThreshold ≤ cfg.detection.challengeThreshold then
    .error ("detection.challenge_threshold (" ++ dec cfg.detection.challengeThreshold
      ++ ") must be < block_threshold (" ++ dec cfg.detection.blockThreshold ++ ")")
  else if cfg.server.listen.isEmpty && cfg.server.listenTls.isEmpty then
    .error "server.listen and server.listen_tls are both empty"
  else if !cfg.server.listenTls.isEmpty
      && (cfg.server.tlsCert.isEmpty || cfg.server.tlsKey.isEmpty) then
    .error "server.listen_tls set but tls_cert/tls_key missing"
  else .ok ()

end Waf
