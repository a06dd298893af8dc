import Waf.Config
import Waf.Decision

/-!
# Detection rules

The pattern families of `rules/`: each searches some texts of a request, its surface, and reports the
first field in which one of its patterns matches. The user-agent scanner searches for configured
tokens.
-/

namespace Waf
open Lib

/-! ## Texts of a request -/

/-- A character of several bytes of which some have been read: the number of bytes missing, the
value so far and the range of the next byte. -/
structure Utf8Partial where
  need : Nat
  acc : Nat
  lo : Nat := 0x80
  hi : Nat := 0xBF

/-- The reading of a first byte that announces more. -/
def utf8Lead (b : Nat) : Option Utf8Partial :=
  if 0xC2 ≤ b ∧ b ≤ 0xDF then some ⟨1, b - 0xC0, 0x80, 0xBF⟩
  else if b = 0xE0 then some ⟨2, 0, 0xA0, 0xBF⟩
  else if b = 0xED then some ⟨2, 0xD, 0x80, 0x9F⟩
  else if 0xE1 ≤ b ∧ b ≤ 0xEF then some ⟨2, b - 0xE0, 0x80, 0xBF⟩
  else if b = 0xF0 then some ⟨3, 0, 0x90, 0xBF⟩
  else if b = 0xF4 then some ⟨3, 4, 0x80, 0x8F⟩
  else if 0xF1 ≤ b ∧ b ≤ 0xF3 then some ⟨3, b - 0xF0, 0x80, 0xBF⟩
  else none

/-- U+FFFD. -/
def replacement : Char := Char.ofNat 0xFFFD

/-- `String::from_utf8_lossy`, after the bytes of `part`: a longest prefix of a character that is
not continued as one is replaced. -/
def fromUtf8Lossy (part : Option Utf8Partial) : List UInt8 → Str
  | [] => if part.isSome then [replacement] else []
  | b :: bs =>
    let b := b.toNat
    let fresh := fun _ : Unit =>
      if b < 0x80 then Char.ofNat b :: fromUtf8Lossy none bs
      else
        match utf8Lead b with
        | some p => fromUtf8Lossy (some p) bs
        | none => replacement :: fromUtf8Lossy none bs
    match part with
    | none => fresh ()
    | some p =>
      if p.lo ≤ b ∧ b ≤ p.hi then
        let acc := p.acc * 64 + (b - 0x80)
        if p.need = 1 then Char.ofNat acc :: fromUtf8Lossy none bs
        else fromUtf8Lossy (some ⟨p.need - 1, acc, 0x80, 0xBF⟩) bs
      else replacement :: fresh ()

/-- `Debug` of a text, with its quotes. -/
def fmtDebug (printable : Char → Bool) (s : Str) : Str :=
  let escape := fun c : Char =>
    if c = Char.ofNat 0 then ['\\', '0']
    else if c = '\t' then ['\\', 't']
    else if c = '\r' then ['\\', 'r']
    else if c = '\n' then ['\\', 'n']
    else if c = '\\' then ['\\', '\\']
    else if c = '"' then ['\\', '"']
    else if printable c then [c]
    else '\\' :: 'u' :: Char.ofNat 123 :: (Nat.toDigits 16 c.toNat ++ [Char.ofNat 125])
  '"' :: (s.flatMap escape ++ ['"'])

structure Hit where
  ruleId : Str
  category : Str
  matchedField : Str
  matchedExcerpt : Str

structure Surface where
  uri : Str
  queryDecoded : Str
  pathDecoded : Str
  headersConcat : Str
  bodyPreview : Str
  userAgent : Str

def decode (crates : Crates) (s : Str) : Str := fromUtf8Lossy none (crates.percentDecode s)

/-- Is the header left out of the surface? -/
def isSkipHeader (name : Str) : Bool :=
  let skipped : List Str :=
    ["cookie", "authorization", "content-length", "content-type", "host", "user-agent", "accept",
      "accept-encoding", "accept-language", "connection", "upgrade", "keep-alive", "te",
      "transfer-encoding"]
  skipped.contains name

/-- `Surface::from`. The headers come in the enumeration order of the map. -/
def Surface.ofCtx (crates : Crates) (ctx : RequestCtx) : Surface where
  uri := ctx.uri
  queryDecoded := decode crates ctx.query
  pathDecoded := decode crates ctx.path
  headersConcat :=
    ['\n'].intercalate
      ((ctx.headers.toPairs.filter fun e => !isSkipHeader e.1).map fun e => e.1 ++ ": " ++ e.2)
  bodyPreview := fromUtf8Lossy none ctx.bodyPreview
  userAgent := ctx.userAgent

/-- A short excerpt on one line. -/
def excerpt (s : Str) : Str := (s.take 96).map fun c => if c = '\r' ∨ c = '\n' then ' ' else c

/-! ## Patterns -/

/-- `RegexSet::is_match`; the static patterns all compile. -/
def regexSetMatch (crates : Crates) (patterns : List Str) (text : Str) : Bool :=
  patterns.any fun p => (crates.regex p).any fun isMatch => isMatch text

/-- The first of the named fields in which one of the patterns matches. -/
def scanFields (crates : Crates) (ruleId category : Str) (patterns : List Str)
    (fields : List (Str × Str)) : Option Hit :=
  (fields.find? fun f => regexSetMatch crates patterns f.2).map fun f =>
    ⟨ruleId, category, f.1, excerpt f.2⟩

namespace Sqli

def PATTERNS : List Str := [
  r"(?i)\b(or|and)\s+\d+\s*=\s*\d+",
  r"(?i)'\s*(or|and)\s*'?\s*\d+\s*=\s*\d+",
  r"(?i)'\s*(or|and)\s+'\w+'\s*=\s*'\w+",
  r"(?i)\bunion\s+(all\s+)?select\b",
  r";\s*(drop|alter|truncate|create|update|delete|insert|exec|execute)\s+",
  r"(?i)\b(sleep|benchmark|pg_sleep|waitfor\s+delay|extractvalue|updatexml|load_file)\s*\(",
  r"(?i)\binformation_schema\.\w+",
  r"(?:--|#)\s*$",
  r"/\*.*?\*/",
  r"(?i)\b(0x[0-9a-f]{6,}|char\s*\(\s*\d+(\s*,\s*\d+){2,}\s*\))",
  r"(?i)\bload_file\s*\(\s*concat\s*\("]

def scan (crates : Crates) (s : Surface) : Option Hit :=
  scanFields crates "SQLI-01" "sqli" PATTERNS
    [("query", s.queryDecoded), ("path", s.pathDecoded), ("body", s.bodyPreview),
      ("headers", s.headersConcat), ("uri-raw", s.uri)]

end Sqli

namespace Xss

def PATTERNS : List Str := [
  r"(?i)<script\b[^>]*>",
  r"(?i)</\s*script\s*>",
  r"(?i)\bjavascript\s*:",
  r"(?i)\bdata\s*:\s*text/html",
  r#"(?i)on(?:load|error|click|mouseover|focus|submit|toggle|animationstart)\s*=\s*["']?[^"'>]+"#,
  r"(?i)<\s*(iframe|object|embed|svg|math|video|audio)\b",
  r"(?i)\bsrcdoc\s*=",
  r"(?i)expression\s*\(",
  r"(?i)<\s*img[^>]+\bonerror\s*=",
  r"(?i)\beval\s*\(\s*atob\s*\(",
  r"(?i)\bdocument\.cookie\b",
  r#"(?i)<\s*meta\s+http-equiv\s*=\s*["']?refresh"#]

def scan (crates : Crates) (s : Surface) : Option Hit :=
  scanFields crates "XSS-01" "xss" PATTERNS
    [("query", s.queryDecoded), ("path", s.pathDecoded), ("body", s.bodyPreview),
      ("headers", s.headersConcat), ("uri-raw", s.uri)]

end Xss

namespace Traversal

def PATTERNS : List Str := [
  r"(?i)\.\.[/\\]",
  r"(?i)[/\\]\.\.[/\\]",
  r"(?i)%2e%2e[%2f%5c/\\]",
  r"(?i)\.\.%(2f|5c)",
  r"(?i)\.\.%5c",
  r"(?i)%c0%2e%c0%2e"]

def scan (crates : Crates) (s : Surface) : Option Hit :=
  scanFields crates "TRAV-01" "traversal" PATTERNS
    [("path", s.pathDecoded), ("query", s.queryDecoded), ("uri-raw", s.uri),
      ("body", s.bodyPreview)]

end Traversal

namespace Cmdi

def PATTERNS : List Str := [
  r"(?i)[;&|`]\s*(cat|wget|curl|nc|ncat|bash|sh|zsh|powershell|whoami|id|uname|ifconfig|ipconfig|nslookup|dig)\b",
  r"(?i)\$\((?:cat|wget|curl|nc|ncat|bash|sh|whoami|id|uname)\b",
  r"(?i)`\s*(?:cat|wget|curl|nc|ncat|bash|sh|whoami|id|uname)\b",
  r"(?i)bash\s+-i\s*>&?\s*/dev/tcp/\d",
  r"(?i)/bin/(?:bash|sh)\s+-c\s+",
  r"(?i)powershell(?:\.exe)?\s+-(?:enc(?:odedcommand)?|e)\b",
  r"(?i)\bcertutil(?:\.exe)?\s+-urlcache\b"]

def scan (crates : Crates) (s : Surface) : Option Hit :=
  scanFields crates "CMDI-01" "cmdi" PATTERNS
    [("query", s.queryDecoded), ("path", s.pathDecoded), ("body", s.bodyPreview),
      ("headers", s.headersConcat), ("uri-raw", s.uri)]

end Cmdi

namespace Lfi

def PATTERNS : List Str := [
  r"(?i)(?:^|[=/])/etc/(?:passwd|shadow|hosts|hostname|self/environ|crontab)\b",
  r"(?i)/proc/self/(?:environ|cmdline|maps|stat)\b",
  r"(?i)(?:^|[=/\\])(?:c:[\\/])?windows[\\/]system32[\\/]drivers[\\/]etc[\\/]hosts\b",
  r"(?i)(?:^|[=/])(?:boot\.ini|win\.ini)\b",
  r"(?i)\bphp://(?:filter|input|expect|stdin)\b",
  r"(?i)\bzip://|phar://",
  r"(?i)\b(?:include|require|page|file|template)\s*=\s*https?://"]

def scan (crates : Crates) (s : Surface) : Option Hit :=
  scanFields crates "LFI-01" "lfi" PATTERNS
    [("query", s.queryDecoded), ("path", s.pathDecoded), ("body", s.bodyPreview),
      ("uri-raw", s.uri)]

end Lfi

/-! ## User agents -/

structure UaScanner where
  ac : Option (Str → Bool)

namespace UaScanner

def new (crates : Crates) (substrings : List Str) : Option UaScanner :=
  if substrings.isEmpty then some ⟨none⟩
  else (crates.ahoCorasick substrings).map fun ac => ⟨some ac⟩

def isSuspicious (s : UaScanner) (ua : Str) : Bool := s.ac.any fun ac => ac ua

end UaScanner

end Waf
