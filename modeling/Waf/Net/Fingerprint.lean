import Mathlib.Data.List.Destutter
import Mathlib.Data.List.Lex
import Mathlib.Data.Char
import Waf.Lib.HashMap
import Waf.Config

/-!
# JA4H

Model of `fingerprint.rs`: the fingerprint of a client from what its HTTP layer shows, four parts
with three of them digests.
-/

namespace Waf.Fingerprint
open Lib

/-- The headers that the digest of the names leaves out. -/
def EXCLUDED : List Str := ["cookie", "referer", ":method", ":path", ":scheme", ":authority"]

/-- Fill a text up with zeros on the right, to a length in bytes. -/
def padRight (width : Nat) (s : Str) : Str := s ++ List.replicate (width - byteLen s) '0'

def methodTwo (m : Str) : Str := padRight 2 (toAsciiLower (m.take 2))

def versionTwo (v : Str) : Str :=
  if contains "3" v then "30"
  else if contains "2" v then "20"
  else if contains "1.0" v then "10"
  else "11"

def ja4Lang (lang : Str) : Str :=
  let primary := lang.takeWhile fun c => c ≠ ',' ∧ c ≠ ';'
  padRight 4 (toAsciiLower ((primary.filter Char.isAlpha).take 4))

def sha12hex (crates : Crates) (input : Str) : Str :=
  hexEncode ((crates.sha256 (utf8 input)).toList.take 6)

/-- The digest of some texts, zeros for none. -/
def digest (crates : Crates) (texts : List Str) : Str :=
  if texts.isEmpty then "000000000000" else sha12hex crates ([','].intercalate texts)

/-- `sort` of texts, which compares them by their code points. -/
def sort (texts : List Str) : List Str := texts.mergeSort fun s t => decide (s ≤ t)

/-- `{n:02}`. -/
def twoDigits (n : Nat) : Str := List.replicate (2 - (dec n).length) '0' ++ dec n

def compute (crates : Crates) (method httpVersion : Str) (headerOrder : List Str)
    (headers : HashMap Str Str) (cookieOrder : List Str) (cookies : HashMap Str Str) : Str :=
  let included := headerOrder.filter fun h => !EXCLUDED.contains h && h.head? != some ':'
  let a := methodTwo method ++ versionTwo httpVersion
    ++ [if cookies.toPairs.isEmpty then 'n' else 'c', if headers.containsKey "referer" then 'r' else 'n']
    ++ twoDigits (min included.length 99)
    ++ ja4Lang ((headers.get "accept-language").getD [])
  let b := digest crates included
  let c := digest crates ((sort cookieOrder).destutter (· ≠ ·))
  let d := digest crates (sort (cookies.toPairs.map fun kv => kv.1 ++ '=' :: kv.2))
  ['_'].intercalate [a, b, c, d]

end Waf.Fingerprint
