import Waf.Proxy.Cookies

/-!
# The fingerprint of a request

`fingerprint::compute` on what `build_request_ctx` has read of a request. The digests of the cookies are
taken of sorted texts, so the order of the cookies on their line and the enumeration order of the maps do
not matter (`compute_perm`), and the four parts have 12 characters each (`compute_shape`).
-/

namespace Waf
open Lib

/-! ## The names of the cookies -/

variable {s line line' name v : Str} {pairs pairs' : List (Str × Str)}

/-- The name of a part is the same whether the part is trimmed before it is split or not. -/
lemma cookieName_part : (splitOnce '=' s).map (fun kv => toAsciiLower (trim kv.1))
    = (cookiePart s).map fun kv => toAsciiLower kv.1 := by
  obtain ⟨l, r, hl, hr, hs⟩ := exists_trimMatches (p := isSpace) (s := s)
  have hblank : ∀ {ws : Str}, (∀ c ∈ ws, isSpace c = true) → '=' ∉ ws := fun h hc =>
    absurd (h _ hc) (by decide)
  have htrim : trimMatches isSpace s = trim s := rfl
  rw [htrim] at hs
  unfold cookiePart
  cases ht : splitOnce '=' (trim s) with
  | none =>
    have hnot : '=' ∉ trim s := splitOnce_eq_none.mp ht
    have hall : '=' ∉ s := by
      rw [hs]
      intro hmem
      obtain hmem | hmem := List.mem_append.mp hmem
      · obtain hmem | hmem := List.mem_append.mp hmem
        · exact hblank hl hmem
        · exact hnot hmem
      · exact hblank hr hmem
    rw [splitOnce_eq_none.mpr hall]
    rfl
  | some kv =>
    obtain ⟨k, v⟩ := kv
    obtain ⟨hkv, hk⟩ := splitOnce_eq_some ht
    have hsplit : splitOnce '=' s = some (l ++ k, v ++ r) := by
      rw [hs, hkv, List.append_assoc, List.append_assoc, List.cons_append, ← List.append_assoc]
      apply splitOnce_append
      intro hmem
      obtain hmem | hmem := List.mem_append.mp hmem
      · exact hblank hl hmem
      · exact hk hmem
    have hfront : trim (l ++ k) = trim k := trimMatches_front hl
    rw [hsplit, Option.map_some, Option.map_some, Option.map_some, hfront]

/-- The cookies of a line in arrival order, without the blanks and quotes around them. -/
def cookiesOf (line : Str) : List (Str × Str) := (line.splitOn ';').filterMap cookiePart

/-- The names in arrival order are those of the cookies that are read. -/
lemma cookieNames_eq : cookieNames line = (cookiesOf line).map fun kv => toAsciiLower kv.1 := by
  rw [cookieNames, cookiesOf, List.map_filterMap]
  exact List.filterMap_congr fun part _ => cookieName_part

/-! ## The order of the cookies -/

lemma lastValue_mem (h : lastValue pairs name = some v) : (name, v) ∈ pairs := by
  obtain ⟨kv, hkv, rfl⟩ := Option.map_eq_some_iff.mp h
  have hname := List.find?_some hkv
  rw [← beq_iff_eq.mp hname]
  exact List.mem_reverse.mp (List.mem_of_find?_eq_some hkv)

/-- A name that occurs once has its value. -/
lemma lastValue_iff (hnodup : (pairs.map Prod.fst).Nodup) :
    lastValue pairs name = some v ↔ (name, v) ∈ pairs := by
  constructor
  · exact lastValue_mem
  · intro hmem
    obtain ⟨front, back, rfl⟩ := List.append_of_mem hmem
    apply lastValue_of_last
    rw [List.map_append, List.map_cons] at hnodup
    have hcons := (List.nodup_append.mp hnodup).2.1
    intro kv hkv e
    exact (List.nodup_cons.mp hcons).1 (List.mem_map.mpr ⟨kv, hkv, e⟩)

/-- With distinct names the order does not matter. -/
lemma lastValue_perm (hnodup : (pairs.map Prod.fst).Nodup) (hperm : pairs.Perm pairs') :
    lastValue pairs name = lastValue pairs' name := by
  have hnodup' : (pairs'.map Prod.fst).Nodup := (hperm.map _).nodup_iff.mp hnodup
  apply Option.ext
  intro v
  rw [lastValue_iff hnodup, lastValue_iff hnodup', hperm.mem_iff]

/-- The cookies of a line in another order are the same map. -/
lemma lookup_parse_perm (hperm : (cookiesOf line).Perm (cookiesOf line'))
    (hnodup : (cookieNames line).Nodup) :
    (parseCookieHeader line).lookup name = (parseCookieHeader line').lookup name := by
  rw [lookup_parseCookieHeader, lookup_parseCookieHeader]
  apply lastValue_perm
  · rw [cookieNames_eq, ← Function.comp_def toAsciiLower Prod.fst, ← List.map_map] at hnodup
    exact List.Nodup.of_map _ hnodup
  · exact hperm

namespace Fingerprint

/-! ## Sorted texts -/

/-- Sorting forgets the order. -/
lemma sort_perm {texts texts' : List Str} (h : texts.Perm texts') : sort texts = sort texts' := by
  have hsorted : ∀ l : List Str, (sort l).Pairwise (fun a b => decide (a ≤ b) = true) := by
    intro l
    apply List.pairwise_mergeSort
    · intro a b c hab hbc
      exact decide_eq_true (le_trans (of_decide_eq_true hab) (of_decide_eq_true hbc))
    · intro a b
      rw [Bool.or_eq_true, decide_eq_true_eq, decide_eq_true_eq]
      exact le_total a b
  refine List.Perm.eq_of_pairwise (fun a b _ _ hab hba => ?_) (hsorted _) (hsorted _) ?_
  · exact le_antisymm (of_decide_eq_true hab) (of_decide_eq_true hba)
  · exact (List.mergeSort_perm _ _).trans (h.trans (List.mergeSort_perm _ _).symm)

/-- Maps with the same entries are enumerated in orders that are permutations of each other. -/
lemma toPairs_perm {m m' : HashMap Str Str} (h : ∀ k, m.lookup k = m'.lookup k) :
    m.toPairs.Perm m'.toPairs := by
  have hnodup : ∀ m : HashMap Str Str, m.toPairs.Nodup := by
    intro m
    have hkeys : (m.toPairs.map Prod.fst).Nodup := by
      have hk : m.toPairs.map Prod.fst = m.keys := by
        rw [HashMap.toPairs, List.map_map]
        rfl
      rw [hk]
      exact m.keys_nodup
    exact List.Nodup.of_map _ hkeys
  refine (List.perm_ext_iff_of_nodup (hnodup m) (hnodup m')).mpr fun kv => ?_
  obtain ⟨k, v⟩ := kv
  rw [HashMap.mem_toPairs, HashMap.mem_toPairs, h]

variable {crates : Crates} {method version : Str} {order cookieOrder cookieOrder' : List Str}
  {headers headers' cookies cookies' : HashMap Str Str}

/-- The orders in which cookies arrive and maps are enumerated do not matter, nor does what `compute`
does not read of the header. -/
lemma compute_congr (horder : cookieOrder.Perm cookieOrder')
    (hcookies : ∀ name, cookies.lookup name = cookies'.lookup name)
    (hreferer : headers.lookup "referer".toList = headers'.lookup "referer".toList)
    (hlanguage : headers.lookup "accept-language".toList
      = headers'.lookup "accept-language".toList) :
    compute crates method version order headers cookieOrder cookies
      = compute crates method version order headers' cookieOrder' cookies' := by
  have hpairs := toPairs_perm hcookies
  have hempty : cookies.toPairs.isEmpty = cookies'.toPairs.isEmpty := by
    rw [Bool.eq_iff_iff, List.isEmpty_iff, List.isEmpty_iff]
    exact ⟨fun h => List.perm_nil.mp (h ▸ hpairs.symm), fun h => List.perm_nil.mp (h ▸ hpairs)⟩
  have hr : headers.containsKey "referer" = headers'.containsKey "referer" :=
    congrArg Option.isSome hreferer
  have hl : headers.get "accept-language" = headers'.get "accept-language" := hlanguage
  unfold compute
  rw [hempty, hr, hl, sort_perm horder, sort_perm (hpairs.map _)]

/-! ## The shape -/

/-- A short ASCII text is filled up to the width. -/
lemma length_padRight {width : Nat} (h : ∀ c ∈ s, c.toNat < 128) (hle : s.length ≤ width) :
    (padRight width s).length = width := by
  rw [padRight, byteLen_ascii h, List.length_append, List.length_replicate]
  omega

/-- Two characters of an ASCII method. -/
lemma length_methodTwo (h : ∀ c ∈ method, c.toNat < 128) : (methodTwo method).length = 2 := by
  apply length_padRight
  · exact lower_ascii fun c hc => h c (List.mem_of_mem_take hc)
  · rw [toAsciiLower, List.length_map]
    exact List.length_take_le _ _

lemma length_versionTwo : (versionTwo version).length = 2 := by
  unfold versionTwo
  split
  case isTrue => rfl
  case isFalse =>
    split
    case isTrue => rfl
    case isFalse => split <;> rfl

/-- Four characters, of any language. -/
lemma length_ja4Lang : (ja4Lang s).length = 4 := by
  apply length_padRight
  · apply lower_ascii
    intro c hc
    have halpha := (List.mem_filter.mp (List.mem_of_mem_take hc)).2
    cases Bool.or_eq_true_iff.mp halpha with
    | inl hupper =>
      have hrange : 'A'.val ≤ c.val ∧ c.val ≤ 'Z'.val := of_decide_eq_true hupper
      have hle : c.toNat ≤ 90 := hrange.2
      omega
    | inr hlower =>
      have hle : c.toNat ≤ 122 := of_decide_eq_true (Bool.and_eq_true_iff.mp hlower).2
      omega
  · rw [toAsciiLower, List.length_map]
    exact List.length_take_le _ _

lemma length_twoDigits {n : Nat} (h : n ≤ 99) : (twoDigits n).length = 2 := by
  have key : ∀ m : Fin 100, (twoDigits m).length = 2 := by decide
  exact key ⟨n, Nat.lt_succ_of_le h⟩

lemma length_digest {texts : List Str} : (digest crates texts).length = 12 := by
  unfold digest
  split
  case isTrue => rfl
  case isFalse =>
    rw [sha12hex, length_hexEncode, List.length_take, Vector.length_toList]
    rfl

/-- A text of four parts with 12 characters each, joined by underscores. -/
structure Parts (fp a b c d : Str) : Prop where
  joined : fp = a ++ '_' :: (b ++ '_' :: (c ++ '_' :: d))
  first : a.length = 12
  names : b.length = 12
  cookieNames : c.length = 12
  cookiePairs : d.length = 12

/-- Twelve zeros. -/
def zeros : Str := List.replicate 12 '0'

/-- Four parts have three separators. -/
lemma intercalate_four {a b c d : Str} :
    ['_'].intercalate [a, b, c, d] = a ++ '_' :: (b ++ '_' :: (c ++ '_' :: d)) := by
  rw [List.intercalate_cons_cons, List.intercalate_cons_cons, List.intercalate_cons_cons,
    List.intercalate_singleton, List.append_assoc, List.append_assoc, List.append_assoc]
  rfl

/-- The fingerprint has four parts, and the last two are zeros if they have nothing to digest. -/
lemma compute_shape (hmethod : ∀ c ∈ method, c.toNat < 128) : ∃ a b c d,
    Parts (compute crates method version order headers cookieOrder cookies) a b c d
      ∧ (cookieOrder = [] → c = zeros) ∧ (cookies.toPairs = [] → d = zeros) := by
  refine ⟨_, _, _, _,
    ⟨intercalate_four, ?_, length_digest, length_digest, length_digest⟩, ?_, ?_⟩
  · rw [List.length_append, List.length_append, List.length_append, List.length_append,
      length_methodTwo hmethod, length_versionTwo, length_twoDigits (Nat.min_le_right _ _),
      length_ja4Lang]
    rfl
  · rintro rfl
    have hsort : sort [] = [] := List.mergeSort_nil
    rw [hsort]
    rfl
  · intro hnone
    have hsort : sort [] = [] := List.mergeSort_nil
    rw [hnone, List.map_nil, hsort]
    rfl

end Fingerprint

/-! ## Requests -/

/-- Without cookies in the map there are no names of cookies. -/
lemma cookieNames_nil (h : (parseCookieHeader line).toPairs = []) : cookieNames line = [] := by
  rw [cookieNames_eq, List.map_eq_nil_iff]
  cases hkv : cookiesOf line using List.reverseRecOn with
  | nil => rfl
  | append_singleton pairs kv =>
    have hlookup : (parseCookieHeader line).lookup kv.1 = some kv.2 := by
      rw [lookup_parseCookieHeader, ← cookiesOf, hkv, lastValue_append, if_pos rfl]
    have hmem : (kv.1, kv.2) ∈ (parseCookieHeader line).toPairs := HashMap.mem_toPairs.mpr hlookup
    rw [h] at hmem
    cases hmem

/-- The order of the names is that of the lines that are text, whatever their values are. -/
lemma order_ofLines {lines : List HeaderLine} : (HeaderTable.ofLines lines).order
    = ((lines.filter fun l => l.value.toStr.isSome).map fun l => toAsciiLower l.name).foldl
      (fun order name => if order.contains name then order else order ++ [name]) [] := by
  induction lines using List.reverseRecOn with
  | nil => rfl
  | append_singleton lines l ih =>
    have hadd : HeaderTable.ofLines (lines ++ [l]) = (HeaderTable.ofLines lines).add l := by
      rw [HeaderTable.ofLines, List.foldl_append]
      rfl
    rw [hadd, List.filter_append, List.map_append, List.foldl_append, ← ih]
    cases hl : l.value.toStr with
    | none => simp [HeaderTable.add, hl]
    | some vs => simp [HeaderTable.add, hl]

variable {crates : Crates} {pre post : List HeaderLine} {value value' : HeaderValue}

/-- Lines of another name are found whatever the cookies are. -/
lemma firstText_other (hname : name ≠ "cookie".toList) :
    firstText (pre ++ ⟨"cookie", value⟩ :: post) name
      = firstText (pre ++ ⟨"cookie", value'⟩ :: post) name := by
  have hne : ("cookie".toList == name) = false := beq_false_of_ne fun e => hname e.symm
  unfold firstText headerValues
  rw [List.filter_append, List.filter_append, List.filter_cons, List.filter_cons, hne]
  rfl

/-- The cookies are the text of their line. -/
lemma firstText_cookie (hpre : ∀ l ∈ pre, l.name ≠ "cookie".toList) (hline : value.toStr = some line) :
    firstText (pre ++ ⟨"cookie", value⟩ :: post) "cookie" = some line := by
  have hnone : pre.filter (fun l => l.name == "cookie".toList) = [] :=
    List.filter_eq_nil_iff.mpr fun l hl => by
      rw [beq_false_of_ne (hpre l hl)]
      exact Bool.false_ne_true
  unfold firstText headerValues
  rw [List.filter_append, hnone, List.nil_append, List.filter_cons, beq_self_eq_true, if_pos rfl,
    List.map_cons, List.findSome?_cons, hline]

/-- The fingerprint is one for every order of the cookies of a line. -/
lemma compute_perm {method version : Str} {order : List Str}
    {headers headers' cookies cookies' : HashMap Str Str}
    (hperm : (cookiesOf line).Perm (cookiesOf line')) (hnodup : (cookieNames line).Nodup)
    (hheaders : ∀ name, name ≠ "cookie".toList → headers.lookup name = headers'.lookup name)
    (hcookies : ∀ name, cookies.lookup name = (parseCookieHeader line).lookup name)
    (hcookies' : ∀ name, cookies'.lookup name = (parseCookieHeader line').lookup name) :
    Fingerprint.compute crates method version order headers (cookieNames line) cookies
      = Fingerprint.compute crates method version order headers' (cookieNames line') cookies' := by
  apply Fingerprint.compute_congr
  · rw [cookieNames_eq, cookieNames_eq]
    exact hperm.map _
  · intro name
    rw [hcookies, hcookies', lookup_parse_perm hperm hnodup]
  · exact hheaders _ (by decide)
  · exact hheaders _ (by decide)

/-- What a request with a cookie line has as its fingerprint. -/
lemma ja4h_buildRequestCtx {sess : Session} {hops : Nat} {requestId : Str}
    (hlower : LowerNames sess.headers) (hcookie : firstText sess.headers "cookie" = some line) :
    (buildRequestCtx crates sess hops requestId).ja4h
      = Fingerprint.compute crates sess.method sess.version (HeaderTable.ofLines sess.headers).order
        (HeaderTable.ofLines sess.headers).map (cookieNames line) (parseCookieHeader line) := by
  have hget : (HeaderTable.ofLines sess.headers).map.get "cookie" = some line :=
    (lookup_ofLines hlower).trans hcookie
  unfold buildRequestCtx
  simp only [hget, Option.map_some, Option.getD_some]

/-- The names are the same with another text in the cookie line. -/
lemma order_cookie (hline : value.toStr = some line) (hline' : value'.toStr = some line') :
    (HeaderTable.ofLines (pre ++ ⟨"cookie", value⟩ :: post)).order
      = (HeaderTable.ofLines (pre ++ ⟨"cookie", value'⟩ :: post)).order := by
  rw [order_ofLines, order_ofLines, List.filter_append, List.filter_append, List.filter_cons,
    List.filter_cons, hline, hline']
  simp only [Option.isSome_some, if_true, List.map_append, List.map_cons]

/-- Another value leaves the names as they are. -/
lemma LowerNames.cookie (h : LowerNames (pre ++ ⟨"cookie", value⟩ :: post)) :
    LowerNames (pre ++ ⟨"cookie", value'⟩ :: post) := by
  intro l hl
  obtain hl | hl := List.mem_append.mp hl
  · exact h l (List.mem_append_left _ hl)
  · cases hl with
    | head =>
      have hcookie : toAsciiLower "cookie" = "cookie".toList := by decide
      exact hcookie
    | tail _ hl => exact h l (List.mem_append_right _ (.tail _ hl))

/-- The fingerprint is canonical. For an ASCII method `compute` gives one text for every order of the
cookies of a line and all blanks around them, if their names differ in more than case, and for all maps
with the same entries. So do two requests whose lines differ in these only. The text has four parts of 12
characters, the last two zeros if there are no cookies. -/
theorem ja4h_canonical (crates : Crates) (method : Str) (hmethod : ∀ c ∈ method, c.toNat < 128) :
    (∀ (version : Str) (order : List Str) (line line' : Str)
      (headers headers' cookies cookies' : HashMap Str Str),
      (cookiesOf line).Perm (cookiesOf line') → (cookieNames line).Nodup →
      (∀ name, name ≠ "cookie".toList → headers.lookup name = headers'.lookup name) →
      (∀ name, cookies.lookup name = (parseCookieHeader line).lookup name) →
      (∀ name, cookies'.lookup name = (parseCookieHeader line').lookup name) →
      Fingerprint.compute crates method version order headers (cookieNames line) cookies
        = Fingerprint.compute crates method version order headers' (cookieNames line') cookies')
      ∧ (∀ (sess sess' : Session) (hops hops' : Nat) (requestId requestId' : Str)
        (pre post : List HeaderLine) (value value' : HeaderValue) (line line' : Str),
        sess.method = method → sess'.method = method → sess'.version = sess.version →
        sess.headers = pre ++ ⟨"cookie", value⟩ :: post →
        sess'.headers = pre ++ ⟨"cookie", value'⟩ :: post →
        LowerNames sess.headers → (∀ l ∈ pre, l.name ≠ "cookie".toList) →
        value.toStr = some line → value'.toStr = some line' →
        (cookiesOf line).Perm (cookiesOf line') → (cookieNames line).Nodup →
        (buildRequestCtx crates sess hops requestId).ja4h
          = (buildRequestCtx crates sess' hops' requestId').ja4h)
      ∧ (∀ (version : Str) (order : List Str) (headers : HashMap Str Str) (cookieOrder : List Str)
        (cookies : HashMap Str Str), ∃ a b c d,
        Fingerprint.Parts
            (Fingerprint.compute crates method version order headers cookieOrder cookies) a b c d
          ∧ (cookieOrder = [] → c = Fingerprint.zeros)
          ∧ (cookies.toPairs = [] → d = Fingerprint.zeros))
      ∧ ∀ line : Str, (parseCookieHeader line).toPairs = [] → cookieNames line = [] := by
  refine ⟨fun version order line line' headers headers' cookies cookies' => compute_perm, ?_,
    fun version order headers cookieOrder cookies => Fingerprint.compute_shape hmethod,
    fun line => cookieNames_nil⟩
  intro sess sess' hops hops' requestId requestId' pre post value value' line line' hm hm' hversion
    hheaders hheaders' hlower hpre hline hline' hperm hnodup
  rw [hheaders] at hlower
  have hcookie : firstText sess.headers "cookie" = some line := by
    rw [hheaders]
    exact firstText_cookie hpre hline
  have hcookie' : firstText sess'.headers "cookie" = some line' := by
    rw [hheaders']
    exact firstText_cookie hpre hline'
  have hlower₁ : LowerNames sess.headers := hheaders ▸ hlower
  have hlower₂ : LowerNames sess'.headers := hheaders' ▸ hlower.cookie
  rw [ja4h_buildRequestCtx hlower₁ hcookie, ja4h_buildRequestCtx hlower₂ hcookie', hm, hm', hversion,
    hheaders, hheaders', order_cookie hline hline']
  refine compute_perm hperm hnodup (fun name hname => ?_) (fun _ => rfl) fun _ => rfl
  rw [lookup_ofLines hlower, lookup_ofLines hlower.cookie, firstText_other hname]

/-- A request with three cookies. -/
def cookieRequest (cookies : Str) : Session where
  clientAddr := some (.inet (.v4 (.new 1 2 3 4)))
  method := "GET"
  uri := "/"
  path := "/"
  query := none
  pathAndQuery := some "/"
  version := "HTTP/1.1"
  headers := [⟨"host", utf8 "h"⟩, ⟨"cookie", utf8 cookies⟩]

/-- Cookies in another order, with other blanks. -/
theorem ja4h_canonical_witness :
    (buildRequestCtx idleCrates (cookieRequest "a=1; b=2;c=3") 0 "r").ja4h
        = (buildRequestCtx idleCrates (cookieRequest "c=3;b=2  ; a=1") 0 "s").ja4h
      ∧ ∃ a b c d, Fingerprint.Parts (Fingerprint.compute idleCrates "GET" "HTTP/1.1" [] ∅ [] ∅) a b c d
        ∧ c = Fingerprint.zeros ∧ d = Fingerprint.zeros := by
  have hget : "GET".toList.all (fun c => decide (c.toNat < 128)) = true := by decide
  have hascii : ∀ c ∈ "GET".toList, c.toNat < 128 := fun c hc =>
    of_decide_eq_true (List.all_eq_true.mp hget c hc)
  obtain ⟨-, hrequest, hshape, -⟩ := ja4h_canonical idleCrates "GET" hascii
  have hversion : ∀ s t, (cookieRequest s).version = (cookieRequest t).version := fun _ _ => rfl
  have hheaders : ∀ s, (cookieRequest s).headers
      = [⟨"host", utf8 "h"⟩] ++ ⟨"cookie", utf8 s⟩ :: [] := fun _ => rfl
  have hlower : LowerNames (cookieRequest "a=1; b=2;c=3").headers := by
    unfold LowerNames
    decide
  have hpre : ∀ l ∈ [(⟨"host", utf8 "h"⟩ : HeaderLine)], l.name ≠ "cookie".toList := by decide
  have hline : HeaderValue.toStr (utf8 "a=1; b=2;c=3") = some "a=1; b=2;c=3".toList := by decide
  have hline' : HeaderValue.toStr (utf8 "c=3;b=2  ; a=1") = some "c=3;b=2  ; a=1".toList := by decide
  have hperm : (cookiesOf "a=1; b=2;c=3").Perm (cookiesOf "c=3;b=2  ; a=1") := by decide
  have hnames : (cookieNames "a=1; b=2;c=3").Nodup := by decide
  constructor
  · exact hrequest (cookieRequest "a=1; b=2;c=3") (cookieRequest "c=3;b=2  ; a=1") 0 0 "r" "s"
      [⟨"host", utf8 "h"⟩] [] _ _ _ _ rfl rfl (hversion _ _) (hheaders _) (hheaders _) hlower hpre
      hline hline' hperm hnames
  · obtain ⟨a, b, c, d, hparts, hc, hd⟩ := hshape "HTTP/1.1" [] ∅ [] ∅
    exact ⟨a, b, c, d, hparts, hc rfl, hd rfl⟩

end Waf
