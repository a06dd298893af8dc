import Waf.Token.Bic
import Waf.Proxy.Context

/-!
# Cookies

A `Cookie` line is written as pieces between semicolons, each one blanks or a pair `name=value`, the value
in double quotes or not. `parse_cookie_header` reads back of each name the value of its last pair
(`lookup_cookieLine`), and what the server mints is such a value (`Minted.wellFormed`).
-/

namespace Waf
open Lib

/-- A piece of a `Cookie` line: blanks, or a pair with blanks on both sides. -/
inductive CookiePiece where
  | blank (ws : Str)
  | pair (before name value : Str) (quoted : Bool) (after : Str)

/-- A name that the reader leaves as it is. It may be empty. -/
structure CookieName (name : Str) : Prop where
  semicolon : ';' ∉ name
  equals : '=' ∉ name
  bare : Bare isSpace name

/-- A value that the reader leaves as it is. -/
structure CookieValue (value : Str) : Prop where
  semicolon : ';' ∉ value
  bare : Bare isSpace value
  unquoted : Bare (· == '"') value

def Blank (ws : Str) : Prop := ∀ c ∈ ws, isSpace c = true

namespace CookiePiece

/-- The value as it is written. -/
def written (value : Str) (quoted : Bool) : Str :=
  if quoted then '"' :: (value ++ ['"']) else value

def text : CookiePiece → Str
  | blank ws => ws
  | pair before name value quoted after =>
    before ++ (name ++ '=' :: written value quoted) ++ after

def kv : CookiePiece → Option (Str × Str)
  | blank _ => none
  | pair _ name value _ _ => some (name, value)

/-- Blanks are blanks, names are names and values are values. -/
def WellFormed : CookiePiece → Prop
  | blank ws => Blank ws
  | pair before name value _ after =>
    Blank before ∧ CookieName name ∧ CookieValue value ∧ Blank after

end CookiePiece

def cookieLine (pieces : List CookiePiece) : Str := [';'].intercalate (pieces.map CookiePiece.text)

/-- The value of the last pair of a name. -/
def lastValue (pairs : List (Str × Str)) (name : Str) : Option Str :=
  (pairs.reverse.find? fun kv => kv.1 == name).map (·.2)

variable {name value before after ws s t : Str} {quoted : Bool} {p : CookiePiece}
  {pieces rest : List CookiePiece} {pairs : List (Str × Str)} {kv : Str × Str}

lemma lastValue_append :
    lastValue (pairs ++ [kv]) name = if kv.1 = name then some kv.2 else lastValue pairs name := by
  rw [lastValue, List.reverse_append, List.reverse_singleton, List.singleton_append, List.find?_cons]
  split
  case h_1 h => rw [if_pos (beq_iff_eq.mp h)]; rfl
  case h_2 h => rw [if_neg (beq_eq_false_iff_ne.mp h), lastValue]

/-- Pairs of other names behind a pair leave its value the last one. -/
lemma lastValue_of_last {more : List (Str × Str)} (h : ∀ kv ∈ more, kv.1 ≠ name) :
    lastValue (pairs ++ (name, value) :: more) name = some value := by
  induction more using List.reverseRecOn with
  | nil => rw [lastValue_append, if_pos rfl]
  | append_singleton more kv ih =>
    have hlast : kv.1 ≠ name := h kv (List.mem_append_right _ (.head _))
    rw [← List.cons_append, ← List.append_assoc, lastValue_append, if_neg hlast]
    exact ih fun kv hkv => h kv (List.mem_append_left _ hkv)

/-! ## One piece -/

/-- Blanks have no semicolon. -/
lemma Blank.semicolon (h : Blank ws) : ';' ∉ ws := fun hc => absurd (h _ hc) (by decide)

namespace CookiePiece

lemma written_semicolon (h : CookieValue value) : ';' ∉ written value quoted := by
  unfold written
  split
  case isTrue =>
    intro hc
    cases hc with
    | tail _ hc =>
      obtain hc | hc := List.mem_append.mp hc
      · exact h.semicolon hc
      · exact absurd (List.mem_singleton.mp hc) (by decide)
  case isFalse => exact h.semicolon

lemma text_semicolon (h : p.WellFormed) : ';' ∉ p.text := by
  cases p with
  | blank ws => exact Blank.semicolon h
  | pair before name value quoted after =>
    obtain ⟨hbefore, hname, hvalue, hafter⟩ := h
    intro hc
    obtain hc | hc := List.mem_append.mp hc
    · obtain hc | hc := List.mem_append.mp hc
      · exact hbefore.semicolon hc
      · obtain hc | hc := List.mem_append.mp hc
        · exact hname.semicolon hc
        · cases hc with
          | tail _ hc => exact written_semicolon hvalue hc
    · exact hafter.semicolon hc

/-- Nothing blank stands at the ends of a written value. -/
lemma written_bare (h : CookieValue value) : Bare isSpace (written value quoted) := by
  unfold written
  split
  case isTrue =>
    constructor
    · intro c hc
      cases hc
      decide
    · intro c hc
      rw [← List.cons_append, List.getLast?_append, List.getLast?_singleton] at hc
      cases hc
      decide
  case isFalse => exact h.bare

/-- The quotes are taken off again. -/
lemma trimMatches_written (h : CookieValue value) :
    trimMatches (· == '"') (written value quoted) = value := by
  have hquote : ∀ c ∈ ['"'], (c == '"') = true := by
    intro c hc
    rw [List.mem_singleton.mp hc]
    rfl
  unfold written
  split
  case isTrue => exact trimMatches_append hquote h.unquoted hquote
  case isFalse => exact trimMatches_bare h.unquoted

/-- Nothing blank stands at the ends of a pair, even if its name or its value is empty. -/
lemma pair_bare (hname : CookieName name) (hvalue : CookieValue value) :
    Bare isSpace (name ++ '=' :: written value quoted) := by
  constructor
  · intro c hc
    cases name with
    | nil =>
      cases hc
      decide
    | cons d name => exact hname.bare.1 c hc
  · intro c hc
    rw [List.getLast?_append, List.getLast?_cons] at hc
    cases hw : (written value quoted).getLast? with
    | none =>
      rw [hw] at hc
      cases hc
      decide
    | some d =>
      rw [hw] at hc
      cases hc
      exact (written_bare hvalue).2 _ hw

/-- A piece is read back as it was meant. -/
lemma cookiePart_text (h : p.WellFormed) : cookiePart p.text = p.kv := by
  cases p with
  | blank ws =>
    have htrim : trim ws = [] := by
      have happend := trimMatches_append (s := []) h (bare_of_forall nofun)
        (fun _ hc => absurd hc List.not_mem_nil)
      rwa [List.append_nil, List.append_nil] at happend
    rw [cookiePart, text, htrim]
    rfl
  | pair before name value quoted after =>
    obtain ⟨hbefore, hname, hvalue, hafter⟩ := h
    -- trimming takes off the blanks, so that the name and the written value are left
    have htrim : trim (before ++ (name ++ '=' :: written value quoted) ++ after)
        = name ++ '=' :: written value quoted :=
      trimMatches_append hbefore (pair_bare hname hvalue) hafter
    have hkey : trim name = name := trimMatches_bare hname.bare
    have hval : trim (written value quoted) = written value quoted :=
      trimMatches_bare (written_bare hvalue)
    rw [cookiePart, text, htrim, splitOnce_append hname.equals, Option.map_some, hkey, hval,
      trimMatches_written hvalue]
    rfl

end CookiePiece

/-! ## The line -/

/-- Of each name, the value of the last part that is a cookie of it. -/
lemma lookup_parseCookieHeader {header : Str} : (parseCookieHeader header).lookup name
    = lastValue ((header.splitOn ';').filterMap cookiePart) name := by
  unfold parseCookieHeader
  generalize header.splitOn ';' = parts
  induction parts using List.reverseRecOn with
  | nil => rfl
  | append_singleton parts part ih =>
    rw [List.foldl_append, List.foldl_cons, List.foldl_nil, List.filterMap_append,
      List.filterMap_cons, List.filterMap_nil]
    cases cookiePart part with
    | none =>
      rw [List.append_nil]
      exact ih
    | some kv =>
      rw [lastValue_append, HashMap.lookup_insert, ← ih]
      exact ite_congr (propext eq_comm) (fun _ => rfl) fun _ => rfl

/-- The line is split into its pieces again. -/
lemma splitOn_cookieLine (h : ∀ p ∈ pieces, p.WellFormed) (hne : pieces ≠ []) :
    (cookieLine pieces).splitOn ';' = pieces.map CookiePiece.text := by
  apply List.splitOn_intercalate
  · intro part hpart
    obtain ⟨p, hp, rfl⟩ := List.mem_map.mp hpart
    exact CookiePiece.text_semicolon (h p hp)
  · exact fun hnil => hne (List.map_eq_nil_iff.mp hnil)

/-- A line is read back as the last value of each name. -/
lemma lookup_cookieLine (h : ∀ p ∈ pieces, p.WellFormed) :
    (parseCookieHeader (cookieLine pieces)).lookup name
      = lastValue (pieces.filterMap CookiePiece.kv) name := by
  have hparts : ((cookieLine pieces).splitOn ';').filterMap cookiePart
      = pieces.filterMap CookiePiece.kv := by
    cases pieces with
    | nil => rfl
    | cons p pieces =>
      rw [splitOn_cookieLine h (List.cons_ne_nil _ _), List.filterMap_map]
      exact List.filterMap_congr fun p hp => CookiePiece.cookiePart_text (h p hp)
  rw [lookup_parseCookieHeader, hparts]

/-! ## Minted values -/

/-- HMAC-SHA256 in base64-url. -/
def MacDocs (crates : Crates) : Prop := ∀ key payload, ∃ mac, crates.hmac key payload = base64Url mac

lemma minted_char_lt {c : Char} (h : (c == '.' || isBase64Url c) = true) : c.toNat < 128 := by
  obtain hdot | hmac := Bool.or_eq_true_iff.mp h
  · rw [beq_iff_eq.mp hdot]
    decide
  · exact isBase64Url_lt hmac

/-- A text without blanks, quotes and semicolons is left as it is. -/
lemma CookieValue.of_forall (h : ∀ c ∈ s, (c == '.' || isBase64Url c) = true) : CookieValue s := by
  have hchar : ∀ c, (c == '.' || isBase64Url c) = true →
      c ≠ ';' ∧ isSpace c = false ∧ (c == '"') = false := by
    intro c hc
    have key : ∀ n : Fin 128, (Char.ofNat n == '.' || isBase64Url (Char.ofNat n)) = true →
        Char.ofNat n ≠ ';' ∧ isSpace (Char.ofNat n) = false ∧ (Char.ofNat n == '"') = false := by
      decide
    obtain ⟨n, rfl⟩ := exists_ascii (minted_char_lt hc)
    exact key n hc
  exact ⟨fun hc => (hchar _ (h _ hc)).1 rfl, bare_of_forall fun c hc => (hchar c (h c hc)).2.1,
    bare_of_forall fun c hc => (hchar c (h c hc)).2.2⟩

/-- Digits are characters of minted values. -/
lemma dec_char {n : Nat} {c : Char} (h : c ∈ dec n) : isBase64Url c = true := by
  have hdigit := isDigit_of_mem_dec h
  simp only [Char.isDigit, Bool.and_eq_true, decide_eq_true_eq] at hdigit
  have hrange : 48 ≤ c.toNat ∧ c.toNat ≤ 57 := hdigit
  simp only [isBase64Url, hrange, decide_true, Bool.true_and, Bool.true_or]

lemma marker_char {ip : IpAddr} {c : Char} (h : c ∈ subnetMarker ip) : isBase64Url c = true := by
  have hhex := isHexLower_of_mem_marker h
  simp only [isHexLower, Char.isDigit, Bool.or_eq_true, Bool.and_eq_true, decide_eq_true_eq] at hhex
  have hrange : (48 ≤ c.toNat ∧ c.toNat ≤ 57) ∨ 97 ≤ c.toNat ∧ c.toNat ≤ 102 := hhex
  have hle : c.toNat ≤ 102 → c.toNat ≤ 122 := fun h => h.trans (by decide)
  simp only [isBase64Url, Bool.or_eq_true, Bool.and_eq_true, decide_eq_true_eq]
  obtain h | h := hrange
  · exact .inl (.inl (.inl (.inl h)))
  · exact .inl (.inl (.inr ⟨h.1, hle h.2⟩))

/-- A cookie that the server mints, its name and its value. -/
inductive Minted (crates : Crates) : Str → Str → Prop
  | clearance (c : Challenger) (now : Nat) : CookieName c.cookieName →
    Minted crates c.cookieName (c.mintClearance crates now)
  | bic (b : Bic) (now : Nat) (ip : IpAddr) :
    Minted crates (b.mint crates now ip).1 (b.mint crates now ip).2

/-- The integrity cookie has a name that can be read. -/
lemma bicName : CookieName BIC_COOKIE_NAME where
  semicolon := by decide
  equals := by decide
  bare := bare_of_ends (by decide) (by decide)

/-- What the server mints is made of dots and base64-url. -/
lemma Minted.chars {crates : Crates} (docs : MacDocs crates) (h : Minted crates name value) :
    ∀ c ∈ value, (c == '.' || isBase64Url c) = true := by
  have hmac : ∀ {key payload c}, c ∈ crates.hmac key payload →
      (c == '.' || isBase64Url c) = true := by
    intro key payload c hc
    obtain ⟨mac, hmac⟩ := docs key payload
    rw [hmac] at hc
    exact Bool.or_eq_true_iff.mpr (.inr (isBase64Url_of_mem hc))
  have hdot : ∀ {t : Str} {c}, (c ∈ t → (c == '.' || isBase64Url c) = true) → c ∈ '.' :: t →
      (c == '.' || isBase64Url c) = true := by
    intro t c ht hc
    cases hc with
    | head => rfl
    | tail _ hc => exact ht hc
  intro ch hc
  cases h with
  | clearance c now hname =>
    obtain hc | hc := List.mem_append.mp hc
    · exact Bool.or_eq_true_iff.mpr (.inr (dec_char hc))
    · exact hdot hmac hc
  | bic b now ip =>
    obtain hc | hc := List.mem_append.mp hc
    · exact Bool.or_eq_true_iff.mpr (.inr (dec_char hc))
    · refine hdot (fun hc => ?_) hc
      obtain hc | hc := List.mem_append.mp hc
      · exact Bool.or_eq_true_iff.mpr (.inr (marker_char hc))
      · exact hdot hmac hc

/-- What the server mints is left as it is. -/
lemma Minted.wellFormed {crates : Crates} (docs : MacDocs crates) (h : Minted crates name value) :
    CookieName name ∧ CookieValue value := by
  refine ⟨?_, CookieValue.of_forall (h.chars docs)⟩
  cases h with
  | clearance c now hname => exact hname
  | bic b now ip => exact bicName

/-- What a request with the line has of a cookie. -/
lemma cookie_buildRequestCtx {crates : Crates} {sess : Session} {hops : Nat} {requestId : Str}
    (hnames : LowerNames sess.headers) (hline : firstText sess.headers "cookie" = some s) :
    (buildRequestCtx crates sess hops requestId).cookie name
      = (parseCookieHeader s).lookup name := by
  have hget : (HeaderTable.ofLines sess.headers).map.get "cookie" = some s :=
    (lookup_ofLines hnames).trans hline
  show ((((HeaderTable.ofLines sess.headers).map.get "cookie").map parseCookieHeader).getD
    ∅).lookup name = _
  rw [hget]
  rfl

/-- A `Cookie` line is read back: of each name the value of its last pair, whatever blanks, empty parts
and quotes it is written with. A cookie that the server has minted, with no later one of its name, is read
back unchanged. -/
theorem cookies_roundtrip (crates : Crates) :
    (∀ pieces : List CookiePiece, (∀ p ∈ pieces, p.WellFormed) → ∀ name,
      (parseCookieHeader (cookieLine pieces)).get name
        = lastValue (pieces.filterMap CookiePiece.kv) name)
      ∧ (MacDocs crates → ∀ (sess : Session) (hops : Nat) (requestId : Str)
        (init rest : List CookiePiece) (before name value : Str) (quoted : Bool) (after : Str),
        Minted crates name value → Blank before → Blank after →
        (∀ p ∈ init, p.WellFormed) →
        (∀ p ∈ rest, p.WellFormed ∧ ∀ kv ∈ p.kv, kv.1 ≠ name) →
        LowerNames sess.headers →
        firstText sess.headers "cookie"
          = some (cookieLine (init ++ .pair before name value quoted after :: rest)) →
        (buildRequestCtx crates sess hops requestId).cookie name = some value) := by
  constructor
  · intro pieces h name
    exact lookup_cookieLine h
  · intro docs sess hops requestId init rest before name value quoted after hminted hbefore hafter
      hinit hrest hnames hline
    obtain ⟨hname, hvalue⟩ := hminted.wellFormed docs
    have hpieces : ∀ p ∈ init ++ .pair before name value quoted after :: rest, p.WellFormed := by
      intro p hp
      obtain hp | hp := List.mem_append.mp hp
      · exact hinit p hp
      · cases hp with
        | head => exact ⟨hbefore, hname, hvalue, hafter⟩
        | tail _ hp => exact (hrest p hp).1
    have hlast : ∀ kv ∈ rest.filterMap CookiePiece.kv, kv.1 ≠ name := by
      intro kv hkv
      obtain ⟨p, hp, hkv⟩ := List.mem_filterMap.mp hkv
      exact (hrest p hp).2 kv hkv
    rw [cookie_buildRequestCtx hnames hline, lookup_cookieLine hpieces, List.filterMap_append]
    exact lastValue_of_last hlast

/-- The crates on the input of the example: the signature of `clr|1700001800`. -/
def cookieCrates : Crates where
  __ := idleCrates
  hmac _ _ := base64Url
    [105, 70, 122, 4, 32, 204, 91, 184, 62, 43, 245, 22, 252, 196, 102, 242, 138, 122, 44, 36,
      104, 209, 236, 244, 42, 177, 63, 194, 170, 67, 176, 5]

/-- A challenger as the default configuration names its cookie. -/
def cookieServer : Challenger := .new "a-very-secret-key-of-some-length" "__2t1_clearance" 1800 4

/-- What it mints at 1700000000 s. -/
def cookieValue : Str := cookieServer.mintClearance cookieCrates 1700000000

/-- A line with an older cookie of the name, an empty part and a quoted value. -/
def cookiePieces : List CookiePiece :=
  [.pair [] "__2t1_clearance" "123.abc" false [], .blank " ",
    .pair " " "__2t1_clearance" cookieValue true [], .pair " " "c" "x y" true " "]

/-- A request with this line. -/
def cookieSession : Session where
  clientAddr := some (.inet (.v4 (.new 1 2 3 4)))
  method := "GET"
  uri := "/"
  path := "/"
  query := none
  pathAndQuery := some "/"
  version := "HTTP/1.1"
  headers := [⟨"cookie", utf8 (cookieLine cookiePieces)⟩]

lemma cookieCrates_docs : MacDocs cookieCrates := fun _ _ => ⟨_, rfl⟩

/-- The sample value is minted. -/
lemma cookieServer_minted : Minted cookieCrates "__2t1_clearance" cookieValue :=
  .clearance cookieServer 1700000000
    ⟨by decide, by decide, bare_of_ends (by decide) (by decide)⟩

/-- The sample pieces are well formed. -/
lemma cookiePieces_wellFormed : ∀ p ∈ cookiePieces, p.WellFormed := by
  have hnil : Blank [] := nofun
  have hblank : Blank [' '] := by
    intro c hc
    rw [List.mem_singleton.mp hc]
    decide
  obtain ⟨hname, hvalue⟩ := cookieServer_minted.wellFormed cookieCrates_docs
  have hold : CookieValue "123.abc" :=
    ⟨by decide, bare_of_ends (by decide) (by decide), bare_of_ends (by decide) (by decide)⟩
  have hc : CookieName "c" := ⟨by decide, by decide, bare_of_ends (by decide) (by decide)⟩
  have hxy : CookieValue "x y" :=
    ⟨by decide, bare_of_ends (by decide) (by decide), bare_of_ends (by decide) (by decide)⟩
  intro p hp
  cases hp with
  | head => exact ⟨hnil, hname, hold, hnil⟩
  | tail _ hp =>
    cases hp with
    | head => exact hblank
    | tail _ hp =>
      cases hp with
      | head => exact ⟨hblank, hname, hvalue, hnil⟩
      | tail _ hp =>
        rw [List.mem_singleton.mp hp]
        exact ⟨hblank, hc, hxy, hblank⟩

set_option maxRecDepth 4000 in
/-- They are the line of the sample request. -/
lemma cookieSession_line :
    firstText cookieSession.headers "cookie" = some (cookieLine cookiePieces) := by
  have hprintable : (cookieLine cookiePieces).all
      (fun c => decide (32 ≤ c.toNat ∧ c.toNat < 127)) = true := by
    decide
  have htext : HeaderValue.toStr (utf8 (cookieLine cookiePieces))
      = some (cookieLine cookiePieces) :=
    HeaderValue.toStr_utf8 fun c hc => of_decide_eq_true (List.all_eq_true.mp hprintable c hc)
  show [utf8 (cookieLine cookiePieces)].findSome? HeaderValue.toStr = _
  rw [List.findSome?_cons, htext]

/-- A line with quotes, blanks and a minted value. -/
theorem cookies_roundtrip_witness :
    (parseCookieHeader (cookieLine cookiePieces)).get "c" = some "x y".toList
      ∧ (buildRequestCtx cookieCrates cookieSession 0 "t").cookie "__2t1_clearance"
        = some cookieValue := by
  have hblank : Blank [' '] := by
    intro c hc
    rw [List.mem_singleton.mp hc]
    decide
  have hlower : LowerNames cookieSession.headers := by
    intro l hl
    rw [List.mem_singleton.mp hl]
    decide
  refine ⟨(cookies_roundtrip cookieCrates).1 cookiePieces cookiePieces_wellFormed "c", ?_⟩
  refine (cookies_roundtrip cookieCrates).2 cookieCrates_docs cookieSession 0 "t"
    [.pair [] "__2t1_clearance" "123.abc" false [], .blank " "] [.pair " " "c" "x y" true " "]
    " " "__2t1_clearance" cookieValue true [] cookieServer_minted hblank nofun ?_ ?_ hlower
    cookieSession_line
  · intro p hp
    exact cookiePieces_wellFormed p (List.mem_append_left [_, _] hp)
  · intro p hp
    refine ⟨cookiePieces_wellFormed p (List.mem_append_right [_, _, _] hp), ?_⟩
    rw [List.mem_singleton.mp hp]
    intro kv hkv
    cases hkv
    decide

end Waf
