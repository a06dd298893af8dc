import Waf.Admin.Auth
import Waf.Admin.Reading
import Waf.Net.AddrText
import Waf.Rules.Decode

/-!
# Calls of the dashboard

`api` of `dashboard.js` and the server of `admin.rs` are the two ends of a format: the page puts what an
operator has typed into a query with `encodeURIComponent`, its token into a header and a patch into the
body; the server splits the bytes that come in and decodes them. Whatever the texts are, and however the
bytes come in, what is read is what was sent (`call_received`).

So an edit of the lists is made with the text that was typed, and the button beside a ban lifts that ban
and no other (`unban_button`).
-/

namespace Waf
open Lib

namespace Admin

/-! ## The page -/

/-- The characters that stand for themselves in a query. `encodeURIComponent` leaves the apostrophe too,
which `fetch` then writes as `%27`. -/
def plain : Str :=
  "ABCDEFGHIJKLMNOPQRSTUVWXYZabcdefghijklmnopqrstuvwxyz0123456789-_.!~*()".toList

def isPlain (c : Char) : Bool := plain.contains c

/-- What a query has for a text. -/
def encodeURIComponent (s : Str) : Str :=
  s.flatMap fun c =>
    if isPlain c then [c] else (String.utf8EncodeChar c).flatMap fun b => '%' :: hexUpper b

structure Call where
  method : Str
  path : Str
  params : List (Str × Str)
  headers : List (Str × Str)
  body : List UInt8

namespace Call

def param (p : Str × Str) : Str := encodeURIComponent p.1 ++ '=' :: encodeURIComponent p.2

def target (c : Call) : Str :=
  match c.params with
  | [] => c.path
  | params => c.path ++ '?' :: ['&'].intercalate (params.map param)

def header (h : Str × Str) : Str := h.1 ++ ':' :: ' ' :: h.2

/-- The lines of the header, as HTTP/1.1 has them. -/
def lines (c : Call) : List Str :=
  (c.method ++ ' ' :: (c.target ++ " HTTP/1.1".toList)) :: c.headers.map header

def head (c : Call) : List UInt8 := crlf.intercalate (c.lines.map utf8)

def bytes (c : Call) : List UInt8 := c.head ++ (doubleCrlf ++ c.body)

/-- What a browser sends: words without blanks, header names without colons, and a header that announces
the length of the body if there is one. -/
structure Sound (c : Call) : Prop where
  method : c.method ≠ [] ∧ ∀ x ∈ c.method, isSpace x = false
  path : c.path ≠ [] ∧ ∀ x ∈ c.path, isSpace x = false ∧ x ≠ '?'
  names : ∀ h ∈ c.headers, ∀ x ∈ h.1, isSpace x = false ∧ x ≠ ':'
  values : ∀ h ∈ c.headers, Bare isSpace h.2 ∧ '\r' ∉ h.2 ∧ '\n' ∉ h.2
  length : c.body ≠ [] → ∃ h ∈ c.headers, toAsciiLower h.1 = "content-length".toList
  lengths : ∀ h ∈ c.headers, toAsciiLower h.1 = "content-length".toList → h.2 = dec c.body.length
  small : c.body.length ≤ 2 ^ 20

/-- The call has at most 64 KiB, or its header at least a read less. -/
def Fits (c : Call) : Prop :=
  c.bytes.length ≤ 64 * 1024 ∨ c.head.length + 4 + 4096 ≤ 64 * 1024 + 1

/-- The entries that the last of the pairs with their keys have. -/
def table (pairs : List (Str × Str)) : HashMap Str Str := pairs.foldl (fun m p => m.insert p.1 p.2) ∅

/-- The request that a call stands for. -/
def request (c : Call) : ParsedReq where
  method := c.method
  path := c.path
  query := table c.params
  headers := table (c.headers.map fun h => (toAsciiLower h.1, h.2))
  body := c.body

end Call

variable {crates : Crates} {c : Call} {s t : Str} {x : Char} {d : List Read} {p : Str × Str}

/-- What a scan finds of every character. -/
lemma forall_of_all {p : Char → Prop} [DecidablePred p] (h : (s.all fun x => decide (p x)) = true) :
    ∀ x ∈ s, p x := fun x hx => of_decide_eq_true (List.all_eq_true.mp h x hx)

/-! ## Queries -/

/-- The characters of an encoded text. -/
def isCoded (c : Char) : Bool := isPlain c || c == '%'

lemma coded_of_mem (h : x ∈ encodeURIComponent s) : isCoded x = true := by
  obtain ⟨c, -, hx⟩ := List.mem_flatMap.mp h
  split at hx
  case isTrue hplain =>
    obtain rfl := List.mem_singleton.mp hx
    rw [isCoded, hplain, Bool.true_or]
  case isFalse =>
    obtain ⟨b, -, hx⟩ := List.mem_flatMap.mp hx
    rcases List.mem_cons.mp hx with rfl | hx
    · decide
    · have hdigit : ∀ n : Fin 16, isCoded (Nat.digitChar n).toUpper = true := by decide
      rw [hexUpper_eq] at hx
      simp only [List.mem_cons, List.not_mem_nil, or_false] at hx
      rcases hx with rfl | rfl
      · exact hdigit ⟨_, Nat.mod_lt _ (by decide)⟩
      · exact hdigit ⟨_, Nat.mod_lt _ (by decide)⟩

lemma not_mem_encoded (h : isCoded x = false) : x ∉ encodeURIComponent s := by
  intro hx
  rw [coded_of_mem hx] at h
  cases h

/-- Bytes that are written in capitals are decoded. -/
lemma percentDecode_bytes {bs : List UInt8} :
    percentDecode ((bs.flatMap fun b => '%' :: hexUpper b) ++ s) = bs ++ percentDecode s := by
  induction bs with
  | nil => rfl
  | cons b bs ih =>
    rw [List.flatMap_cons, List.append_assoc, List.cons_append, percentDecode_upper, ih]
    rfl

/-- A parameter is decoded to its bytes. -/
lemma percentDecode_encoded : percentDecode (encodeURIComponent s) = utf8 s := by
  induction s with
  | nil => rfl
  | cons c s ih =>
    show percentDecode ((if isPlain c then [c]
      else (String.utf8EncodeChar c).flatMap fun b => '%' :: hexUpper b) ++ encodeURIComponent s)
        = String.utf8EncodeChar c ++ utf8 s
    split
    case isTrue hplain =>
      have hc : c ≠ '%' := by
        rintro rfl
        exact absurd hplain (by decide)
      rw [List.singleton_append, percentDecode_of_ne hc, ih]
    case isFalse => rw [percentDecode_bytes, ih]

/-- An encoded text is decoded to what it was. -/
lemma decode_encoded (docs : DecodeDocs crates) : decode crates (encodeURIComponent s) = s := by
  rw [decode, docs, percentDecode_encoded, lossy_utf8]

/-- The parameters are read as they were sent. -/
lemma parseQuery_params (docs : DecodeDocs crates) {params : List (Str × Str)} :
    parseQuery crates (['&'].intercalate (params.map Call.param)) = Call.table params := by
  cases params with
  | nil => rfl
  | cons p params =>
    have hamp : ∀ l ∈ (p :: params).map Call.param, '&' ∉ l := by
      intro l hl
      obtain ⟨q, -, rfl⟩ := List.mem_map.mp hl
      have hcode := fun s => not_mem_encoded (x := '&') (s := s) (by decide)
      simp [Call.param, hcode]
    have hparam : ∀ (m : HashMap Str Str) (q : Str × Str),
        (if (Call.param q).isEmpty then m
          else
            let split := (splitOnce '=' (Call.param q)).getD (Call.param q, [])
            m.insert (decode crates split.1) (decode crates split.2)) = m.insert q.1 q.2 := by
      intro m q
      have hsplit : splitOnce '=' (Call.param q)
          = some (encodeURIComponent q.1, encodeURIComponent q.2) :=
        splitOnce_append (not_mem_encoded (by decide))
      have hne : (Call.param q).isEmpty = false := by
        rw [Call.param, List.isEmpty_eq_false_iff]
        exact List.append_ne_nil_of_right_ne_nil _ (List.cons_ne_nil _ _)
      simp only [hne, hsplit, Option.getD_some, decode_encoded docs]
      rfl
    rw [parseQuery, List.splitOn_intercalate '&' hamp (List.cons_ne_nil _ _), List.foldl_map, Call.table]
    congr 1
    funext m q
    exact hparam m q

/-! ## Lines -/

/-- A line end belongs to what stands between the lines. -/
lemma splitCrlf_line (h : '\r' ∉ s) : splitCrlf (s ++ '\r' :: '\n' :: t) = s :: splitCrlf t := by
  induction s with
  | nil => rfl
  | cons c s ih =>
    have hc : c ≠ '\r' := fun hc => h (hc ▸ .head _)
    rw [List.cons_append, splitCrlf, ih fun hs => h (.tail _ hs)]
    · rfl
    · intro u hu
      exact absurd hu hc

/-- What has no line end is the last line. -/
lemma splitCrlf_last (h : '\r' ∉ s) : splitCrlf s = [s] := by
  induction s with
  | nil => rfl
  | cons c s ih =>
    have hc : c ≠ '\r' := fun hc => h (hc ▸ .head _)
    rw [splitCrlf, ih fun hs => h (.tail _ hs)]
    · rfl
    · intro u hu
      exact absurd hu hc

/-- The lines of a header are found again. -/
lemma splitCrlf_lines {lines : List Str} (hne : lines ≠ []) (h : ∀ l ∈ lines, '\r' ∉ l) :
    splitCrlf (['\r', '\n'].intercalate lines) = lines := by
  induction lines with
  | nil => exact absurd rfl hne
  | cons l lines ih =>
    have hl := h l (.head _)
    cases lines with
    | nil => rw [List.intercalate_singleton, splitCrlf_last hl]
    | cons next lines =>
      rw [List.intercalate_cons_cons, List.append_assoc]
      have hrest := ih (List.cons_ne_nil _ _) fun l hl => h l (.tail _ hl)
      rw [show l ++ (['\r', '\n'] ++ ['\r', '\n'].intercalate (next :: lines))
        = l ++ '\r' :: '\n' :: ['\r', '\n'].intercalate (next :: lines) from rfl,
        splitCrlf_line hl, hrest]

/-- Three words. -/
lemma splitWhitespace_words {u v w : Str} (hu : u ≠ [] ∧ ∀ x ∈ u, isSpace x = false)
    (hv : v ≠ [] ∧ ∀ x ∈ v, isSpace x = false) (hw : w ≠ [] ∧ ∀ x ∈ w, isSpace x = false) :
    splitWhitespace (u ++ ' ' :: (v ++ ' ' :: w)) = [u, v, w] := by
  have hne : ∀ {s : Str}, s ≠ [] → (!s.isEmpty) = true := by
    intro s hs
    cases s with
    | nil => exact absurd rfl hs
    | cons => rfl
  rw [splitWhitespace, List.splitOnP_append_cons_of_forall_mem hu.2 ' ' (by decide),
    List.splitOnP_append_cons_of_forall_mem hv.2 ' ' (by decide), List.splitOnP_eq_singleton hw.2]
  refine List.filter_eq_self.mpr fun s hs => ?_
  simp only [List.mem_cons, List.not_mem_nil, or_false] at hs
  rcases hs with rfl | rfl | rfl
  · exact hne hu.1
  · exact hne hv.1
  · exact hne hw.1

/-- No coded character is a blank. -/
lemma coded_not_space (h : isCoded x = true) : isSpace x = false := by
  have key : ('%' :: plain).all (fun c => !isSpace c) = true := by decide
  have hx : x ∈ '%' :: plain := by
    rcases Bool.or_eq_true_iff.mp h with h | h
    · exact .tail _ (List.contains_iff_mem.mp h)
    · rw [beq_iff_eq.mp h]
      exact .head _
  have hspace := List.all_eq_true.mp key x hx
  rwa [Bool.not_eq_true'] at hspace

/-- A parameter has no blanks. -/
lemma param_not_space (hx : x ∈ Call.param p) : isSpace x = false := by
  rcases List.mem_append.mp hx with hx | hx
  · exact coded_not_space (coded_of_mem hx)
  · rcases List.mem_cons.mp hx with rfl | hx
    · decide
    · exact coded_not_space (coded_of_mem hx)

/-- The target has no blanks. -/
lemma target_not_space (hpath : ∀ x ∈ c.path, isSpace x = false ∧ x ≠ '?') :
    ∀ x ∈ c.target, isSpace x = false := by
  intro x hx
  unfold Call.target at hx
  split at hx
  case h_1 => exact (hpath x hx).1
  case h_2 =>
    rcases List.mem_append.mp hx with hx | hx
    · exact (hpath x hx).1
    · rcases List.mem_cons.mp hx with rfl | hx
      · decide
      · obtain hx | ⟨l, hl, hx⟩ := mem_intercalate hx
        · obtain rfl := List.mem_singleton.mp hx
          decide
        · obtain ⟨q, -, rfl⟩ := List.mem_map.mp hl
          exact param_not_space hx

/-- The target is split into the path and the query. -/
lemma target_split (docs : DecodeDocs crates) (hpath : ∀ x ∈ c.path, isSpace x = false ∧ x ≠ '?') :
    ((splitOnce '?' c.target).getD (c.target, [])).1 = c.path
      ∧ parseQuery crates ((splitOnce '?' c.target).getD (c.target, [])).2 = Call.table c.params := by
  have hno : '?' ∉ c.path := fun h => (hpath _ h).2 rfl
  unfold Call.target
  split
  case h_1 hparams =>
    rw [splitOnce_eq_none.mpr hno, hparams]
    exact ⟨rfl, rfl⟩
  case h_2 =>
    rw [splitOnce_append hno]
    exact ⟨rfl, parseQuery_params docs⟩

/-! ## Headers -/

/-- The bytes of a character beyond ASCII are none of ASCII. -/
lemma le_of_mem_encode {b : UInt8} (hx : 128 ≤ x.toNat) (h : b ∈ String.utf8EncodeChar x) :
    128 ≤ b.toNat := by
  have hval : x.val.toNat = x.toNat := rfl
  have hhigh : ∀ n m : Nat, 128 ≤ m → n + m < 256 → b = UInt8.ofNat (n + m) → 128 ≤ b.toNat := by
    intro n m hm hlt hb
    rw [hb, toNat_ofNat_byte hlt]
    omega
  rw [String.utf8EncodeChar] at h
  simp only [hval] at h
  split_ifs at h
  case pos => omega
  case pos =>
    simp only [List.mem_cons, List.not_mem_nil, or_false] at h
    rcases h with h | h
    · exact hhigh _ _ (by decide) (by omega) h
    · exact hhigh _ _ (by decide) (by omega) h
  case pos =>
    simp only [List.mem_cons, List.not_mem_nil, or_false] at h
    rcases h with h | h | h
    · exact hhigh _ _ (by decide) (by omega) h
    · exact hhigh _ _ (by decide) (by omega) h
    · exact hhigh _ _ (by decide) (by omega) h
  case neg =>
    simp only [List.mem_cons, List.not_mem_nil, or_false] at h
    rcases h with h | h | h | h
    · exact hhigh _ _ (by decide) (by omega) h
    · exact hhigh _ _ (by decide) (by omega) h
    · exact hhigh _ _ (by decide) (by omega) h
    · exact hhigh _ _ (by decide) (by omega) h

lemma mem_utf8_ascii {b : UInt8} (hb : b.toNat < 128) (h : b ∈ utf8 s) : Char.ofNat b.toNat ∈ s := by
  obtain ⟨c, hc, hbc⟩ := List.mem_flatMap.mp h
  by_cases hascii : c.toNat < 128
  case pos =>
    rw [utf8EncodeChar_ascii hascii, List.mem_singleton] at hbc
    have hval : b.toNat = c.toNat := by
      rw [hbc, toNat_ofNat_byte (by omega)]
    rwa [hval, Char.ofNat_toNat]
  case neg =>
    have hlarge := le_of_mem_encode (Nat.le_of_not_lt hascii) hbc
    omega

lemma utf8_ne_nil (h : s ≠ []) : utf8 s ≠ [] := by
  intro hnil
  exact h (utf8_inj (t := []) hnil)

/-- A line of a text. -/
structure LineText (line : Str) : Prop where
  ne : line ≠ []
  cr : '\r' ∉ line
  lf : '\n' ∉ line

/-- A line of text is a line of a header. -/
lemma LineText.header (h : LineText s) : HeaderText (utf8 s) where
  ne := utf8_ne_nil h.ne
  cr hmem := h.cr (mem_utf8_ascii (b := 13) (by decide) hmem)
  lf hmem := h.lf (mem_utf8_ascii (b := 10) (by decide) hmem)

/-- The bytes of a text are read back. -/
lemma fromUtf8_utf8 : fromUtf8 (utf8 s) = some s := by
  have he : (utf8 s).toByteArray = s.utf8Encode := rfl
  rw [fromUtf8, he, List.utf8Decode?_utf8Encode, Option.map_some, List.toList_toArray]

/-- What has no blanks has no line ends. -/
lemma no_line_end (h : ∀ x ∈ s, isSpace x = false) : '\r' ∉ s ∧ '\n' ∉ s :=
  ⟨fun hx => Bool.false_ne_true ((h _ hx).symm.trans (by decide)),
    fun hx => Bool.false_ne_true ((h _ hx).symm.trans (by decide))⟩

/-- The lines of a sound call are lines of text. -/
lemma lines_text (h : c.Sound) : ∀ l ∈ c.lines, LineText l := by
  intro l hl
  rcases List.mem_cons.mp hl with rfl | hl
  · obtain ⟨hmr, hml⟩ := no_line_end h.method.2
    obtain ⟨htr, htl⟩ := no_line_end (target_not_space h.path.2)
    have hversion : '\r' ∉ " HTTP/1.1".toList ∧ '\n' ∉ " HTTP/1.1".toList := by decide
    constructor
    case ne => exact List.append_ne_nil_of_right_ne_nil _ (List.cons_ne_nil _ _)
    case cr => simp [hmr, htr]
    case lf => simp [hml, htl]
  · obtain ⟨header, hheader, rfl⟩ := List.mem_map.mp hl
    obtain ⟨hnr, hnl⟩ := no_line_end fun x hx => (h.names header hheader x hx).1
    obtain ⟨-, hvr, hvl⟩ := h.values header hheader
    constructor
    case ne => exact List.append_ne_nil_of_right_ne_nil _ (List.cons_ne_nil _ _)
    case cr => simp [Call.header, hnr, hvr]
    case lf => simp [Call.header, hnl, hvl]

/-- The empty line stands where the header ends. -/
lemma findDoubleCrlf_bytes (h : c.Sound) : findDoubleCrlf c.bytes = some c.head.length := by
  apply position_header
  · exact List.cons_ne_nil _ _
  · intro line hline
    obtain ⟨l, hl, rfl⟩ := List.mem_map.mp hline
    exact (lines_text h l hl).header

/-- The header is read as its lines. -/
lemma headOf_head (h : c.Sound) :
    headOf c.head = parseHead (['\r', '\n'].intercalate c.lines)
      ∧ splitCrlf (['\r', '\n'].intercalate c.lines) = c.lines := by
  constructor
  · have hcrlf : crlf = utf8 ['\r', '\n'] := by decide
    rw [Call.head, hcrlf, ← utf8_intercalate, headOf, fromUtf8_utf8, Option.getD_some]
  · exact splitCrlf_lines (List.cons_ne_nil _ _) fun l hl => (lines_text h l hl).cr

/-- A header line adds its entry, and the length of the body if it has it. -/
lemma addHeader_header (acc : HashMap Str Str × Nat) {n : Nat}
    (hname : ∀ x ∈ p.1, isSpace x = false ∧ x ≠ ':') (hvalue : Bare isSpace p.2)
    (hlen : toAsciiLower p.1 = "content-length".toList → p.2 = dec n) (hn : n ≤ 2 ^ 20) :
    addHeader acc (Call.header p) = (acc.1.insert (toAsciiLower p.1) p.2,
      if toAsciiLower p.1 = "content-length".toList then n else acc.2) := by
  have hcolon : ':' ∉ p.1 := fun hx => (hname _ hx).2 rfl
  have hkey : trim p.1 = p.1 := trimMatches_self fun x hx => (hname x hx).1
  have hval : trim (' ' :: p.2) = p.2 := by
    have hblank : ∀ x ∈ [' '], isSpace x = true := List.forall_mem_singleton.mpr (by decide)
    exact (trimMatches_front hblank).trans (trimMatches_bare hvalue)
  rw [addHeader, Call.header, splitOnce_append hcolon]
  simp only [hkey, hval]
  split
  case isTrue hcl =>
    have hbound : n < 2 ^ 64 := by omega
    rw [hlen hcl, parseU64, parseNat_dec hbound, Option.getD_some, Nat.min_eq_left hn]
  case isFalse => rfl

/-- The header lines give the table of the headers. -/
lemma foldl_headers {n : Nat} {headers : List (Str × Str)} (acc : HashMap Str Str × Nat)
    (hnames : ∀ h ∈ headers, ∀ x ∈ h.1, isSpace x = false ∧ x ≠ ':')
    (hvalues : ∀ h ∈ headers, Bare isSpace h.2)
    (hlens : ∀ h ∈ headers, toAsciiLower h.1 = "content-length".toList → h.2 = dec n)
    (hn : n ≤ 2 ^ 20) :
    (headers.map Call.header).foldl addHeader acc
      = ((headers.map fun h => (toAsciiLower h.1, h.2)).foldl (fun m p => m.insert p.1 p.2) acc.1,
        if ∃ h ∈ headers, toAsciiLower h.1 = "content-length".toList then n else acc.2) := by
  induction headers generalizing acc with
  | nil => simp
  | cons p headers ih =>
    have hp := addHeader_header acc (hnames p (.head _)) (hvalues p (.head _))
      (hlens p (.head _)) hn
    rw [List.map_cons, List.foldl_cons, hp, ih _ (fun h hh => hnames h (.tail _ hh))
      (fun h hh => hvalues h (.tail _ hh)) (fun h hh => hlens h (.tail _ hh)), List.map_cons,
      List.foldl_cons]
    congr 1
    by_cases hrest : ∃ h ∈ headers, toAsciiLower h.1 = "content-length".toList
    case pos =>
      obtain ⟨h, hh, hcl⟩ := hrest
      rw [if_pos ⟨h, hh, hcl⟩, if_pos ⟨h, .tail _ hh, hcl⟩]
    case neg =>
      rw [if_neg hrest]
      by_cases hcl : toAsciiLower p.1 = "content-length".toList
      case pos => rw [if_pos hcl, if_pos ⟨p, .head _, hcl⟩]
      case neg =>
        rw [if_neg hcl, if_neg]
        rintro ⟨h, hh, hcl'⟩
        rcases List.mem_cons.mp hh with rfl | hh
        · exact hcl hcl'
        · exact hrest ⟨h, hh, hcl'⟩

/-- The header of a call is read as it was sent. -/
lemma headOf_call (docs : DecodeDocs crates) (h : c.Sound) :
    (headOf c.head).request crates c.body = c.request
      ∧ (headOf c.head).contentLength = c.body.length := by
  obtain ⟨hhead, hlines⟩ := headOf_head h
  have hversion : " HTTP/1.1".toList = ' ' :: "HTTP/1.1".toList := by decide
  have htarget : c.target ≠ [] := by
    unfold Call.target
    split
    case h_1 => exact h.path.1
    case h_2 => exact List.append_ne_nil_of_right_ne_nil _ (List.cons_ne_nil _ _)
  have hwords : splitWhitespace (c.method ++ ' ' :: (c.target ++ " HTTP/1.1".toList))
      = [c.method, c.target, "HTTP/1.1".toList] := by
    rw [hversion]
    exact splitWhitespace_words h.method ⟨htarget, target_not_space h.path.2⟩
      ⟨List.cons_ne_nil _ _, forall_of_all (by decide)⟩
  have hfold := foldl_headers (∅, 0) h.names (fun p hp => (h.values p hp).1) h.lengths h.small
  have hlen : (if ∃ p ∈ c.headers, toAsciiLower p.1 = "content-length".toList then c.body.length else 0)
      = c.body.length := by
    split
    case isTrue => rfl
    case isFalse hnone =>
      by_cases hbody : c.body = []
      case pos => rw [hbody]; rfl
      case neg => exact absurd (h.length hbody) hnone
  obtain ⟨hpath, hquery⟩ := target_split docs h.path.2
  rw [hhead, parseHead, hlines]
  constructor
  · unfold Head.request
    simp only [Call.lines, List.headD_cons, List.tail_cons, hwords, hfold, hpath, hquery]
    rfl
  · simp only [Call.lines, List.tail_cons, hfold, hlen]

/-- What is read of the bytes of a call, in whatever reads. -/
lemma readRequest_call (docs : DecodeDocs crates) (h : c.Sound) (hfits : c.Fits) {d : List Read}
    (hd : received d = c.bytes) : readRequest crates d = some c.request := by
  have hfound := findDoubleCrlf_bytes h
  have hstable : Stable (received d) := by
    intro p hp
    rw [hd] at hp ⊢
    obtain rfl := Option.some.inj (hfound.symm.trans hp)
    obtain hall | hhead := hfits
    · exact .inl hall
    · exact .inr (.inl hhead)
  have hin : ¬ 64 * 1024 < c.head.length + 4 := by
    obtain hall | hhead := hfits
    · have hlen : c.bytes.length = c.head.length + (4 + c.body.length) := by
        rw [Call.bytes, List.length_append, List.length_append]
        rfl
      omega
    · omega
  obtain ⟨hreq, hlen⟩ := headOf_call docs h
  have hfront : c.bytes.take c.head.length = c.head := List.take_left' rfl
  have hback : c.bytes.drop (c.head.length + 4) = c.body := by
    rw [Call.bytes, List.drop_append, List.drop_eq_nil_of_le (Nat.le_add_right _ _),
      Nat.add_sub_cancel_left]
    rfl
  rw [readRequest_stable hstable, hd, wholeRequest, hfound, Option.bind_some, if_neg hin, requestAt]
  simp only [hfront, hback]
  rw [hlen, List.take_length, hreq]

/-- A table has the last entry of each key. -/
lemma table_last {pairs : List (Str × Str)} {k : Str} :
    (Call.table pairs).lookup k = (pairs.reverse.find? fun q => q.1 == k).map Prod.snd := by
  unfold Call.table
  induction pairs using List.reverseRecOn with
  | nil => rfl
  | append_singleton pairs q ih =>
    rw [List.foldl_append, List.foldl_cons, List.foldl_nil, HashMap.lookup_insert, ih,
      List.reverse_append, List.reverse_singleton, List.singleton_append, List.find?_cons]
    split
    case isTrue h => rw [beq_iff_eq.mpr h.symm]; rfl
    case isFalse h => rw [beq_false_of_ne (Ne.symm h)]

/-- A call that fits is read as it was sent, however it comes in: its words, its body, of each parameter
what was typed last, and of each header the last value, whatever the case of its name. -/
theorem call_received (docs : DecodeDocs crates) (h : c.Sound) (hfits : c.Fits) {d : List Read}
    (hd : received d = c.bytes) :
    ∃ req, readRequest crates d = some req
      ∧ req.method = c.method ∧ req.path = c.path ∧ req.body = c.body
      ∧ (∀ k, req.query.get k = (c.params.reverse.find? fun q => q.1 == k).map Prod.snd)
      ∧ ∀ k, req.headers.get k
        = ((c.headers.map fun q => (toAsciiLower q.1, q.2)).reverse.find? fun q => q.1 == k).map
          Prod.snd :=
  ⟨c.request, readRequest_call docs h hfits hd, rfl, rfl, rfl, fun _ => table_last, fun _ => table_last⟩

def callCrates : Crates := { idleCrates with percentDecode := percentDecode }

/-- The sample decoder is as documented. -/
lemma callCrates_decode : DecodeDocs callCrates := rfl

/-- A call with reserved characters, one beyond ASCII, and a body. -/
def reservedCall : Call where
  method := "POST"
  path := "/api/runtime"
  params := [("q", "a&b=é %/?")]
  headers := [("Host", "127.0.0.1"), ("Content-Length", "2"), ("X", "a: b")]
  body := [123, 125]

lemma reservedCall_names : ∀ h ∈ reservedCall.headers,
    (h.1.all fun x => decide (isSpace x = false ∧ x ≠ ':')) = true := by decide

/-- The sample call is sound. -/
lemma reservedCall_sound : reservedCall.Sound where
  method := ⟨by decide, forall_of_all (by decide)⟩
  path := ⟨by decide, forall_of_all (by decide)⟩
  names := fun h hh => forall_of_all (reservedCall_names h hh)
  values := by
    intro h hh
    simp only [reservedCall, List.mem_cons, List.not_mem_nil, or_false] at hh
    rcases hh with rfl | rfl | rfl
    · exact ⟨bare_of_ends (by decide) (by decide), by decide, by decide⟩
    · exact ⟨bare_of_ends (by decide) (by decide), by decide, by decide⟩
    · exact ⟨bare_of_ends (by decide) (by decide), by decide, by decide⟩
  length := by decide
  lengths := by decide
  small := by decide

/-- The call arrives byte by byte. -/
theorem call_received_witness :
    ∃ req, readRequest callCrates (singly reservedCall.bytes) = some req ∧ req.path = "/api/runtime"
      ∧ req.query.get "q" = some "a&b=é %/?".toList ∧ req.headers.get "x" = some "a: b".toList := by
  obtain ⟨req, hread, -, hpath, -, hquery, hheaders⟩ :=
    call_received callCrates_decode reservedCall_sound (.inl (by decide)) received_singly
  refine ⟨req, hread, hpath, ?_, ?_⟩
  · rw [hquery]
    decide
  · rw [hheaders]
    decide

/-! ## The button beside a ban -/

/-- The headers carry the token, as `api` sets it. -/
structure Signed (headers : List (Str × Str)) (token : Str) : Prop where
  some : token ≠ [] → ∃ h ∈ headers, toAsciiLower h.1 = "authorization".toList
  all : ∀ h ∈ headers, toAsciiLower h.1 = "authorization".toList → h.2 = "Bearer ".toList ++ token

/-- The call of the button beside the ban of an address. -/
def unbanCall (headers : List (Str × Str)) (a : IpAddr) : Call where
  method := "POST"
  path := "/api/unban"
  params := [("ip", a.toStr)]
  headers := headers
  body := []

/-- A table has what all the pairs with a key agree on. -/
lemma lookup_table {pairs : List (Str × Str)} {k v : Str} {m : HashMap Str Str}
    (hsome : (∃ q ∈ pairs, q.1 = k) ∨ m.lookup k = some v) (hall : ∀ q ∈ pairs, q.1 = k → q.2 = v) :
    (pairs.foldl (fun m q => m.insert q.1 q.2) m).lookup k = some v := by
  induction pairs generalizing m with
  | nil =>
    obtain ⟨q, hq, -⟩ | hm := hsome
    · cases hq
    · exact hm
  | cons q pairs ih =>
    rw [List.foldl_cons]
    refine ih ?_ fun r hr => hall r (.tail _ hr)
    by_cases hk : q.1 = k
    case pos =>
      right
      rw [HashMap.lookup_insert, if_pos hk.symm, hall q (.head _) hk]
    case neg =>
      obtain ⟨r, hr, hrk⟩ | hm := hsome
      · rcases List.mem_cons.mp hr with rfl | hr
        · exact absurd hrk hk
        · exact .inl ⟨r, hr, hrk⟩
      · right
        rw [HashMap.lookup_insert, if_neg (Ne.symm hk), hm]

/-- A call with the token is let through. -/
lemma authOk_signed {token : Str} (h : Signed c.headers token) : c.request.authOk token = true := by
  by_cases htoken : token = []
  case pos =>
    rw [htoken]
    rfl
  case neg =>
    refine (ParsedReq.authOk_iff htoken).mpr (.inl (.inl ?_))
    apply lookup_table
    · obtain ⟨q, hq, hkey⟩ := h.some htoken
      exact .inl ⟨_, List.mem_map_of_mem hq, hkey⟩
    · intro q hq hkey
      obtain ⟨r, hr, rfl⟩ := List.mem_map.mp hq
      exact h.all r hr hkey

end Admin

namespace Reputations
open Lib

variable {r : Reputations} {a : IpAddr} {now : Nat}

/-- Without the ban of an address the list of bans is the same but for its row. -/
lemma banned_unban : (r.unban a).banned now = (r.banned now).filter fun row => row.1 ≠ a := by
  have hrow : ∀ l : List (IpAddr × HitState),
      (l.filter fun e => e.1 ≠ a).filterMap (fun e =>
          if now < e.2.banUntil then some (e.1, e.2.banUntil - now) else none)
        = (l.filterMap fun e =>
          if now < e.2.banUntil then some (e.1, e.2.banUntil - now) else none).filter
            fun row => row.1 ≠ a := by
    intro l
    rw [List.filterMap_filter, List.filter_filterMap]
    congr 1
    funext e
    by_cases he : e.1 = a
    case pos => by_cases hban : now < e.2.banUntil <;> simp [Option.filter, he, hban]
    case neg => by_cases hban : now < e.2.banUntil <;> simp [Option.filter, he, hban]
  rw [banned, banned, ← hrow, unban]
  cases hs : r.state.lookup a with
  | some s =>
    simp only [HashMap.modify, hs, HashMap.toPairs_insert]
    rw [List.filterMap_cons]
    rfl
  | none =>
    have hother : ∀ e ∈ r.state.toPairs, decide (e.1 ≠ a) = true := by
      intro e he
      obtain ⟨f, hf, rfl⟩ := List.mem_map.mp he
      rw [decide_eq_true_eq]
      intro hfa
      exact List.dlookup_eq_none.mp hs (hfa ▸ List.mem_map_of_mem hf)
    simp only [HashMap.modify, hs]
    rw [List.filter_eq_self.mpr hother]

end Reputations

namespace Admin

variable {crates : Crates} {p : Process}
  {headers : List (Str × Str)} {a : IpAddr} {d : List Read}

/-- The button beside a ban lifts that ban. The call reaches the process, in whatever reads, with the
address that stood in the row; the list of bans loses that row and no other, and nothing else changes. -/
theorem unban_button (json : List UInt8 → Except Str Patch) (docs : DecodeDocs crates)
    (h : (unbanCall headers a).Sound) (hfits : (unbanCall headers a).Fits)
    (hsigned : Signed headers p.engine.runtime.authToken)
    (hd : received d = (unbanCall headers a).bytes) :
    ∃ req reps, readRequest crates d = some req
      ∧ p.handle crates json req = (.reply ⟨204, .empty⟩,
        { p with engine := { p.engine with reputations := reps } })
      ∧ ∀ now, reps.banned now = (p.engine.reputations.banned now).filter (fun row => row.1 ≠ a)
        ∧ ∀ b, reps.isBanned b now = (p.engine.reputations.isBanned b now && a ≠ b) := by
  refine ⟨_, p.engine.reputations.unban a, readRequest_call docs h hfits hd, ?_, fun now =>
    ⟨Reputations.banned_unban, fun b => Reputations.isBanned_unban⟩⟩
  have hauth : (unbanCall headers a).request.authOk p.engine.runtime.authToken = true :=
    authOk_signed hsigned
  have hip : (unbanCall headers a).request.unbanIp = some a := by
    have hget : (unbanCall headers a).request.query.get "ip" = some a.toStr := by
      apply lookup_table
      · exact .inl ⟨_, .head _, rfl⟩
      · intro q hq _
        obtain rfl := List.mem_singleton.mp hq
        rfl
    rw [ParsedReq.unbanIp, hget, Option.bind_some, IpAddr.parse_toStr]
  have hapi : startsWith (unbanCall headers a).request.path "/api/" = true :=
    (by decide : startsWith "/api/unban" "/api/" = true)
  have hroute : p.routeApi crates json (unbanCall headers a).request = (⟨204, .empty⟩,
      { p with engine := { p.engine with reputations := p.engine.reputations.unban a } }) := by
    have hpath : (unbanCall headers a).request.path = "/api/unban".toList := rfl
    have hmethod : (unbanCall headers a).request.method = "POST".toList := rfl
    unfold Process.routeApi
    simp only [hpath, hmethod, hip, String.ofList_toList]
  have hno : ∀ path : Str, path = "/api/stream".toList ∨ path = "/api/events/range".toList
      ∨ path = "/api/events/series".toList → (unbanCall headers a).request.path ≠ path := by
    rintro path (rfl | rfl | rfl)
    · exact (by decide : "/api/unban".toList ≠ "/api/stream".toList)
    · exact (by decide : "/api/unban".toList ≠ "/api/events/range".toList)
    · exact (by decide : "/api/unban".toList ≠ "/api/events/series".toList)
  rw [Process.handle, if_neg fun hs => hno _ (.inl rfl) hs.1, if_neg, if_pos hapi, if_pos hauth, hroute]
  rintro ⟨hs | hs, -⟩
  · exact hno _ (.inr (.inl rfl)) hs
  · exact hno _ (.inr (.inr rfl)) hs

/-- The headers of a browser with a token. -/
def buttonHeaders : List (Str × Str) :=
  [("Host", "127.0.0.1"), ("authorization", "Bearer secret"), ("Content-Length", "0")]

/-- A process with this token and the ban of an address. -/
def banningProcess : Process :=
  let p := Runtime.sampleProcess
  { p with
    engine := { p.engine with
      runtime := { p.engine.runtime with authToken := "secret" }
      reputations := p.engine.reputations.setEntry (.v4 (.new 10 0 0 1)) { banUntil := 2000000000 } } }

lemma buttonCall_names : ∀ h ∈ buttonHeaders,
    (h.1.all fun x => decide (isSpace x = false ∧ x ≠ ':')) = true := by decide

/-- The call of the button is sound. -/
lemma buttonCall_sound : (unbanCall buttonHeaders (.v4 (.new 10 0 0 1))).Sound where
  method := ⟨by decide, forall_of_all (by decide)⟩
  path := ⟨by decide, forall_of_all (by decide)⟩
  names := fun h hh => forall_of_all (buttonCall_names h hh)
  values := by
    intro h hh
    simp only [unbanCall, buttonHeaders, List.mem_cons, List.not_mem_nil, or_false] at hh
    rcases hh with rfl | rfl | rfl
    · exact ⟨bare_of_ends (by decide) (by decide), by decide, by decide⟩
    · exact ⟨bare_of_ends (by decide) (by decide), by decide, by decide⟩
    · exact ⟨bare_of_ends (by decide) (by decide), by decide, by decide⟩
  length := by decide
  lengths := by decide
  small := by decide

/-- One ban, and its button. -/
theorem unban_button_witness : banningProcess.engine.reputations.banned 1900000000
      = [(.v4 (.new 10 0 0 1), 100000000)]
    ∧ ∃ req reps, readRequest callCrates
        (singly (unbanCall buttonHeaders (.v4 (.new 10 0 0 1))).bytes) = some req
      ∧ banningProcess.handle callCrates (fun _ => .ok {}) req = (.reply ⟨204, .empty⟩,
        { banningProcess with engine := { banningProcess.engine with reputations := reps } })
      ∧ reps.banned 1900000000 = [] := by
  have hsigned : Signed buttonHeaders banningProcess.engine.runtime.authToken :=
    ⟨fun _ => ⟨("authorization", "Bearer secret"), by decide, by decide⟩, by decide⟩
  obtain ⟨req, reps, hread, hhandle, hlists⟩ := unban_button (fun _ => .ok {})
    callCrates_decode buttonCall_sound (.inl (by decide)) hsigned received_singly
  have hlist : banningProcess.engine.reputations.banned 1900000000
      = [(.v4 (.new 10 0 0 1), 100000000)] := by decide
  refine ⟨hlist, req, reps, hread, hhandle, ?_⟩
  rw [(hlists 1900000000).1, hlist]
  decide

end Admin

end Waf
