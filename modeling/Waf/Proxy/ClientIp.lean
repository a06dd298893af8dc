import Waf.Net.Addr
import Waf.Net.Header

/-!
# The client address

Behind `trusted_proxy_hops` proxies the address of the client is read from `X-Forwarded-For`: of the
first line of that name, the entry that many places from the right. Each proxy appends the address it
was called from, either to the last line or as a new one.

The entry read is the one of the first proxy when the client sent no such line, or one line of plain
ASCII which every proxy extended (`Attested`). A second line, from the client or from a proxy, moves
the place that is read into text the client wrote. `resolveClientIp_eq_iff` says that nothing but an
accident helps then.
-/

namespace Waf
open Lib

/-- The peer of a connection. -/
inductive SocketAddr where
  | inet (ip : IpAddr)
  | unix

def SocketAddr.asInet : SocketAddr → Option IpAddr
  | inet ip => some ip
  | unix => none

/-- The address of the peer, with `0.0.0.0` for a peer that has none. -/
def socketIp (clientAddr : Option SocketAddr) : IpAddr :=
  (clientAddr.bind SocketAddr.asInet).getD (.v4 (.new 0 0 0 0))

/-- The comma-separated entries of a line. -/
def xffParts (xff : Str) : List Str := (xff.splitOn ',').map trim

def resolveClientIp (clientAddr : Option SocketAddr) (headers : List HeaderLine)
    (trustedHops : Nat) : IpAddr :=
  let socket := socketIp clientAddr
  if trustedHops = 0 then socket
  else
    match (headerGet headers "x-forwarded-for").bind HeaderValue.toStr with
    | none => socket
    | some xff =>
      let parts := xffParts xff
      if parts.isEmpty then socket
      else
        -- the entry that many places from the right, or the first of a shorter list
        let want := parts.length - trustedHops
        (parts[want]?.bind IpAddr.parse).getD socket

/-! ## Proxies -/

/-- An entry of the list: the text of an address. -/
structure Entry where
  text : Str
  addr : IpAddr
  valid : IpAddr.parse text = some addr

/-- A proxy appends its entry to the last line, or in a line of its own. -/
inductive Hop where
  | extend (e : Entry)
  | addLine (e : Entry)

namespace Hop

def entry : Hop → Entry
  | extend e => e
  | addLine e => e

def isExtend : Hop → Bool
  | extend _ => true
  | addLine _ => false

/-- The line `l` with the entry of the proxy at its end. -/
def extendLine (l : HeaderValue) (h : Hop) : HeaderValue := l ++ utf8 (", " ++ h.entry.text)

/-- The lines that a proxy passes on. -/
def forward (lines : List HeaderValue) (h : Hop) : List HeaderValue :=
  match h, lines.getLast? with
  | extend _, some l => lines.dropLast ++ [h.extendLine l]
  | _, _ => lines ++ [utf8 h.entry.text]

end Hop

/-- The lines that reach the firewall from a client behind the proxies. -/
def forwarded (client : List HeaderValue) (hops : List Hop) : List HeaderValue :=
  hops.foldl Hop.forward client

/-- The proxies that append to the line the client sent. -/
def extending (hops : List Hop) : List Hop := hops.takeWhile Hop.isExtend

/-- The text of a line after the proxies `hops` have extended it. -/
def extendText (s : Str) (hops : List Hop) : Str :=
  hops.foldl (fun s h => s ++ (", " ++ h.entry.text)) s

/-! ## What the firewall reads -/

/-- The characters of an address lie between the dot and `f`. -/
lemma isAddrChar_bounds {c} (h : isAddrChar c = true) : 46 ≤ c.toNat ∧ c.toNat ≤ 102 := by
  simp only [isAddrChar, Bool.or_eq_true, beq_iff_eq] at h
  rcases h with (h | rfl) | rfl
  · simp only [isDigitOf, digitValue] at h
    split_ifs at h with h1 h2 h3
    · obtain ⟨hlo, hhi⟩ : 48 ≤ c.val ∧ c.val ≤ 57 := by simpa [Char.isDigit] using h1
      have hlo : 48 ≤ c.toNat := hlo
      have hhi : c.toNat ≤ 57 := hhi
      exact ⟨by omega, by omega⟩
    · exact ⟨by omega, by omega⟩
    · exact ⟨by omega, by omega⟩
    · cases h
  · exact ⟨by decide, by decide⟩
  · exact ⟨by decide, by decide⟩

/-- Characters of addresses are no blanks. -/
lemma isSpace_of_addrChar {c} (h : isAddrChar c = true) : isSpace c = false := by
  obtain ⟨hlo, hhi⟩ := isAddrChar_bounds h
  simp [isSpace]
  omega

namespace Entry

variable {e : Entry}

/-- An entry is written in characters of addresses. -/
lemma chars : ∀ c ∈ e.text, isAddrChar c = true := IpAddr.parse_chars e.valid

/-- It can be read as a text. -/
lemma toStr_text : HeaderValue.toStr (utf8 e.text) = some e.text := by
  apply HeaderValue.toStr_utf8
  intro c hc
  obtain ⟨hlo, hhi⟩ := isAddrChar_bounds (chars c hc)
  exact ⟨by omega, by omega⟩

lemma comma_not_mem : ',' ∉ e.text := by
  intro h
  exact absurd (chars _ h) (by decide)

/-- An entry has no blanks to trim. -/
lemma trim_text : trim e.text = e.text :=
  trimMatches_self fun c hc => isSpace_of_addrChar (chars c hc)

/-- A blank before it is trimmed. -/
lemma trim_blank_text : trim (' ' :: e.text) = e.text :=
  trim_space_cons fun c hc => isSpace_of_addrChar (chars c hc)

/-- A line that holds one entry. -/
lemma xffParts_text : xffParts e.text = [e.text] := by
  rw [xffParts, List.splitOn_eq_singleton comma_not_mem]
  exact congrArg (fun t => [t]) trim_text

end Entry

/-- An appended entry is one more part, whatever the line was. -/
lemma xffParts_append {s : Str} {e : Entry} :
    xffParts (s ++ (", " ++ e.text)) = xffParts s ++ [e.text] := by
  have hsplit : (s ++ (", ".toList ++ e.text)).splitOn ',' = s.splitOn ',' ++ [' ' :: e.text] := by
    have hblank : ',' ∉ ' ' :: e.text := by
      simpa using Entry.comma_not_mem
    have happ := List.splitOn_append_cons_self (a := ',') s (' ' :: e.text)
    rw [List.splitOn_eq_singleton hblank] at happ
    exact happ
  rw [xffParts, hsplit, List.map_append]
  exact congrArg (fun t => _ ++ [t]) Entry.trim_blank_text

/-- Hops add their entries behind the parts of a line. -/
lemma xffParts_extendText {s hops} :
    xffParts (extendText s hops) = xffParts s ++ hops.map fun h => h.entry.text := by
  induction hops generalizing s with
  | nil => simp [extendText]
  | cons h hops ih =>
    rw [extendText, List.foldl_cons, ← extendText, ih, xffParts_append]
    simp

lemma xffParts_ne_nil {s} : xffParts s ≠ [] := by
  simp [xffParts]

/-- The text of an extended line is the extended text. -/
lemma toStr_extendLine {l : HeaderValue} {h : Hop} :
    (h.extendLine l).toStr = l.toStr.map fun s => s ++ (", " ++ h.entry.text) := by
  have hsep : HeaderValue.toStr (utf8 (", " ++ h.entry.text)) = some (", " ++ h.entry.text) := by
    have hsplit : utf8 (", ".toList ++ h.entry.text) = utf8 ", " ++ utf8 h.entry.text :=
      List.flatMap_append
    have hcomma : HeaderValue.toStr (utf8 ", ") = some ", ".toList := by rfl
    rw [hsplit, HeaderValue.toStr_append, hcomma, Entry.toStr_text]
    rfl
  rw [Hop.extendLine, HeaderValue.toStr_append, hsep]
  cases l.toStr <;> rfl

/-- A line can be read after hops iff it could before them. -/
lemma toStr_foldl_extendLine {l : HeaderValue} {hops : List Hop} :
    (hops.foldl (fun l h => h.extendLine l) l).toStr
      = l.toStr.map fun s => extendText s hops := by
  induction hops generalizing l with
  | nil => simp [extendText]
  | cons h hops ih =>
    rw [List.foldl_cons, ih, toStr_extendLine, Option.map_map]
    rfl

/-- A proxy does not touch the first of several lines. -/
lemma forwarded_of_two {l l' : HeaderValue} {lines hops} :
    (forwarded (l :: l' :: lines) hops).head? = some l := by
  induction hops generalizing l' lines with
  | nil => rfl
  | cons h hops ih =>
    have hstep : ∃ l'' lines', Hop.forward (l :: l' :: lines) h = l :: l'' :: lines' := by
      cases h with
      | addLine e => exact ⟨l', lines ++ [utf8 e.text], rfl⟩
      | extend e =>
        cases hlast : (l' :: lines).getLast? with
        | none => simp at hlast
        | some last =>
          have hfwd : Hop.forward (l :: l' :: lines) (.extend e)
              = l :: (l' :: lines).dropLast ++ [Hop.extendLine last (.extend e)] := by
            simp only [Hop.forward, List.getLast?_cons_cons, hlast]
            rfl
          rw [hfwd]
          cases lines with
          | nil => exact ⟨_, _, rfl⟩
          | cons x xs => exact ⟨_, _, rfl⟩
    obtain ⟨l'', lines', e⟩ := hstep
    rw [forwarded, List.foldl_cons, e]
    exact ih

/-- A single line is extended by the proxies before the first that adds a line. -/
lemma forwarded_of_one {l : HeaderValue} {hops} :
    (forwarded [l] hops).head?
      = some ((extending hops).foldl (fun l h => h.extendLine l) l) := by
  induction hops generalizing l with
  | nil => rfl
  | cons h hops ih =>
    cases h with
    | extend e => exact ih
    | addLine e => exact forwarded_of_two

/-- What is read off a first line `l` that the proxies `exts` have extended. -/
lemma resolveClientIp_of_line {clientAddr headers} {l : HeaderValue} {exts : List Hop} {n}
    (h : (headerValues headers "x-forwarded-for").head?
      = some (exts.foldl (fun l h => h.extendLine l) l)) :
    resolveClientIp clientAddr headers (n + 1)
      = (l.toStr.bind fun s =>
          (xffParts s ++ exts.map fun h => h.entry.text)[(xffParts s).length + exts.length
            - (n + 1)]?.bind IpAddr.parse).getD (socketIp clientAddr) := by
  simp only [resolveClientIp, headerGet_eq_head, h, Option.bind_some, toStr_foldl_extendLine]
  rw [if_neg (Nat.succ_ne_zero n)]
  cases hl : l.toStr with
  | none => rfl
  | some s =>
    have hne : (xffParts s ++ exts.map fun h => h.entry.text).isEmpty = false := by
      simp [xffParts_ne_nil]
    simp only [Option.map_some, xffParts_extendText, Option.bind_some]
    rw [if_neg (by rw [hne]; nofun), List.length_append, List.length_map]

/-- Without a line of the client the entry read is the one of the first proxy. -/
lemma resolveClientIp_of_none {clientAddr headers} {first : Hop} {hops : List Hop}
    (h : headerValues headers "x-forwarded-for" = forwarded [] (first :: hops)) :
    resolveClientIp clientAddr headers (hops.length + 1) = first.entry.addr := by
  have hfirst : forwarded [] (first :: hops) = forwarded [utf8 first.entry.text] hops := by
    cases first <;> rfl
  have hlen : (extending hops).length ≤ hops.length := (List.takeWhile_prefix _).length_le
  rw [resolveClientIp_of_line (by rw [h, hfirst, forwarded_of_one]), Entry.toStr_text,
    Option.bind_some, Entry.xffParts_text]
  have hzero : [first.entry.text].length + (extending hops).length - (hops.length + 1) = 0 := by
    simp only [List.length_singleton]
    omega
  rw [hzero, List.getElem?_append_left (by simp)]
  simp [first.entry.valid]

/-- A line which every proxy extends hands over the entry of the first. -/
lemma resolveClientIp_of_all {clientAddr headers} {l : HeaderValue} {s} {first : Hop}
    {hops : List Hop} (h : headerValues headers "x-forwarded-for" = forwarded [l] (first :: hops))
    (hs : l.toStr = some s) (hall : ∀ h ∈ first :: hops, h.isExtend = true) :
    resolveClientIp clientAddr headers (hops.length + 1) = first.entry.addr := by
  have hext : extending (first :: hops) = first :: hops := List.takeWhile_eq_self_iff.mpr hall
  rw [resolveClientIp_of_line (by rw [h, forwarded_of_one, hext]), hs, Option.bind_some]
  have hlast : (xffParts s).length + (first :: hops).length - (hops.length + 1)
      = (xffParts s).length := by
    simp
  rw [hlast, List.getElem?_append_right le_rfl, Nat.sub_self]
  simp [first.entry.valid]

/-- The client sent no line, or one line of text which every proxy extends. -/
def Attested (client : List HeaderValue) (hops : List Hop) : Prop :=
  client = [] ∨ ∃ l, client = [l] ∧ (l.toStr).isSome ∧ ∀ h ∈ hops, h.isExtend = true

/-- The entry of the client's own line `l` in the place that is read, when `extended` of the `hops`
proxies have extended the line. -/
def clientEntry (l : HeaderValue) (extended hops : Nat) : Option IpAddr := do
  let s ← l.toStr
  let part ← (xffParts s)[(xffParts s).length + extended - hops]?
  IpAddr.parse part

/-- How many proxies extend the first line of the client. -/
def extended (client : List HeaderValue) (hops : List Hop) : Nat :=
  match client with
  | [_] => (extending hops).length
  | _ => 0

/-- A line that not every proxy extends hands over an entry of the client. -/
lemma resolveClientIp_of_short {clientAddr headers} {l : HeaderValue} {exts : List Hop} {n}
    (h : (headerValues headers "x-forwarded-for").head?
      = some (exts.foldl (fun l h => h.extendLine l) l)) (hlen : exts.length ≤ n) :
    resolveClientIp clientAddr headers (n + 1)
      = (clientEntry l exts.length (n + 1)).getD (socketIp clientAddr) := by
  rw [resolveClientIp_of_line h, clientEntry]
  cases hl : l.toStr with
  | none => rfl
  | some s =>
    have hpos : 0 < (xffParts s).length := List.length_pos_iff.mpr xffParts_ne_nil
    rw [Option.bind_some, List.getElem?_append_left (by omega)]
    rfl

/-- The address of the client is the one its first proxy saw exactly when the client sent no line of
the name, or one line of text which every proxy extends, or when by accident what the client wrote
in the place that is read, or else the peer of the connection, is that address. -/
theorem resolveClientIp_eq_iff {clientAddr headers client} {first : Hop} {hops : List Hop}
    (h : headerValues headers "x-forwarded-for" = forwarded client (first :: hops)) :
    resolveClientIp clientAddr headers (hops.length + 1) = first.entry.addr
      ↔ Attested client (first :: hops) ∨ ∃ l rest, client = l :: rest
        ∧ (clientEntry l (extended client (first :: hops)) (hops.length + 1)).getD
            (socketIp clientAddr) = first.entry.addr := by
  by_cases hatt : Attested client (first :: hops)
  case pos =>
    refine ⟨fun _ => .inl hatt, fun _ => ?_⟩
    rcases hatt with rfl | ⟨l, rfl, hs, hall⟩
    · exact resolveClientIp_of_none h
    · obtain ⟨s, hs⟩ := Option.isSome_iff_exists.mp hs
      exact resolveClientIp_of_all h hs hall
  case neg =>
    -- a line of the client is read, and no entry of the first proxy is in its place
    obtain ⟨l, rest, rfl⟩ : ∃ l rest, client = l :: rest := by
      cases client with
      | nil => exact absurd (.inl rfl) hatt
      | cons l rest => exact ⟨l, rest, rfl⟩
    have key : resolveClientIp clientAddr headers (hops.length + 1)
        = (clientEntry l (extended (l :: rest) (first :: hops)) (hops.length + 1)).getD
            (socketIp clientAddr) := by
      cases rest with
      | nil =>
        cases hs : l.toStr with
        | none =>
          rw [resolveClientIp_of_line (by rw [h]; exact forwarded_of_one), clientEntry, hs]
          rfl
        | some s =>
          refine resolveClientIp_of_short (by rw [h]; exact forwarded_of_one) ?_
          -- all the proxies would extend the line otherwise
          have hpre : extending (first :: hops) <+: first :: hops := List.takeWhile_prefix _
          refine Nat.le_of_lt_succ (lt_of_le_of_ne hpre.length_le fun e => hatt ?_)
          have hall := List.takeWhile_eq_self_iff.mp (hpre.eq_of_length e)
          exact .inr ⟨l, rfl, by rw [hs]; rfl, hall⟩
      | cons l' rest =>
        have hline : (headerValues headers "x-forwarded-for").head?
            = some (([] : List Hop).foldl (fun l h => h.extendLine l) l) := by
          rw [h]
          exact forwarded_of_two
        exact resolveClientIp_of_short hline (Nat.zero_le _)
    rw [key]
    constructor
    · intro e
      exact .inr ⟨l, rest, rfl, e⟩
    · rintro (hatt' | ⟨l', rest', e, he⟩)
      · exact absurd hatt' hatt
      · cases e
        exact he

/-! ## A forged line -/

/-- The address of the client, as its proxy writes it. -/
def seenEntry : Entry := ⟨"1.2.3.4", .v4 (.new 1 2 3 4), by decide⟩

/-- The header of a request whose client wrote `6.6.6.6` and whose proxy added a line. -/
def forgedHeaders : List HeaderLine :=
  [⟨"host", utf8 "example.com"⟩, ⟨"x-forwarded-for", utf8 "6.6.6.6"⟩,
    ⟨"x-forwarded-for", utf8 "1.2.3.4"⟩]

/-- The client is taken for `6.6.6.6`. -/
theorem forged_line_wins :
    headerValues forgedHeaders "x-forwarded-for"
        = forwarded [utf8 "6.6.6.6"] [.addLine seenEntry]
      ∧ resolveClientIp (some (.inet (.v4 (.new 10 0 0 1)))) forgedHeaders 1
        = .v4 (.new 6 6 6 6)
      ∧ resolveClientIp (some (.inet (.v4 (.new 10 0 0 1)))) forgedHeaders 1
        ≠ seenEntry.addr := by
  refine ⟨by decide, by decide, by decide⟩

/-- A forged entry, and a proxy that adds a line of its own. -/
theorem resolveClientIp_eq_iff_witness :
    resolveClientIp (some (.inet (.v4 (.new 10 0 0 1)))) forgedHeaders 1 = seenEntry.addr
      ↔ Attested [utf8 "6.6.6.6"] [.addLine seenEntry] ∨ ∃ l rest, [utf8 "6.6.6.6"] = l :: rest
        ∧ (clientEntry l (extended [utf8 "6.6.6.6"] [.addLine seenEntry]) 1).getD
            (socketIp (some (.inet (.v4 (.new 10 0 0 1))))) = seenEntry.addr := by
  have h : headerValues forgedHeaders "x-forwarded-for"
      = forwarded [utf8 "6.6.6.6"] [.addLine seenEntry] := by decide
  exact resolveClientIp_eq_iff h

end Waf
