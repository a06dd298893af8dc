import Waf.Signal.Gate
import Waf.Lib.Percent

/-!
# Encoded trap paths

`isTrap` compares the path as it was sent, while the rules scan what one percent-decoding leaves of it.
A path whose characters behind the slash are all encoded is the same path to the rules. It starts with
no entry of the list but `"/"` (`respelled_not_trap`). So the list gives the same answer for all
spellings of a path only if it catches every path or none (`spellings_agree_iff`).

Which characters a path may consist of is up to the `http` crate (`PathChars`).
-/

namespace Waf
open Lib

namespace Honeypot

/-- What the crate says about the characters it accepts in a path. -/
structure PathChars (pathChar : Char → Bool) : Prop where
  slash : pathChar '/' = true
  percent : pathChar '%' = true
  digit : ∀ c, isHexLower c = true → pathChar c = true
  query : pathChar '?' = false

/-- A path that starts with a slash. -/
structure OriginForm (pathChar : Char → Bool) (s : Str) : Prop where
  slash : ∃ rest, s = '/' :: rest
  chars : ∀ c ∈ s, pathChar c = true

/-- The path of a request. An `OPTIONS` request may be about the server as a whole. -/
def RequestPath (pathChar : Char → Bool) (s : Str) : Prop := OriginForm pathChar s ∨ s = ['*']

/-- The path with everything behind its first character encoded. -/
def respelled : Str → Str
  | [] => []
  | c :: s => c :: percentEncode (utf8 s)

variable {pathChar : Char → Bool} {h : Honeypots} {e p q : Str}

/-! ## What the list catches -/

/-- What a path begins with is in origin form. -/
lemma OriginForm.of_starts (hp : OriginForm pathChar p) (hstarts : e <+: p) (hne : e ≠ []) :
    OriginForm pathChar e := by
  obtain ⟨rest, rfl⟩ := hp.slash
  cases e with
  | nil => exact absurd rfl hne
  | cons c e =>
    obtain ⟨rfl, -⟩ := List.cons_prefix_cons.mp hstarts
    exact ⟨⟨e, rfl⟩, fun d hd => hp.chars d (hstarts.subset hd)⟩

lemma isTrap_of_mem (he : e ∈ h.paths) : h.isTrap e = true := by
  refine List.any_eq_true.mpr ⟨e, he, ?_⟩
  split
  case isTrue => exact List.isPrefixOf_iff_prefix.mpr (List.prefix_refl e)
  case isFalse => exact Bool.or_eq_true_iff.mpr (.inl (beq_self_eq_true e))

/-- A path is caught by a directory it is in or as an entry. The query is not part of it. -/
lemma catches_of_isTrap (hquery : '?' ∉ p) (htrap : h.isTrap p = true) :
    ∃ e ∈ h.paths, (endsWith e "/" = true ∧ e <+: p) ∨ p = e := by
  obtain ⟨e, he, hcatch⟩ := List.any_eq_true.mp htrap
  refine ⟨e, he, ?_⟩
  split at hcatch
  case isTrue hdir => exact .inl ⟨hdir, List.isPrefixOf_iff_prefix.mp hcatch⟩
  case isFalse =>
    obtain heq | hstarts := Bool.or_eq_true_iff.mp hcatch
    · exact .inr (eq_of_beq heq)
    · have hmem : '?' ∈ e ++ ['?'] := List.mem_append_right e (.head _)
      exact absurd ((List.isPrefixOf_iff_prefix.mp hstarts).subset hmem) hquery

lemma ne_nil_of_directory (hdir : endsWith e "/" = true) : e ≠ [] := by
  rintro rfl
  cases hdir

/-- A path has no query. -/
lemma no_query (hchars : PathChars pathChar) (hp : OriginForm pathChar p) : '?' ∉ p := by
  intro hmem
  have haccepted := hp.chars '?' hmem
  rw [hchars.query] at haccepted
  cases haccepted

/-- A list without an entry of that form catches no path of that form. -/
lemma originForm_of_isTrap (hchars : PathChars pathChar) (hp : OriginForm pathChar p)
    (htrap : h.isTrap p = true) : ∃ e ∈ h.paths, OriginForm pathChar e := by
  obtain ⟨e, he, ⟨hdir, hstarts⟩ | rfl⟩ := catches_of_isTrap (no_query hchars hp) htrap
  · exact ⟨e, he, hp.of_starts hstarts (ne_nil_of_directory hdir)⟩
  · exact ⟨p, he, hp⟩

/-- The root directory catches everything. -/
lemma isTrap_of_root (hroot : ['/'] ∈ h.paths) (hp : OriginForm pathChar p) : h.isTrap p = true := by
  obtain ⟨rest, rfl⟩ := hp.slash
  refine List.any_eq_true.mpr ⟨['/'], hroot, ?_⟩
  exact List.isPrefixOf_iff_prefix.mpr ⟨rest, rfl⟩

/-! ## Encoded paths -/

/-- A respelled path decodes to what the path decodes to. -/
lemma decode_respelled (hplain : '%' ∉ e) : percentDecode (respelled e) = percentDecode e := by
  cases e with
  | nil => rfl
  | cons c s =>
    have hc : c ≠ '%' := fun heq => hplain (heq ▸ .head _)
    have hs : percentDecode (percentEncode (utf8 s)) = percentDecode s := by
      rw [percentDecode_encode', percentDecode_plain fun hmem => hplain (.tail _ hmem)]
    rw [respelled, percentDecode_of_ne hc, percentDecode_of_ne hc, hs]

/-- It is in origin form. -/
lemma respelled_originForm (hchars : PathChars pathChar) (he : OriginForm pathChar e) :
    OriginForm pathChar (respelled e) := by
  obtain ⟨rest, rfl⟩ := he.slash
  refine ⟨⟨_, rfl⟩, fun c hc => ?_⟩
  cases hc with
  | head => exact hchars.slash
  | tail _ hc =>
    obtain rfl | hdigit := mem_percentEncode hc
    · exact hchars.percent
    · exact hchars.digit c hdigit

/-- Behind the slash of an encoded path stands a percent sign. -/
lemma respelled_eq (he : OriginForm pathChar e) (hne : e ≠ ['/']) :
    ∃ t, respelled e = '/' :: '%' :: t := by
  obtain ⟨rest, rfl⟩ := he.slash
  cases rest with
  | nil => exact absurd rfl hne
  | cons c rest =>
    show ∃ t, '/' :: percentEncode (utf8 (c :: rest)) = '/' :: '%' :: t
    cases hbytes : utf8 (c :: rest) with
    | nil =>
      have hlead : String.utf8EncodeChar c = [] := (List.append_eq_nil_iff.mp hbytes).1
      exact absurd hlead String.utf8EncodeChar_ne_nil
    | cons b bs => exact ⟨_, rfl⟩

/-- No entry but the root directory catches an encoded path. -/
lemma respelled_not_trap (hchars : PathChars pathChar) (hplain : ∀ e ∈ h.paths, '%' ∉ e)
    (hroot : ['/'] ∉ h.paths) (he : OriginForm pathChar e) (hne : e ≠ ['/']) :
    h.isTrap (respelled e) = false := by
  obtain ⟨t, ht⟩ := respelled_eq he hne
  have hform := respelled_originForm hchars he
  refine Bool.eq_false_iff.mpr fun htrap => ?_
  obtain ⟨d, hd, ⟨hdir, hstarts⟩ | heq⟩ := catches_of_isTrap (no_query hchars hform) htrap
  · rw [ht] at hstarts
    cases d with
    | nil => exact ne_nil_of_directory hdir rfl
    | cons c d =>
      obtain ⟨rfl, hbehind⟩ := List.cons_prefix_cons.mp hstarts
      cases d with
      | nil => exact hroot hd
      | cons c d =>
        obtain ⟨rfl, -⟩ := List.cons_prefix_cons.mp hbehind
        exact hplain _ hd (.tail _ (.head _))
  · refine hplain d hd ?_
    rw [← heq, ht]
    exact .tail _ (.head _)

/-! ## Spellings of one path -/

/-- A path decodes to one that begins with a slash. -/
lemma head_decode (hp : OriginForm pathChar p) : (percentDecode p).head? = some 47 := by
  obtain ⟨rest, rfl⟩ := hp.slash
  rw [percentDecode_of_ne (by decide)]
  rfl

/-- A path is not a spelling of the asterisk. -/
lemma originForm_of_spelling (hp : OriginForm pathChar p) (hq : RequestPath pathChar q)
    (hsame : percentDecode p = percentDecode q) : OriginForm pathChar q := by
  cases hq with
  | inl hq => exact hq
  | inr hstar =>
    subst hstar
    have hhead := head_decode hp
    rw [hsame] at hhead
    exact absurd hhead (by decide)

/-- Entries without percent signs give the same answer for all spellings of a path iff one of them is
the root directory or none of them is a path. -/
theorem spellings_agree_iff (hchars : PathChars pathChar) (hplain : ∀ e ∈ h.paths, '%' ∉ e) :
    (∀ p q, RequestPath pathChar p → RequestPath pathChar q → percentDecode p = percentDecode q →
        h.isTrap p = h.isTrap q)
      ↔ ['/'] ∈ h.paths ∨ ∀ e ∈ h.paths, ¬ OriginForm pathChar e := by
  constructor
  case mp =>
    intro hagree
    by_cases hroot : ['/'] ∈ h.paths
    case pos => exact .inl hroot
    case neg =>
      refine .inr fun e he hform => ?_
      have hne : e ≠ ['/'] := fun heq => hroot (heq ▸ he)
      have hcaught : h.isTrap e = true := isTrap_of_mem he
      have hmissed : h.isTrap (respelled e) = false :=
        respelled_not_trap hchars hplain hroot hform hne
      have hsame := hagree e (respelled e) (.inl hform) (.inl (respelled_originForm hchars hform))
        (decode_respelled (hplain e he)).symm
      rw [hcaught, hmissed] at hsame
      cases hsame
  case mpr =>
    intro hlist p q hp hq hsame
    -- All paths with a slash get one answer, and the asterisk has one spelling.
    have hanswer : ∀ {p}, OriginForm pathChar p → h.isTrap p = decide (['/'] ∈ h.paths) := by
      intro p hp
      cases hlist with
      | inl hroot => rw [isTrap_of_root hroot hp, decide_eq_true hroot]
      | inr hnone =>
        have hroot : ['/'] ∉ h.paths := by
          intro hmem
          refine hnone ['/'] hmem ⟨⟨[], rfl⟩, fun c hc => ?_⟩
          obtain rfl := List.mem_singleton.mp hc
          exact hchars.slash
        rw [decide_eq_false hroot]
        refine Bool.eq_false_iff.mpr fun htrap => ?_
        obtain ⟨e, he, hform⟩ := originForm_of_isTrap hchars hp htrap
        exact hnone e he hform
    cases hp with
    | inl hp => rw [hanswer hp, hanswer (originForm_of_spelling hp hq hsame)]
    | inr hstar =>
      cases hq with
      | inl hq => rw [hanswer hq, hanswer (originForm_of_spelling hq (.inr hstar) hsame.symm)]
      | inr hstar' => rw [hstar, hstar']

/-- The characters that version 1.4 of the crate accepts. -/
def acceptedInPath (c : Char) : Bool :=
  let n := c.toNat
  n == 0x21 || n == 0x22 || (0x24 ≤ n && n ≤ 0x3B) || n == 0x3D || (0x40 ≤ n && n ≤ 0x5F)
    || (0x61 ≤ n && n ≤ 0x7E) || 0x7F ≤ n

/-- The sample characters meet what is assumed of them. -/
lemma acceptedInPath_chars : PathChars acceptedInPath where
  slash := rfl
  percent := rfl
  digit c hc := by
    simp only [isHexLower, Char.isDigit, Bool.or_eq_true, Bool.and_eq_true, decide_eq_true_eq] at hc
    simp only [acceptedInPath, Bool.or_eq_true, Bool.and_eq_true, decide_eq_true_eq, beq_iff_eq]
    have hcode : c.val.toNat = c.toNat := rfl
    simp only [UInt32.le_iff_toNat_le, hcode] at hc
    change 48 ≤ c.toNat ∧ c.toNat ≤ 57 ∨ _ at hc
    omega
  query := rfl

/-- A single trap. -/
theorem env_spellings_agree_iff :
    (∀ p q, RequestPath acceptedInPath p → RequestPath acceptedInPath q →
        percentDecode p = percentDecode q →
        ({ paths := ["/.env"] } : Honeypots).isTrap p = ({ paths := ["/.env"] } : Honeypots).isTrap q)
      ↔ ['/'] ∈ ({ paths := ["/.env"] } : Honeypots).paths
        ∨ ∀ e ∈ ({ paths := ["/.env"] } : Honeypots).paths, ¬ OriginForm acceptedInPath e :=
  spellings_agree_iff acceptedInPath_chars (by decide)

/-- Encoding the dot of `/.env` avoids the trap. -/
theorem encoded_dot_not_trap :
    (∀ e ∈ ({ paths := ["/.env"] } : Honeypots).paths, '%' ∉ e)
      ∧ (RequestPath acceptedInPath "/.env" ∧ RequestPath acceptedInPath "/%2eenv")
      ∧ percentDecode "/.env" = percentDecode "/%2eenv"
      ∧ ({ paths := ["/.env"] } : Honeypots).isTrap "/.env" = true
      ∧ ({ paths := ["/.env"] } : Honeypots).isTrap "/%2eenv" = false := by
  refine ⟨by decide, ⟨.inl ⟨⟨_, rfl⟩, ?_⟩, .inl ⟨⟨_, rfl⟩, ?_⟩⟩, by decide, ?_, ?_⟩
  · exact List.all_eq_true.mp rfl
  · exact List.all_eq_true.mp rfl
  · decide
  · decide

end Honeypot

end Waf
