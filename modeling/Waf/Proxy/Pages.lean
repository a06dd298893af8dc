import Waf.Proxy.Ladder
import Waf.Lib.JsString

/-!
# The return target of the challenge pages

The integrity page and the captcha page write the path and query of the request into the script variable
`T`, between double quotes, and the script goes there when the visitor has passed. Both delete control
characters and quotes and nothing else. Backslashes stay, so the literal need not end at the quote of the
template, and a slash or a backslash can follow the first slash, as it is, behind a deleted quote or as an
escape sequence. `return_target_iff` says when none of this happens.

The constant pieces of the templates are parameters, as nothing depends on them.
-/

namespace Waf
open Lib Lib.Js

/-- `char::is_control`. -/
def isControl (c : Char) : Bool := c.toNat < 0x20 || (0x7F ≤ c.toNat && c.toNat < 0xA0)

/-- What both pages leave of the path and query. -/
def originalSafe (original : Str) : Str :=
  original.filter fun c => !isControl c && c != '"' && c != '\''

/-- A page, cut at the quotes around the return target. -/
structure Rendered where
  before : Str
  target : Str
  after : Str

def Rendered.text (p : Rendered) : Str := p.before ++ '"' :: (p.target ++ '"' :: p.after)

/-- The constant pieces of the integrity page, each up to the next value that is written into it. -/
structure BicTemplate where
  toLogo : Str
  toRequestId : Str
  toScript : Str
  rest : Str

def Bic.renderPage (t : BicTemplate) (logo : Str) (token : BicToken) (requestId original : Str) :
    Rendered where
  before := t.toLogo ++ logo ++ t.toRequestId ++ requestId ++ t.toScript
    ++ "  const C=\"" ++ token.challenge ++ "\", E=" ++ dec token.expiresAt
    ++ ", S=\"" ++ token.signature ++ "\", T="
  target := originalSafe original
  after := ";\n" ++ t.rest

namespace Provider

def scriptSrc : Provider → Str
  | turnstile => "https://challenges.cloudflare.com/turnstile/v0/api.js"
  | hcaptcha => "https://js.hcaptcha.com/1/api.js"

def widgetClass : Provider → Str
  | turnstile => "cf-turnstile"
  | hcaptcha => "h-captcha"

end Provider

/-- The constant pieces of the captcha page. -/
structure TurnstileTemplate where
  toScriptSrc : Str
  toLogo : Str
  toWidget : Str
  toSiteKey : Str
  toRequestId : Str
  toScript : Str
  rest : Str

def Turnstile.renderPage (t : TurnstileTemplate) (logo : Str) (provider : Provider)
    (siteKey requestId original : Str) : Rendered where
  before := t.toScriptSrc ++ provider.scriptSrc ++ t.toLogo ++ logo ++ t.toWidget
    ++ provider.widgetClass ++ t.toSiteKey ++ siteKey ++ t.toRequestId ++ requestId ++ t.toScript
    ++ "  const T = "
  target := originalSafe original
  after := ";\n" ++ t.rest

/-- The pages with a return target. The proof of work reloads the page it is on. -/
def Page.rendered (bic : BicTemplate) (captcha : TurnstileTemplate) (logo : Str) :
    Page → Option Rendered
  | .bic token requestId original => some (Bic.renderPage bic logo token requestId original)
  | .captcha provider siteKey requestId original =>
    some (Turnstile.renderPage captcha logo provider siteKey requestId original)
  | .pow .. => none

/-! ## What the script goes to -/

def SLASH : UInt16 := 0x2F
def BACKSLASH : UInt16 := 0x5C

/-- A target that starts with a slash and has neither a slash nor a backslash behind it. -/
structure SameOrigin (v : List UInt16) : Prop where
  first : v.head? = some SLASH
  slash : v.tail.head? ≠ some SLASH
  backslash : v.tail.head? ≠ some BACKSLASH

/-- The units that a URL parser does not drop: it drops tabs and line ends. -/
def notBlank (n : UInt16) : Bool := n != 0x09 && n != 0x0A && n != 0x0D

/-- The literal ends at the quote of the template, and its value is such a target. -/
def Rendered.Denotes (p : Rendered) (good : List UInt16 → Prop) : Prop :=
  ∃ v, readString (p.target ++ '"' :: p.after) = some (v, p.after) ∧ good v

/-- A path and query that starts with a slash. -/
structure PathAndQuery (s : Str) : Prop where
  slash : ∃ rest, s = '/' :: rest
  chars : ∀ c ∈ s, c ≠ '<' ∧ c ≠ '>' ∧ isControl c = false

def unquoted (s : Str) : Str := s.filter fun c => c != '"' && c != '\''

/-- Every backslash starts an escape sequence, and no spelling of a slash or a backslash comes first. -/
structure Harmless (kept : UInt16 → Bool) (s : Str) : Prop where
  complete : Complete s
  slash : ¬ Leads kept SLASH s
  backslash : ¬ Leads kept BACKSLASH s

variable {s original : Str} {p : Rendered} {kept : UInt16 → Bool} {v : List UInt16}

/-- What is kept of the target can stand in a literal. -/
lemma inner_originalSafe : ∀ c ∈ originalSafe original, Inner c := by
  intro c hc
  obtain ⟨-, hkept⟩ := List.mem_filter.mp hc
  refine ⟨?_, ?_, ?_⟩ <;> rintro rfl <;> exact absurd hkept (by decide)

/-- Control characters apart, the pages delete the quotes. -/
lemma originalSafe_eq (h : PathAndQuery original) :
    originalSafe original = '/' :: unquoted original.tail := by
  obtain ⟨rest, rfl⟩ := h.slash
  have hrest : (rest.filter fun c => !isControl c && c != '"' && c != '\'')
      = rest.filter fun c => c != '"' && c != '\'' := by
    refine List.filter_congr fun c hc => ?_
    rw [(h.chars c (.tail _ hc)).2.2]
    rfl
  exact congrArg _ hrest

/-- A slash stands for itself. -/
lemma chars_slash : StringChars ('/' :: s) v ↔ ∃ w, v = SLASH :: w ∧ StringChars s w := by
  constructor
  · intro h
    cases h with
    | @char _ _ w _ hw => exact ⟨w, rfl, hw⟩
  · rintro ⟨w, rfl, hw⟩
    exact .char (by decide) hw

/-- A literal behind a slash. -/
lemma denotes_iff (hslash : kept SLASH = true) (htarget : p.target = '/' :: s)
    (hinner : ∀ c ∈ p.target, Inner c) :
    p.Denotes (fun v => SameOrigin (v.filter kept)) ↔ Harmless kept s := by
  have hfilter : ∀ w : List UInt16, (SLASH :: w).filter kept = SLASH :: w.filter kept := fun w =>
    List.filter_cons_of_pos hslash
  constructor
  · rintro ⟨v, hread, hgood⟩
    have hchars := (readString_iff hinner).mp hread
    rw [htarget] at hchars
    obtain ⟨w, rfl, hw⟩ := chars_slash.mp hchars
    rw [hfilter] at hgood
    refine ⟨complete_iff.mpr ⟨w, hw⟩, ?_, ?_⟩
    · exact fun h => hgood.slash (hw.head_iff.mpr h)
    · exact fun h => hgood.backslash (hw.head_iff.mpr h)
  · intro h
    obtain ⟨w, hw⟩ := complete_iff.mp h.complete
    refine ⟨SLASH :: w, (readString_iff hinner).mpr ?_, ?_⟩
    · rw [htarget]
      exact chars_slash.mpr ⟨w, rfl, hw⟩
    · show SameOrigin ((SLASH :: w).filter kept)
      rw [hfilter]
      refine ⟨rfl, ?_, ?_⟩
      · exact fun hhead => h.slash (hw.head_iff.mp hhead)
      · exact fun hhead => h.backslash (hw.head_iff.mp hhead)

/-- Both pages write the same text between the quotes. -/
lemma original_denotes_iff (h : PathAndQuery original) (htarget : p.target = originalSafe original) :
    (p.Denotes SameOrigin ↔ Harmless (fun _ => true) (unquoted original.tail))
      ∧ (p.Denotes (fun v => SameOrigin (v.filter notBlank))
        ↔ Harmless notBlank (unquoted original.tail)) := by
  have hinner : ∀ c ∈ p.target, Inner c := by
    rw [htarget]
    exact inner_originalSafe
  have heq := htarget.trans (originalSafe_eq h)
  refine ⟨?_, denotes_iff rfl heq hinner⟩
  have hall : ∀ v : List UInt16, (v.filter fun _ => true) = v := fun v =>
    List.filter_eq_self.mpr fun _ _ => rfl
  have hdenotes : p.Denotes (fun v => SameOrigin (v.filter fun _ => true))
      ↔ Harmless (fun _ => true) (unquoted original.tail) := denotes_iff rfl heq hinner
  simp only [hall] at hdenotes
  exact hdenotes

/-- Without backslashes only a slash is harmful, and only right behind the first one. -/
lemma Harmless.plain (hslash : '\\' ∉ s) (hhead : s.head? ≠ some '/') :
    Harmless (fun _ => true) s := by
  have hnone : ∀ n, n < 0x80 → (∀ c, s.head? = some c → c.toNat ≠ n) →
      ¬ Leads (fun _ => true) (UInt16.ofNat n) s := by
    intro n hn hne h
    cases s with
    | nil => cases h
    | cons c s =>
      exact hne c rfl (leads_char hn (fun hc => hslash (hc ▸ .head _)) h)
  refine ⟨.plain hslash, hnone 0x2F (by decide) ?_, hnone 0x5C (by decide) ?_⟩
  · intro c hc hcode
    exact hhead (hc.trans (congrArg some (Char.toNat_inj.mp hcode)))
  · intro c hc hcode
    obtain rfl : c = '\\' := Char.toNat_inj.mp hcode
    exact hslash (List.mem_of_mem_head? hc)

section

variable {bic : BicTemplate} {captcha : TurnstileTemplate} {logo siteKey requestId : Str}
  {token : BicToken} {provider : Provider}

/-- What a challenged visitor is served goes back to the site iff the path and query does no harm. -/
lemma served_target_iff {crates : Crates} {e : Engine} {session : Session} {d : Decision} {now : Nat}
    {bicChal : Vector UInt8 12} {powChal : Vector UInt8 16}
    (h : PathAndQuery (session.pathAndQuery.getD "/"))
    (hserved : (serveChallenge crates e session d now bicChal powChal).rendered bic captcha logo
      = some p) :
    p.Denotes SameOrigin ↔
      Harmless (fun _ => true) (unquoted (session.pathAndQuery.getD "/").tail) := by
  refine (original_denotes_iff h ?_).1
  simp only [serveChallenge] at hserved
  split at hserved
  case isTrue =>
    cases hserved
    rfl
  case isFalse =>
    split at hserved
    case isTrue =>
      cases hserved
      rfl
    case isFalse => cases hserved

/-- On both pages the literal ends at the quote of the template and denotes a target with neither a slash
nor a backslash behind the first slash iff the path and query, its quotes deleted, has complete escape
sequences only and spells neither of the two there. The same holds of what a URL parser makes of it, and
of the page that a challenged visitor is served. -/
theorem return_target_iff (h : PathAndQuery original) :
    ((Bic.renderPage bic logo token requestId original).Denotes SameOrigin
        ↔ Harmless (fun _ => true) (unquoted original.tail))
      ∧ ((Turnstile.renderPage captcha logo provider siteKey requestId original).Denotes SameOrigin
        ↔ Harmless (fun _ => true) (unquoted original.tail))
      ∧ ((Bic.renderPage bic logo token requestId original).Denotes
          (fun v => SameOrigin (v.filter notBlank))
        ↔ Harmless notBlank (unquoted original.tail))
      ∧ ((Turnstile.renderPage captcha logo provider siteKey requestId original).Denotes
          (fun v => SameOrigin (v.filter notBlank))
        ↔ Harmless notBlank (unquoted original.tail))
      ∧ ∀ (crates : Crates) (e : Engine) (session : Session) (d : Decision) (now : Nat)
        (bicChal : Vector UInt8 12) (powChal : Vector UInt8 16) (page : Rendered),
        session.pathAndQuery.getD "/" = original →
        (serveChallenge crates e session d now bicChal powChal).rendered bic captcha logo = some page →
        (page.Denotes SameOrigin ↔ Harmless (fun _ => true) (unquoted original.tail)) := by
  have hbic := original_denotes_iff (p := Bic.renderPage bic logo token requestId original) h rfl
  have hcaptcha := original_denotes_iff
    (p := Turnstile.renderPage captcha logo provider siteKey requestId original) h rfl
  refine ⟨hbic.1, hcaptcha.1, hbic.2, hcaptcha.2, ?_⟩
  rintro crates e session d now bicChal powChal page rfl hserved
  exact served_target_iff h hserved

end

def sampleBic (original : Str) : Rendered :=
  Bic.renderPage ⟨[], [], [], []⟩ [] ⟨"c", 1700000060, "s"⟩ "r" original

def sampleCaptcha (original : Str) : Rendered :=
  Turnstile.renderPage ⟨[], [], [], [], [], [], []⟩ [] .turnstile "k" "r" original

/-- A visitor who is challenged on a page of the news. -/
def newsSession : Session where
  clientAddr := some (.inet (.v4 (.new 1 2 3 4)))
  method := "GET"
  uri := "/news?page=2"
  path := "/news"
  query := some "page=2"
  pathAndQuery := some "/news?page=2"
  version := "HTTP/1.1"
  headers := []

/-- A page with a query. -/
theorem news_target_iff :
    ((sampleBic "/news?page=2").Denotes SameOrigin
        ↔ Harmless (fun _ => true) (unquoted "news?page=2"))
      ∧ ((sampleCaptcha "/news?page=2").Denotes SameOrigin
        ↔ Harmless (fun _ => true) (unquoted "news?page=2"))
      ∧ ((sampleBic "/news?page=2").Denotes (fun v => SameOrigin (v.filter notBlank))
        ↔ Harmless notBlank (unquoted "news?page=2"))
      ∧ ((sampleCaptcha "/news?page=2").Denotes (fun v => SameOrigin (v.filter notBlank))
        ↔ Harmless notBlank (unquoted "news?page=2"))
      ∧ ∃ page, (serveChallenge idleCrates Engine.sampleEngine newsSession (.challenge "t" 50 [])
          1700000000 (.replicate 12 0) (.replicate 16 0)).rendered ⟨[], [], [], []⟩
            ⟨[], [], [], [], [], [], []⟩ [] = some page
        ∧ (page.Denotes SameOrigin ↔ Harmless (fun _ => true) (unquoted "news?page=2")) := by
  obtain ⟨hbic, hcaptcha, hbic', hcaptcha', hserved⟩ := @return_target_iff "/news?page=2" _ _ _ _ _ _ _
    ⟨⟨_, rfl⟩, by simp [isControl]⟩
  exact ⟨hbic, hcaptcha, hbic', hcaptcha', _, rfl, hserved idleCrates Engine.sampleEngine newsSession
    (.challenge "t" 50 []) 1700000000 (.replicate 12 0) (.replicate 16 0) _ rfl rfl⟩

/-- A target that is not harmless leads elsewhere. -/
lemma not_denotes (h : PathAndQuery original)
    (hharm : ¬ Harmless (fun _ => true) (unquoted original.tail)) :
    ¬ (sampleBic original).Denotes SameOrigin ∧ ¬ (sampleCaptcha original).Denotes SameOrigin :=
  ⟨fun hbic => hharm ((original_denotes_iff h rfl).1.mp hbic),
    fun hcaptcha => hharm ((original_denotes_iff h rfl).1.mp hcaptcha)⟩

/-- Two slashes can be asked for. -/
lemma two_slashes : PathAndQuery "//evil.example/" := ⟨⟨_, rfl⟩, by simp [isControl]⟩

lemma quote_between : PathAndQuery "/\"/evil.example/" := ⟨⟨_, rfl⟩, by simp [isControl]⟩

lemma open_backslash : PathAndQuery "/\\" := ⟨⟨_, rfl⟩, by simp [isControl]⟩

/-- Two slashes, two slashes once the quote between them is deleted, and a backslash in front of the
closing quote. -/
theorem foreign_targets :
    (PathAndQuery "//evil.example/" ∧ ¬ (sampleBic "//evil.example/").Denotes SameOrigin
        ∧ ¬ (sampleCaptcha "//evil.example/").Denotes SameOrigin)
      ∧ (PathAndQuery "/\"/evil.example/" ∧ ¬ (sampleBic "/\"/evil.example/").Denotes SameOrigin
        ∧ ¬ (sampleCaptcha "/\"/evil.example/").Denotes SameOrigin)
      ∧ PathAndQuery "/\\" ∧ ¬ (sampleBic "/\\").Denotes SameOrigin
        ∧ ¬ (sampleCaptcha "/\\").Denotes SameOrigin := by
  refine ⟨⟨two_slashes, not_denotes two_slashes fun h => h.slash ?_⟩,
    ⟨quote_between, not_denotes quote_between fun h => h.slash ?_⟩,
    open_backslash, not_denotes open_backslash fun h => ?_⟩
  · exact .char (by decide) rfl
  · exact .char (by decide) rfl
  · cases h.complete with
    | char hc => exact absurd rfl hc
    | escape he => cases he

end Waf
