import Mathlib
import Waf.Lib.Regex.Syntax

/-!
# Letter case

An expression whose sets are closed under ASCII letter case matches a text iff it matches its lower
case (`matches_toAsciiLower`). One that needs a letter of a set of lower-case letters matches no text in
upper case (`not_matches_toAsciiUpper`), and what it matches it also matches in lower case. Folding adds
no letters to a set of letters of words that are none (`CharSet.word_of_mem`).
-/

namespace Lib.Regex

/-- Does the item hold with each ASCII letter its other case? -/
def Item.caseless (fold : Bool) : Item → Bool
  | range lo hi =>
    fold || hi.toNat < 'A'.toNat || 'Z'.toNat < lo.toNat && hi.toNat < 'a'.toNat
      || 'z'.toNat < lo.toNat
  | digit | word | space => true

def CharSet.caseless (s : CharSet) : Bool := s.items.all (Item.caseless s.fold)

/-- An item of lower-case letters only. -/
def Item.lower : Item → Bool
  | range lo hi => 'a'.toNat ≤ lo.toNat && hi.toNat ≤ 'z'.toNat
  | digit | word | space => false

/-- A set of lower-case letters only. -/
def CharSet.lower (s : CharSet) : Bool := !s.neg && !s.fold && s.items.all Item.lower

/-- What the sets see of a capital letter and its lower case. -/
structure Capital (c : Char) : Prop where
  ascii : c.toNat < 128
  ascii_lower : c.toLower.toNat < 128
  bounds : 'A'.toNat ≤ c.toNat ∧ c.toNat ≤ 'Z'.toNat
  lower : c.toLower.toNat = c.toNat + 32
  folds : folds c = [c.toLower, c]
  folds_lower : Regex.folds c.toLower = [c.toLower, c]
  digit : c.toLower.isDigit = c.isDigit
  word : (c.toLower.isAlphanum || c.toLower == '_') = (c.isAlphanum || c == '_')
  space : isSpace c.toLower = isSpace c

/-- The sets see the same of a capital letter and of its lower case. -/
lemma capital {c : Char} (h : c.isUpper = true) : Capital c := by
  have key : ∀ n : Fin 128, (Char.ofNat n).isUpper = true →
      (Char.ofNat n).toLower.toNat < 128 ∧
      ('A'.toNat ≤ (Char.ofNat n).toNat ∧ (Char.ofNat n).toNat ≤ 'Z'.toNat) ∧
      (Char.ofNat n).toLower.toNat = (Char.ofNat n).toNat + 32 ∧
      folds (Char.ofNat n) = [(Char.ofNat n).toLower, Char.ofNat n] ∧
      folds (Char.ofNat n).toLower = [(Char.ofNat n).toLower, Char.ofNat n] ∧
      (Char.ofNat n).toLower.isDigit = (Char.ofNat n).isDigit ∧
      ((Char.ofNat n).toLower.isAlphanum || (Char.ofNat n).toLower == '_')
        = ((Char.ofNat n).isAlphanum || Char.ofNat n == '_') ∧
      isSpace (Char.ofNat n).toLower = isSpace (Char.ofNat n) := by
    decide
  have hlt : c.toNat < 128 := by
    have hz : c.toNat ≤ 'Z'.toNat := (of_decide_eq_true h).2
    exact lt_of_le_of_lt hz (by decide)
  obtain ⟨n, rfl⟩ := exists_ascii hlt
  obtain ⟨h₁, h₂, h₃, h₄, h₅, h₆, h₇, h₈⟩ := key n h
  exact ⟨hlt, h₁, h₂, h₃, h₄, h₅, h₆, h₇, h₈⟩

variable {u : Tables} {s : CharSet} {r : Regex CharSet} {c : Char} {text : Str}

/-- Lowering keeps word characters and the others apart. -/
lemma word_toLower : u.word c.toLower = u.word c := by
  by_cases h : c.isUpper = true
  case pos =>
    have hc := capital h
    rw [u.word_ascii _ hc.ascii, u.word_ascii _ hc.ascii_lower, hc.word]
  case neg => rw [Char.toLower_eq_of_not_isUpper h]

/-- An item without regard to case has a character iff it has the small letter. -/
lemma Item.mem_toLower {fold : Bool} {i : Item} (hi : i.caseless fold = true) :
    Item.mem u fold c.toLower i = Item.mem u fold c i := by
  by_cases h : c.isUpper = true
  case pos =>
    have hc := capital h
    cases i with
    | range lo hi' =>
      rw [mem, mem, hc.folds, hc.folds_lower]
      cases fold with
      | true =>
        simp only [List.any_cons, List.any_nil, Bool.true_and, Bool.or_false]
        ac_rfl
      | false =>
        have hb : 65 ≤ c.toNat ∧ c.toNat ≤ 90 := hc.bounds
        have hl := hc.lower
        simp only [caseless, Bool.false_or, Bool.or_eq_true, Bool.and_eq_true,
          decide_eq_true_eq] at hi
        change (hi'.toNat < 65 ∨ (90 < lo.toNat ∧ hi'.toNat < 97)) ∨ 122 < lo.toNat at hi
        rw [Bool.eq_iff_iff]
        simp only [Bool.false_and, Bool.or_false, Bool.and_eq_true, decide_eq_true_eq]
        omega
    | digit =>
      show u.digit _ = u.digit _
      rw [u.digit_ascii _ hc.ascii, u.digit_ascii _ hc.ascii_lower, hc.digit]
    | word => exact word_toLower
    | space => exact hc.space
  case neg => rw [Char.toLower_eq_of_not_isUpper h]

lemma CharSet.mem_toLower (hs : s.caseless = true) : s.mem u c.toLower = s.mem u c := by
  rw [mem, mem]
  congr 1
  rw [Bool.eq_iff_iff, List.any_eq_true, List.any_eq_true]
  refine exists_congr fun i => and_congr_right fun hi => ?_
  rw [Item.mem_toLower (List.all_eq_true.mp hs i hi)]

/-- An expression of sets without case does not see the case of a text. -/
theorem matches_toAsciiLower (hr : ∀ s ∈ r.sets, s.caseless = true) :
    Matches u.reader r (toAsciiLower text) ↔ Matches u.reader r text := by
  rw [toAsciiLower, matches_map]
  refine matches_congr (fun s hs c => CharSet.mem_toLower (hr s hs)) ?_
  funext c
  exact word_toLower

/-- A set of lower-case letters has lower-case letters. -/
lemma CharSet.isLower_of_mem (hs : s.lower = true) (hc : s.mem u c = true) : c.isLower = true := by
  obtain ⟨h, hi⟩ := Bool.and_eq_true_iff.mp hs
  obtain ⟨hn, hf⟩ := Bool.and_eq_true_iff.mp h
  rw [mem, (Bool.not_eq_true' _).mp hn, (Bool.not_eq_true' _).mp hf, Bool.bne_false,
    List.any_eq_true] at hc
  obtain ⟨i, hmem, hc⟩ := hc
  have hi := List.all_eq_true.mp hi i hmem
  cases i with
  | range lo hi' =>
    simp only [Item.lower, Bool.and_eq_true, decide_eq_true_eq] at hi
    simp only [Item.mem, Bool.false_and, Bool.or_false, Bool.and_eq_true,
      decide_eq_true_eq] at hc
    exact Bool.and_eq_true_iff.mpr
      ⟨decide_eq_true (hi.1.trans hc.1), decide_eq_true (hc.2.trans hi.2)⟩
  | digit | word | space => cases hi

/-- What is matched is also matched in lower case, where every set is one without case or one of
lower-case letters. -/
theorem Matches.toAsciiLower (h : Matches u.reader r text)
    (hr : ∀ s ∈ r.sets, s.caseless = true ∨ s.lower = true) :
    Matches u.reader r (toAsciiLower text) := by
  rw [Lib.toAsciiLower, matches_map]
  refine h.mono (fun s hs c hc => ?_) ?_
  · show s.mem u c.toLower = true
    obtain hs | hs := hr s hs
    · rwa [CharSet.mem_toLower hs]
    · have hl := CharSet.isLower_of_mem hs hc
      rwa [Char.toLower_eq_of_not_isUpper (Char.not_isUpper_of_isLower hl)]
  · funext c
    exact word_toLower.symm

/-- An expression that needs a lower-case letter matches no text in upper case. -/
theorem not_matches_toAsciiUpper (hr : r.needs CharSet.lower = true) :
    ¬ Matches u.reader r (toAsciiUpper text) := by
  rintro ⟨b, w, a, ht, h⟩
  obtain ⟨s, hs, c, hc, hm⟩ := h.exists_needed hr
  have hc : c ∈ toAsciiUpper text := by
    rw [← ht]
    exact List.mem_append_right _ (List.mem_append_left _ hc)
  obtain ⟨c, -, rfl⟩ := List.mem_map.mp hc
  have hl := CharSet.isLower_of_mem hs hm
  rw [Char.isLower_toUpper_eq_false] at hl
  cases hl

/-! ## Letters of words -/

/-- An item of ASCII letters of words only. -/
def Item.wordy : Item → Bool
  | range lo hi =>
    '0'.toNat ≤ lo.toNat && hi.toNat ≤ '9'.toNat || 'A'.toNat ≤ lo.toNat && hi.toNat ≤ 'Z'.toNat
      || 'a'.toNat ≤ lo.toNat && hi.toNat ≤ 'z'.toNat || lo == '_' && hi == '_'
  | digit | word | space => false

/-- A set of letters of words only. -/
def CharSet.wordy (s : CharSet) : Bool := !s.neg && s.items.all Item.wordy

/-- Raising keeps them apart too. -/
lemma word_toUpper : u.word c.toUpper = u.word c := by
  rw [← word_toLower, Char.toLower_toUpper_eq_toLower, word_toLower]

/-- A range of word characters has no others. -/
lemma word_of_range {lo hi : Char} (hw : (Item.range lo hi).wordy = true)
    (hlo : lo.toNat ≤ c.toNat) (hhi : c.toNat ≤ hi.toNat) : u.word c = true := by
  have key : ∀ n : Fin 128, (48 ≤ n.1 ∧ n.1 ≤ 57 ∨ 65 ≤ n.1 ∧ n.1 ≤ 90)
      ∨ 97 ≤ n.1 ∧ n.1 ≤ 122 ∨ n.1 = 95 →
      ((Char.ofNat n).isAlphanum || Char.ofNat n == '_') = true := by decide
  simp only [Item.wordy, Bool.or_eq_true, Bool.and_eq_true, decide_eq_true_eq, beq_iff_eq] at hw
  have hc : (48 ≤ c.toNat ∧ c.toNat ≤ 57 ∨ 65 ≤ c.toNat ∧ c.toNat ≤ 90)
      ∨ 97 ≤ c.toNat ∧ c.toNat ≤ 122 ∨ c.toNat = 95 := by
    obtain ((h | h) | h) | ⟨rfl, rfl⟩ := hw
    · exact .inl (.inl ⟨h.1.trans hlo, hhi.trans h.2⟩)
    · exact .inl (.inr ⟨h.1.trans hlo, hhi.trans h.2⟩)
    · exact .inr (.inl ⟨h.1.trans hlo, hhi.trans h.2⟩)
    · exact .inr (.inr (Nat.le_antisymm hhi hlo))
  have hlt : c.toNat < 128 := by omega
  have h := key ⟨c.toNat, hlt⟩ hc
  rw [Char.ofNat_toNat] at h
  rw [u.word_ascii c hlt, h]

/-- A set of letters of words has no others, whatever folds to its letters. -/
lemma CharSet.word_of_mem (hs : s.wordy = true) (hc : s.mem u c = true) : u.word c = true := by
  obtain ⟨hn, hi⟩ := Bool.and_eq_true_iff.mp hs
  rw [mem, (Bool.not_eq_true' _).mp hn, Bool.bne_false, List.any_eq_true] at hc
  obtain ⟨i, hmem, hc⟩ := hc
  have hi := List.all_eq_true.mp hi i hmem
  cases i with
  | range lo hi' =>
    simp only [Item.mem, Bool.or_eq_true, Bool.and_eq_true, decide_eq_true_eq, List.any_eq_true]
      at hc
    obtain hc | ⟨-, d, hd, hc⟩ := hc
    · exact word_of_range hi hc.1 hc.2
    · rw [folds] at hd
      split_ifs at hd with h₁ h₂
      · rw [h₁, u.word_longS]
      · rw [h₂, u.word_kelvin]
      · have hw := word_of_range (u := u) hi hc.1 hc.2
        cases hd with
        | head => rwa [word_toLower] at hw
        | tail _ hd =>
          obtain rfl := List.mem_singleton.mp hd
          rwa [word_toUpper] at hw
  | digit | word | space => cases hi

end Lib.Regex
