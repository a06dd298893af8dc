import Waf.Lib.Regex

/-!
# Matches in joined texts

A text may be made of lines, joined by a separator that belongs to no word. A floating expression
matches it in one of the lines, whichever way they are ordered, or it reads a separator
(`matches_join_iff`). An expression that ends with the text, and cannot read all of a line, matches
the last line (`matches_join_last`).
-/

namespace Lib.Regex

variable {σ α β : Type} {R : Reader σ α} {r : Regex σ}

/-- A match reads the separator. -/
def Crosses (R : Reader σ α) (r : Regex σ) (sep : α) (text : List α) : Prop :=
  ∃ b w a, b.reverse ++ (w ++ a) = text ∧ Reads R r b w a ∧ sep ∈ w

/-- A match does not read the separator. -/
def Keeps (R : Reader σ α) (r : Regex σ) (sep : α) (text : List α) : Prop :=
  ∃ b w a, b.reverse ++ (w ++ a) = text ∧ Reads R r b w a ∧ sep ∉ w

variable {sep : α} {u v text : List α} {lines : List (List α)}

/-- A match keeps to one side of the separators, or crosses one. -/
lemma matches_iff_keeps_or_crosses :
    Matches R r text ↔ Keeps R r sep text ∨ Crosses R r sep text := by
  constructor
  · rintro ⟨b, w, a, ht, h⟩
    by_cases hw : sep ∈ w
    case pos => exact .inr ⟨b, w, a, ht, h, hw⟩
    case neg => exact .inl ⟨b, w, a, ht, h, hw⟩
  · rintro (⟨b, w, a, ht, h, -⟩ | ⟨b, w, a, ht, h, -⟩)
    · exact ⟨b, w, a, ht, h⟩
    · exact ⟨b, w, a, ht, h⟩

/-- A letter of no word looks like the end of the text. -/
lemma wordAt_sep (hsep : R.word sep = false) : R.wordAt (u ++ sep :: v) = R.wordAt u := by
  cases u with
  | nil => exact hsep
  | cons c u => rfl

/-- A match that does not read the separator lies on one side of it. -/
lemma Keeps.append (h : Keeps R r sep (u ++ sep :: v)) (hr : r.floats = true)
    (hsep : R.word sep = false) :
    Keeps R r sep u ∨ Keeps R r sep v := by
  obtain ⟨b, w, a, e, h, hw⟩ := h
  have left : ∀ d, b.reverse ++ (w ++ d) = u → a = d ++ sep :: v → Keeps R r sep u := by
    rintro d rfl rfl
    exact ⟨b, w, d, rfl, h.moved hr rfl (wordAt_sep hsep), hw⟩
  obtain ⟨c, rfl, hc⟩ | ⟨c, hb, hc⟩ := List.append_eq_append_iff.mp e
  · -- the match starts before the separator
    obtain ⟨d, rfl, rfl⟩ | ⟨d, rfl, hd⟩ := List.append_eq_append_iff.mp hc
    · exact .inl (left d rfl rfl)
    · cases d with
      | nil =>
        refine .inl (left [] ?_ hd.symm)
        rw [List.append_nil, List.append_nil]
      | cons x d =>
        obtain ⟨rfl, -⟩ := List.cons_eq_cons.mp hd
        exact absurd (List.mem_append_right _ (.head _)) hw
  · cases c with
    | nil =>
      cases w with
      | nil => exact absurd rfl (h.ne_nil_of_floats hr)
      | cons x w =>
        obtain ⟨rfl, -⟩ := List.cons_eq_cons.mp hc
        exact absurd (.head _) hw
    | cons x c =>
      obtain ⟨rfl, rfl⟩ := List.cons_eq_cons.mp hc
      have hb' : b = c.reverse ++ sep :: u.reverse := by
        rw [← List.reverse_reverse b, hb, List.reverse_append, List.reverse_cons, List.append_assoc]
        rfl
      refine .inr ⟨c.reverse, w, a, ?_, h.moved hr ?_ rfl, hw⟩
      · rw [List.reverse_reverse]
        rfl
      · rw [hb']
        exact wordAt_sep hsep

/-- A match on one side of the separator is a match. -/
lemma matches_append (h : Matches R r u ∨ Matches R r v) (hr : r.floats = true)
    (hsep : R.word sep = false) : Matches R r (u ++ sep :: v) := by
  obtain ⟨b, w, a, rfl, h⟩ | ⟨b, w, a, rfl, h⟩ := h
  · refine ⟨b, w, a ++ sep :: v, ?_, h.moved hr rfl (wordAt_sep hsep).symm⟩
    simp only [List.append_assoc]
  · refine ⟨b ++ sep :: u.reverse, w, a, ?_, h.moved hr (wordAt_sep hsep).symm rfl⟩
    simp only [List.reverse_append, List.reverse_cons, List.reverse_reverse, List.append_assoc]
    rfl

lemma join_cons {l l' : List α} :
    [sep].intercalate (l :: l' :: lines) = l ++ sep :: [sep].intercalate (l' :: lines) := by
  rw [List.intercalate_cons_cons, List.append_assoc]
  rfl

/-- Lines may be translated before they are joined or after it. -/
lemma map_join {f : α → β} :
    ([sep].intercalate lines).map f = [f sep].intercalate (lines.map (List.map f)) := by
  induction lines with
  | nil => rfl
  | cons l lines ih =>
    cases lines with
    | nil => rw [List.intercalate_singleton, List.map_singleton, List.intercalate_singleton]
    | cons l' lines =>
      rw [join_cons, List.map_append, List.map_cons, ih]
      exact join_cons.symm

lemma flatMap_join {f : α → List β} :
    ([sep].intercalate lines).flatMap f = (f sep).intercalate (lines.map (List.flatMap f)) := by
  induction lines with
  | nil => rfl
  | cons l lines ih =>
    cases lines with
    | nil => rw [List.intercalate_singleton, List.map_singleton, List.intercalate_singleton]
    | cons l' lines =>
      rw [join_cons, List.flatMap_append, List.flatMap_cons, ih]
      exact (List.append_assoc ..).symm.trans (List.intercalate_cons_cons ..).symm

/-- What keeps between the separators is in one line. -/
lemma Keeps.join (h : Keeps R r sep ([sep].intercalate lines)) (hr : r.floats = true)
    (hsep : R.word sep = false) : ∃ l ∈ lines, Matches R r l := by
  induction lines with
  | nil =>
    obtain ⟨b, w, a, e, h, -⟩ := h
    obtain ⟨-, e⟩ := List.append_eq_nil_iff.mp e
    exact absurd (List.append_eq_nil_iff.mp e).1 (h.ne_nil_of_floats hr)
  | cons l lines ih =>
    cases lines with
    | nil =>
      rw [List.intercalate_singleton] at h
      exact ⟨l, .head _, matches_iff_keeps_or_crosses.mpr (.inl h)⟩
    | cons l' lines =>
      rw [join_cons] at h
      obtain h | h := h.append hr hsep
      · exact ⟨l, .head _, matches_iff_keeps_or_crosses.mpr (.inl h)⟩
      · obtain ⟨l, hl, h⟩ := ih h
        exact ⟨l, .tail _ hl, h⟩

/-- A match in a line is one in the joined lines. -/
lemma matches_join {l : List α} (hl : l ∈ lines) (h : Matches R r l) (hr : r.floats = true)
    (hsep : R.word sep = false) : Matches R r ([sep].intercalate lines) := by
  induction lines with
  | nil => cases hl
  | cons l₁ lines ih =>
    cases lines with
    | nil =>
      rwa [List.intercalate_singleton, ← List.mem_singleton.mp hl]
    | cons l₂ lines =>
      rw [join_cons]
      cases hl with
      | head => exact matches_append (.inl h) hr hsep
      | tail _ hl => exact matches_append (.inr (ih hl)) hr hsep

/-- A text of joined lines is matched in a line or across a separator. -/
theorem matches_join_iff (hr : r.floats = true)
    (hsep : R.word sep = false) : Matches R r ([sep].intercalate lines)
      ↔ (∃ l ∈ lines, Matches R r l) ∨ Crosses R r sep ([sep].intercalate lines) := by
  constructor
  · intro h
    obtain h | h := matches_iff_keeps_or_crosses.mp h
    · exact .inl (h.join hr hsep)
    · exact .inr h
  · rintro (⟨l, hl, h⟩ | h)
    · exact matches_join hl h hr hsep
    · exact matches_iff_keeps_or_crosses.mpr (.inr h)

/-- An expression that ends with the text, and cannot read all after a separator, has its match
there. -/
lemma matches_append_last (hstop : r.stopped = true) (ho : r.opens = false)
    (hsep : R.word sep = false) (hv : ∃ x ∈ v, ∀ s ∈ r.sets, R.mem s x = false) :
    Matches R r (u ++ sep :: v) ↔ Matches R r v := by
  constructor
  · rintro ⟨b, w, a, e, h⟩
    obtain rfl := h.after_eq_nil hstop
    obtain ⟨x, hx, hm⟩ := hv
    have hw : x ∉ w := by
      intro hw
      obtain ⟨s, hs, hc⟩ := h.mem_sets hw
      rw [hm s hs] at hc
      cases hc
    rw [List.append_nil, List.append_cons] at e
    obtain ⟨c, hc, rfl⟩ | ⟨c, hb, rfl⟩ := List.append_eq_append_iff.mp e
    · exact absurd (List.mem_append_right _ hx) hw
    · refine ⟨c.reverse, w, [], ?_, h.context ?_ rfl ?_ (fun _ => rfl)⟩
      · rw [List.reverse_reverse, List.append_nil]
      · rw [← List.reverse_reverse b, hb, List.reverse_append, List.reverse_append]
        exact wordAt_sep hsep
      · rw [ho]
        exact fun h => nomatch h
  · rintro ⟨b, w, a, rfl, h⟩
    refine ⟨b ++ sep :: u.reverse, w, a, ?_, h.context ?_ rfl ?_ (fun _ => rfl)⟩
    · simp only [List.reverse_append, List.reverse_cons, List.reverse_reverse, List.append_assoc]
      rfl
    · exact (wordAt_sep hsep).symm
    · rw [ho]
      exact fun h => nomatch h

/-- Such an expression matches a text of joined lines iff it matches the last of them. -/
theorem matches_join_last (hstop : r.stopped = true) (ho : r.opens = false)
    (hn : r.nullable = false) (hsep : R.word sep = false)
    (hlines : ∀ l ∈ lines, ∃ x ∈ l, ∀ s ∈ r.sets, R.mem s x = false) :
    Matches R r ([sep].intercalate lines) ↔ ∃ l ∈ lines.getLast?, Matches R r l := by
  induction lines with
  | nil =>
    constructor
    · rintro ⟨b, w, a, e, h⟩
      obtain ⟨-, e⟩ := List.append_eq_nil_iff.mp e
      exact absurd (List.append_eq_nil_iff.mp e).1 (h.ne_nil hn)
    · rintro ⟨l, hl, -⟩
      cases hl
  | cons l lines ih =>
    cases lines with
    | nil =>
      rw [List.intercalate_singleton]
      constructor
      · exact fun h => ⟨l, rfl, h⟩
      · rintro ⟨l', hl, h⟩
        cases hl
        exact h
    | cons l' lines =>
      have hv : ∃ x ∈ [sep].intercalate (l' :: lines), ∀ s ∈ r.sets, R.mem s x = false := by
        obtain ⟨x, hx, hm⟩ := hlines l' (.tail _ (.head _))
        refine ⟨x, ?_, hm⟩
        cases lines with
        | nil => rwa [List.intercalate_singleton]
        | cons l'' lines =>
          rw [join_cons]
          exact List.mem_append_left _ hx
      rw [join_cons, matches_append_last hstop ho hsep hv, List.getLast?_cons_cons]
      exact ih fun l hl => hlines l (.tail _ hl)

end Lib.Regex
