import Waf.Lib.Regex

/-!
# Expressions without repetition

An expression without repetitions, boundaries and anchors reads one of finitely many words, wherever
it stands. A text that is cut in two is then matched on one side of the cut, unless a word lies across
it (`hits_append_iff`), and the letters next to the cut may already exclude that (`parted`).
-/

namespace Lib.Regex

variable {σ α : Type} {R : Reader σ α} {r s : Regex σ}

/-- The words of an expression that reads finitely many, wherever it stands. -/
def words : Regex σ → Option (List (List σ))
  | eps => some [[]]
  | set s => some [[s]]
  | cat r s =>
    match r.words, s.words with
    | some xs, some ys => some (xs.flatMap fun x => ys.map fun y => x ++ y)
    | _, _ => none
  | alt r s =>
    match r.words, s.words with
    | some xs, some ys => some (xs ++ ys)
    | _, _ => none
  | bound | start | stop | star _ => none

/-- The letters are in the sets, one by one. -/
abbrev Fits (R : Reader σ α) : List σ → List α → Prop :=
  List.Forall₂ fun s c => R.mem s c = true

lemma Fits.congr {R' : Reader σ α} {x : List σ} {w : List α} (h : Fits R x w)
    (hmem : ∀ c ∈ w, ∀ s, R.mem s c = R'.mem s c) : Fits R' x w := by
  induction h with
  | nil => exact .nil
  | cons hm _ ih =>
    refine .cons ?_ (ih fun c hc => hmem c (.tail _ hc))
    rwa [← hmem _ (.head _)]

/-- A stretch of the text fits the word. -/
def Occurs (R : Reader σ α) (x : List σ) (text : List α) : Prop :=
  ∃ b w a, b ++ (w ++ a) = text ∧ Fits R x w

/-- A stretch of the text fits one of the words. -/
def Hits (R : Reader σ α) (ws : List (List σ)) (text : List α) : Prop :=
  ∃ x ∈ ws, Occurs R x text

variable {ws : List (List σ)} {x : List σ} {b w a u v k k' text : List α}

/-- A pattern that is a list of words reads one of them. -/
lemma reads_iff_words (h : r.words = some ws) :
    Reads R r b w a ↔ ∃ x ∈ ws, Fits R x w := by
  induction r generalizing ws b w a with
  | eps =>
    cases h
    constructor
    · intro hr
      cases hr with
      | eps => exact ⟨[], .head _, .nil⟩
    · rintro ⟨x, hx, hf⟩
      obtain rfl := List.mem_singleton.mp hx
      cases hf
      exact .eps
  | set s =>
    cases h
    constructor
    · intro hr
      cases hr with
      | set hm => exact ⟨[s], .head _, .cons hm .nil⟩
    · rintro ⟨x, hx, hf⟩
      obtain rfl := List.mem_singleton.mp hx
      cases hf with
      | cons hm hf =>
        cases hf
        exact .set hm
  | bound | start | stop | star => cases h
  | cat r s ihr ihs =>
    rw [words] at h
    split at h
    case h_2 => cases h
    case h_1 xs ys hxs hys =>
      cases h
      constructor
      · intro hr
        cases hr with
        | cat hr hs =>
          obtain ⟨x, hx, hfx⟩ := (ihr hxs).mp hr
          obtain ⟨y, hy, hfy⟩ := (ihs hys).mp hs
          refine ⟨x ++ y, ?_, List.rel_append hfx hfy⟩
          exact List.mem_flatMap.mpr ⟨x, hx, List.mem_map_of_mem hy⟩
      · rintro ⟨z, hz, hf⟩
        obtain ⟨x, hx, hz⟩ := List.mem_flatMap.mp hz
        obtain ⟨y, hy, rfl⟩ := List.mem_map.mp hz
        -- the length of the first word says where the text is to be cut
        have h₁ := List.forall₂_take x.length hf
        have h₂ := List.forall₂_drop x.length hf
        rw [List.take_left] at h₁
        rw [List.drop_left] at h₂
        rw [← List.take_append_drop x.length w]
        exact .cat ((ihr hxs).mpr ⟨x, hx, h₁⟩) ((ihs hys).mpr ⟨y, hy, h₂⟩)
  | alt r s ihr ihs =>
    rw [words] at h
    split at h
    case h_2 => cases h
    case h_1 xs ys hxs hys =>
      cases h
      constructor
      · intro hr
        cases hr with
        | altl hr =>
          obtain ⟨x, hx, hf⟩ := (ihr hxs).mp hr
          exact ⟨x, List.mem_append_left _ hx, hf⟩
        | altr hr =>
          obtain ⟨x, hx, hf⟩ := (ihs hys).mp hr
          exact ⟨x, List.mem_append_right _ hx, hf⟩
      · rintro ⟨x, hx, hf⟩
        obtain hx | hx := List.mem_append.mp hx
        · exact .altl ((ihr hxs).mpr ⟨x, hx, hf⟩)
        · exact .altr ((ihs hys).mpr ⟨x, hx, hf⟩)

/-- Such an expression matches the texts in which one of its words occurs. -/
theorem matches_iff_hits (h : r.words = some ws) : Matches R r text ↔ Hits R ws text := by
  constructor
  · rintro ⟨b, w, a, ht, hr⟩
    obtain ⟨x, hx, hf⟩ := (reads_iff_words h).mp hr
    exact ⟨x, hx, b.reverse, w, a, ht, hf⟩
  · rintro ⟨x, hx, b, w, a, ht, hf⟩
    refine ⟨b.reverse, w, a, ?_, (reads_iff_words h).mpr ⟨x, hx, hf⟩⟩
    rw [List.reverse_reverse, ht]

/-- What occurs in a part occurs in the text. -/
lemma Occurs.extend (h : Occurs R x text) : Occurs R x (u ++ (text ++ v)) := by
  obtain ⟨b, w, a, rfl, hf⟩ := h
  refine ⟨u ++ b, w, a ++ v, ?_, hf⟩
  simp only [List.append_assoc]

/-- A hit stays one in a longer text. -/
lemma Hits.extend (h : Hits R ws text) : Hits R ws (u ++ (text ++ v)) := by
  obtain ⟨x, hx, h⟩ := h
  exact ⟨x, hx, h.extend⟩

/-- Readers that have the letters of the text in the same sets find the same words. -/
lemma Hits.congr {R' : Reader σ α} (h : Hits R ws text)
    (hmem : ∀ s, ∀ c ∈ text, R.mem s c = R'.mem s c) : Hits R' ws text := by
  obtain ⟨x, hx, b, w, a, rfl, hf⟩ := h
  refine ⟨x, hx, b, w, a, rfl, hf.congr fun c hc s => ?_⟩
  exact hmem s c (List.mem_append_right _ (List.mem_append_left _ hc))

/-! ## Cuts -/

/-- Some letter is not in the set at its place. -/
def clash (R : Reader σ α) (x : List σ) (k : List α) : Bool := (x.zip k).any fun e => !R.mem e.1 e.2

lemma clash_congr {R' : Reader σ α} (h : ∀ s, ∀ c ∈ k, R.mem s c = R'.mem s c) :
    clash R x k = clash R' x k := by
  rw [clash, clash, Bool.eq_iff_iff, List.any_eq_true, List.any_eq_true]
  refine exists_congr fun e => and_congr_right fun he => ?_
  rw [h e.1 e.2 (List.of_mem_zip he).2]

/-- What fits a stretch does not clash with the letters there. -/
lemma Fits.clash_eq_false (h : Fits R x w) (e : w ++ a = k ++ v) : clash R x k = false := by
  induction h generalizing k with
  | nil => rfl
  | @cons s c x w hm _ ih =>
    cases k with
    | nil => rfl
    | cons d k =>
      obtain ⟨rfl, e'⟩ := List.cons_eq_cons.mp e
      rw [clash, List.zip_cons_cons, List.any_cons, hm]
      exact ih e'

/-- The letters `k` before a cut and `k'` after it keep the word from lying across it. -/
def parted (R : Reader σ α) (k k' : List α) (x : List σ) : Bool :=
  (List.range x.length).all fun i =>
    i == 0 || clash R (x.take i).reverse k.reverse || clash R (x.drop i) k'

lemma parted_congr {R' : Reader σ α} (h : ∀ s, ∀ c ∈ k ++ k', R.mem s c = R'.mem s c) :
    parted R k k' x = parted R' k k' x := by
  have h₁ : ∀ s, ∀ c ∈ k.reverse, R.mem s c = R'.mem s c := fun s c hc =>
    h s c (List.mem_append_left _ (List.mem_reverse.mp hc))
  have h₂ : ∀ s, ∀ c ∈ k', R.mem s c = R'.mem s c := fun s c hc =>
    h s c (List.mem_append_right _ hc)
  simp only [parted, clash_congr h₁, clash_congr h₂]

/-- A word that lies across a cut is not kept from it. -/
lemma not_parted {c d : List α} {y z : α} (hf : Fits R x ((y :: c) ++ z :: d))
    (hb : b ++ y :: c = u ++ k) (ha : z :: d ++ a = k' ++ v) : ¬ parted R k k' x = true := by
  have h₁ := List.forall₂_take (y :: c).length hf
  have h₂ := List.forall₂_drop (y :: c).length hf
  rw [List.take_left] at h₁
  rw [List.drop_left] at h₂
  have hlt : (y :: c).length < x.length := by
    rw [hf.length_eq, List.length_append]
    exact Nat.lt_add_of_pos_right (Nat.succ_pos _)
  have e₁ : (y :: c).reverse ++ b.reverse = k.reverse ++ u.reverse := by
    rw [← List.reverse_append, hb, List.reverse_append]
  intro hp
  have hi := List.all_eq_true.mp hp (y :: c).length (List.mem_range.mpr hlt)
  rw [Fits.clash_eq_false (List.forall₂_reverse_iff.mpr h₁) e₁, Fits.clash_eq_false h₂ ha] at hi
  cases hi

lemma occurs_append (hp : parted R k k' x = true)
    (h : Occurs R x ((u ++ k) ++ (k' ++ v))) : Occurs R x (u ++ k) ∨ Occurs R x (k' ++ v) := by
  obtain ⟨b, w, a, e, hf⟩ := h
  obtain ⟨c, hb, hc⟩ | ⟨c, rfl, hc⟩ := List.append_eq_append_iff.mp e
  · obtain ⟨d, rfl, rfl⟩ | ⟨d, rfl, hd⟩ := List.append_eq_append_iff.mp hc
    · exact .inl ⟨b, w, d, hb.symm, hf⟩
    · -- the word lies across the cut
      cases c with
      | nil => exact .inr ⟨[], d, a, hd.symm, hf⟩
      | cons y c =>
        cases d with
        | nil => exact .inl ⟨b, (y :: c) ++ [], [], by rw [hb, List.append_nil, List.append_nil], hf⟩
        | cons z d => exact absurd hp (not_parted hf hb.symm hd.symm)
  · exact .inr ⟨c, w, a, hc.symm, hf⟩

/-- A cut that no word lies across splits the matches. -/
theorem hits_append_iff (hp : ∀ x ∈ ws, parted R k k' x = true) :
    Hits R ws ((u ++ k) ++ (k' ++ v)) ↔ Hits R ws (u ++ k) ∨ Hits R ws (k' ++ v) := by
  constructor
  · rintro ⟨x, hx, h⟩
    obtain h | h := occurs_append (hp x hx) h
    · exact .inl ⟨x, hx, h⟩
    · exact .inr ⟨x, hx, h⟩
  · rintro (h | h)
    · have h := @Hits.extend _ _ _ _ [] (k' ++ v) _ h
      exact h
    · have h := @Hits.extend _ _ _ _ (u ++ k) [] _ h
      rwa [List.append_nil] at h

end Lib.Regex
