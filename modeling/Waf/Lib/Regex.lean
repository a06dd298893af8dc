import Mathlib.Tactic

/-!
# Regular expressions

Regular expressions over any alphabet, with word boundaries and anchors. What a set of an expression
contains and which letters belong to words is left to a `Reader`, so one expression can be read in
several alphabets. `Reads R r b w a` says that the expression reads the stretch `w` of a text between
`b`, the letters before it from the nearest on, and `a`, the letters after it. `ends` computes the
stretches (`mem_ends`), and `search` whether there is one (`search_iff`).

Three rules move a match to another text: `Reads.mono` from one reader to another, `matches_map` along
a map of the alphabet, and `Reads.context` to other surroundings, of which an expression without
anchors sees no more than whether the next letters belong to words.
-/

namespace Lib

/-- Regular expressions over sets `σ`. -/
inductive Regex (σ : Type) where
  | eps
  | set (s : σ)
  | bound
  | start
  | stop
  | cat (r s : Regex σ)
  | alt (r s : Regex σ)
  | star (r : Regex σ)
  deriving DecidableEq

namespace Regex

variable {σ α β : Type}

/-- The letters of a text, as an expression sees them. -/
structure Reader (σ α : Type) where
  mem : σ → α → Bool
  word : α → Bool

namespace Reader

/-- Does the list begin with a letter of a word? -/
def wordAt (R : Reader σ α) (xs : List α) : Bool := xs.head?.any R.word

/-- Is there a word boundary between two parts of a text? -/
def boundAt (R : Reader σ α) (b a : List α) : Bool := R.wordAt b != R.wordAt a

/-- Read the image of each letter. -/
def comap (R : Reader σ β) (f : α → β) : Reader σ α where
  mem s c := R.mem s (f c)
  word c := R.word (f c)

variable {R : Reader σ α} {w b b' : List α}

lemma wordAt_append (h : R.wordAt b = R.wordAt b') : R.wordAt (w ++ b) = R.wordAt (w ++ b') := by
  cases w with
  | nil => exact h
  | cons c w => rfl

/-- Translating the characters changes the reader with them. -/
lemma wordAt_map {R : Reader σ β} {f : α → β} {xs : List α} :
    R.wordAt (xs.map f) = (R.comap f).wordAt xs := by
  cases xs with
  | nil => rfl
  | cons c xs => rfl

end Reader

inductive Reads (R : Reader σ α) : Regex σ → List α → List α → List α → Prop
  | eps {b a} : Reads R eps b [] a
  | set {s b c a} (h : R.mem s c = true) : Reads R (set s) b [c] a
  | bound {b a} (h : R.boundAt b a = true) : Reads R bound b [] a
  | start {a} : Reads R start [] [] a
  | stop {b} : Reads R stop b [] []
  | cat {r s b w w' a} (hr : Reads R r b w (w' ++ a)) (hs : Reads R s (w.reverse ++ b) w' a) :
    Reads R (cat r s) b (w ++ w') a
  | altl {r s b w a} (h : Reads R r b w a) : Reads R (alt r s) b w a
  | altr {r s b w a} (h : Reads R s b w a) : Reads R (alt r s) b w a
  | done {r b a} : Reads R (star r) b [] a
  | more {r b w w' a} (hr : Reads R r b w (w' ++ a)) (hs : Reads R (star r) (w.reverse ++ b) w' a) :
    Reads R (star r) b (w ++ w') a

/-- The expression reads a stretch of the text. -/
def Matches (R : Reader σ α) (r : Regex σ) (text : List α) : Prop :=
  ∃ b w a, b.reverse ++ (w ++ a) = text ∧ Reads R r b w a

/-! ## Searching -/

/-- A position in a text: what is before it, from the nearest letter on, and what is after it. -/
structure Pos (α : Type) where
  before : List α
  after : List α
  deriving DecidableEq

/-- Repeat a step that shortens what is left, up to `n` times. -/
def iter (f : Pos α → List (Pos α)) : Nat → Pos α → List (Pos α)
  | 0, p => [p]
  | n + 1, p =>
    p :: ((f p).filter fun q => q.after.length < p.after.length).flatMap (iter f n)

/-- The positions that the expression reads up to. -/
def ends (R : Reader σ α) : Regex σ → Pos α → List (Pos α)
  | eps, p => [p]
  | set s, p =>
    match p.after with
    | [] => []
    | c :: a => if R.mem s c then [⟨c :: p.before, a⟩] else []
  | bound, p => if R.boundAt p.before p.after then [p] else []
  | start, p => if p.before.isEmpty then [p] else []
  | stop, p => if p.after.isEmpty then [p] else []
  | cat r s, p => (ends R r p).flatMap (ends R s)
  | alt r s, p => ends R r p ++ ends R s p
  | star r, p => iter (ends R r) p.after.length p

/-- Is there a match that starts in `a`, after the letters `b`? -/
def searchFrom (R : Reader σ α) (r : Regex σ) : List α → List α → Bool
  | b, [] => !(ends R r ⟨b, []⟩).isEmpty
  | b, c :: a => !(ends R r ⟨b, c :: a⟩).isEmpty || searchFrom R r (c :: b) a

def search (R : Reader σ α) (r : Regex σ) (text : List α) : Bool := searchFrom R r [] text

/-- The positions `p` and `q` enclose a stretch that the expression reads. -/
def Spans (R : Reader σ α) (r : Regex σ) (p q : Pos α) : Prop :=
  ∃ w, p.after = w ++ q.after ∧ q.before = w.reverse ++ p.before ∧ Reads R r p.before w q.after

variable {R R' : Reader σ α} {r s : Regex σ} {p q t : Pos α} {b w a : List α}

/-- What is read spans its part of the text. -/
lemma Reads.spans (h : Reads R r b w a) : Spans R r ⟨b, w ++ a⟩ ⟨w.reverse ++ b, a⟩ :=
  ⟨w, rfl, rfl, h⟩

/-- What is read is nothing, or shortens what is left. -/
lemma Spans.progress (h : Spans R r p q) : q = p ∨ q.after.length < p.after.length := by
  obtain ⟨w, ha, hb, -⟩ := h
  cases w with
  | nil =>
    left
    obtain ⟨b, a⟩ := q
    obtain ⟨b', a'⟩ := p
    cases ha
    cases hb
    rfl
  | cons c w =>
    right
    rw [ha, List.length_append, List.length_cons]
    omega

/-- A sequence reads by way of a position in between. -/
lemma spans_cat : Spans R (cat r s) p q ↔ ∃ t, Spans R r p t ∧ Spans R s t q := by
  constructor
  · rintro ⟨w, ha, hb, h⟩
    cases h with
    | @cat _ _ _ w w' _ hr hs =>
      refine ⟨⟨w.reverse ++ p.before, w' ++ q.after⟩, ⟨w, ?_, rfl, hr⟩, ⟨w', rfl, ?_, hs⟩⟩
      · rw [ha, List.append_assoc]
      · rw [hb, List.reverse_append, List.append_assoc]
  · rintro ⟨t, ⟨w, ha, hb, hr⟩, ⟨w', ha', hb', hs⟩⟩
    rw [ha'] at hr
    rw [hb] at hs
    refine ⟨w ++ w', ?_, ?_, .cat hr hs⟩
    · rw [ha, ha', List.append_assoc]
    · rw [hb', hb, List.reverse_append, List.append_assoc]

/-- One round more of a repetition. -/
lemma spans_more (hr : Spans R r p t) (hs : Spans R (star r) t q) : Spans R (star r) p q := by
  obtain ⟨w, ha, hb, hr⟩ := hr
  obtain ⟨w', ha', hb', hs⟩ := hs
  rw [ha'] at hr
  rw [hb] at hs
  refine ⟨w ++ w', ?_, ?_, .more hr hs⟩
  · rw [ha, ha', List.append_assoc]
  · rw [hb', hb, List.reverse_append, List.append_assoc]

/-- A repetition reads nothing, or something first that is not nothing. -/
lemma spans_star (h : Spans R (star r) p q) :
    q = p ∨ ∃ t, Spans R r p t ∧ t.after.length < p.after.length ∧ Spans R (star r) t q := by
  obtain ⟨w, ha, hb, h⟩ := h
  obtain ⟨b, x⟩ := p
  obtain ⟨b', a⟩ := q
  dsimp only at ha hb h
  subst ha hb
  generalize e : star r = r' at h
  induction h with
  | done => exact .inl rfl
  | @more r' b w w' a hr hs _ ihs =>
    cases e
    cases w with
    | nil => exact ihs rfl
    | cons c w =>
      refine .inr ⟨⟨(c :: w).reverse ++ b, w' ++ a⟩, ⟨c :: w, ?_, rfl, hr⟩, ?_, ⟨w', rfl, ?_, hs⟩⟩
      · exact List.append_assoc ..
      · simp only [List.length_append, List.length_cons]
        omega
      · rw [List.reverse_append, List.append_assoc]
  | eps | set | bound | start | stop | cat | altl | altr => cases e

/-- Repeating a step as often as there are letters left is repeating it at will. -/
lemma mem_iter {n : Nat} (ih : ∀ p q, q ∈ ends R r p ↔ Spans R r p q)
    (hn : p.after.length ≤ n) : q ∈ iter (ends R r) n p ↔ Spans R (star r) p q := by
  induction n generalizing p with
  | zero =>
    rw [iter, List.mem_singleton]
    constructor
    · rintro rfl
      exact ⟨[], rfl, rfl, .done⟩
    · intro h
      obtain h | h := h.progress
      · exact h
      · omega
  | succ n ihn =>
    rw [iter, List.mem_cons, List.mem_flatMap]
    constructor
    · rintro (rfl | ⟨t, ht, hq⟩)
      · exact ⟨[], rfl, rfl, .done⟩
      · obtain ⟨ht, hlt⟩ := List.mem_filter.mp ht
        have hlt := of_decide_eq_true hlt
        exact spans_more ((ih p t).mp ht) ((ihn (by omega)).mp hq)
    · intro h
      obtain rfl | ⟨t, hr, hlt, hs⟩ := spans_star h
      · exact .inl rfl
      · refine .inr ⟨t, List.mem_filter.mpr ⟨(ih p t).mpr hr, decide_eq_true hlt⟩, ?_⟩
        exact (ihn (by omega)).mpr hs

/-- A position is its own end for an expression that reads nothing and checks a condition. -/
lemma mem_ends_check {c : Bool} (h : ∀ w, Reads R r p.before w q.after ∧ p.after = w ++ q.after
      ↔ w = [] ∧ p.after = q.after ∧ c = true) :
    q ∈ (if c then [p] else []) ↔ Spans R r p q := by
  constructor
  · intro hq
    split at hq
    case isTrue hc =>
      obtain rfl := List.mem_singleton.mp hq
      exact ⟨[], rfl, rfl, ((h []).mpr ⟨rfl, rfl, hc⟩).1⟩
    case isFalse => cases hq
  · rintro ⟨w, ha, hb, hr⟩
    obtain ⟨rfl, ha', hc⟩ := (h w).mp ⟨hr, ha⟩
    obtain ⟨b, a⟩ := p
    obtain ⟨b', a'⟩ := q
    cases ha'
    cases hb
    rw [if_pos hc]
    exact .head _

lemma mem_ends : q ∈ ends R r p ↔ Spans R r p q := by
  induction r generalizing p q with
  | eps =>
    refine (@mem_ends_check _ _ R eps p q true fun w => ⟨?_, ?_⟩)
    · rintro ⟨h, ha⟩
      cases h with
      | eps => exact ⟨rfl, ha, rfl⟩
    · rintro ⟨rfl, ha, -⟩
      exact ⟨.eps, ha⟩
  | set s =>
    obtain ⟨b, x⟩ := p
    cases x with
    | nil =>
      refine ⟨nofun, ?_⟩
      rintro ⟨w, ha, -, h⟩
      cases h
      cases ha
    | cons c x =>
      show q ∈ (if R.mem s c then _ else _) ↔ _
      constructor
      · intro h
        split at h
        case isTrue hm =>
          obtain rfl := List.mem_singleton.mp h
          exact ⟨[c], rfl, rfl, .set hm⟩
        case isFalse => cases h
      · rintro ⟨w, ha, hb, h⟩
        obtain ⟨b', a⟩ := q
        cases h with
        | set hm =>
          dsimp only at ha hb
          subst hb
          cases ha
          rw [if_pos hm]
          exact .head _
  | bound =>
    refine (@mem_ends_check _ _ R bound p q (R.boundAt p.before p.after) fun w => ⟨?_, ?_⟩)
    · rintro ⟨h, ha⟩
      cases h with
      | bound hb =>
        rw [List.nil_append] at ha
        exact ⟨rfl, ha, ha ▸ hb⟩
    · rintro ⟨rfl, ha, hb⟩
      rw [ha] at hb
      exact ⟨.bound hb, ha⟩
  | start =>
    refine (@mem_ends_check _ _ R start p q p.before.isEmpty fun w => ⟨?_, ?_⟩)
    · rintro ⟨h, ha⟩
      generalize p.before = b at h
      cases h with
      | start => exact ⟨rfl, ha, rfl⟩
    · rintro ⟨rfl, ha, hb⟩
      rw [List.isEmpty_iff.mp hb]
      exact ⟨.start, ha⟩
  | stop =>
    refine (@mem_ends_check _ _ R stop p q p.after.isEmpty fun w => ⟨?_, ?_⟩)
    · rintro ⟨h, ha⟩
      generalize q.after = a at h ha
      cases h with
      | stop => exact ⟨rfl, ha, by rw [ha]; rfl⟩
    · rintro ⟨rfl, ha, hb⟩
      rw [← ha, List.isEmpty_iff.mp hb]
      exact ⟨.stop, rfl⟩
  | cat r s ihr ihs =>
    rw [ends, List.mem_flatMap, spans_cat]
    exact exists_congr fun t => and_congr ihr ihs
  | alt r s ihr ihs =>
    rw [ends, List.mem_append, ihr, ihs]
    constructor
    · rintro (⟨w, ha, hb, h⟩ | ⟨w, ha, hb, h⟩)
      · exact ⟨w, ha, hb, .altl h⟩
      · exact ⟨w, ha, hb, .altr h⟩
    · rintro ⟨w, ha, hb, h⟩
      cases h with
      | altl h => exact .inl ⟨w, ha, hb, h⟩
      | altr h => exact .inr ⟨w, ha, hb, h⟩
  -- a star is read by as many rounds as there are characters left
  | star r ih => exact mem_iter (fun _ _ => ih) le_rfl

lemma ends_ne_nil : (!(ends R r ⟨b, a⟩).isEmpty) = true
    ↔ ∃ w a', w ++ a' = a ∧ Reads R r b w a' := by
  rw [Bool.not_eq_true', List.isEmpty_eq_false_iff_exists_mem]
  constructor
  · rintro ⟨q, hq⟩
    obtain ⟨w, ha, -, h⟩ := mem_ends.mp hq
    exact ⟨w, q.after, ha.symm, h⟩
  · rintro ⟨w, a', rfl, h⟩
    exact ⟨_, mem_ends.mpr h.spans⟩

/-- The search succeeds iff there is a match from some point on. -/
lemma searchFrom_iff : searchFrom R r b a = true
    ↔ ∃ x w a', x ++ (w ++ a') = a ∧ Reads R r (x.reverse ++ b) w a' := by
  induction a generalizing b with
  | nil =>
    rw [searchFrom, ends_ne_nil]
    constructor
    · rintro ⟨w, a', h, hr⟩
      exact ⟨[], w, a', h, hr⟩
    · rintro ⟨x, w, a', h, hr⟩
      obtain ⟨rfl, h⟩ := List.append_eq_nil_iff.mp h
      exact ⟨w, a', h, hr⟩
  | cons c a ih =>
    rw [searchFrom, Bool.or_eq_true, ends_ne_nil, ih]
    constructor
    · rintro (⟨w, a', h, hr⟩ | ⟨x, w, a', rfl, hr⟩)
      · exact ⟨[], w, a', h, hr⟩
      · refine ⟨c :: x, w, a', rfl, ?_⟩
        rw [List.reverse_cons, List.append_assoc]
        exact hr
    · rintro ⟨x, w, a', h, hr⟩
      cases x with
      | nil => exact .inl ⟨w, a', h, hr⟩
      | cons d x =>
        obtain ⟨rfl, rfl⟩ := List.cons_eq_cons.mp h
        rw [List.reverse_cons, List.append_assoc] at hr
        exact .inr ⟨x, w, a', rfl, hr⟩

/-- Searching finds a match iff there is one. -/
lemma search_iff {text : List α} : search R r text = true ↔ Matches R r text := by
  rw [search, searchFrom_iff]
  constructor
  · rintro ⟨x, w, a, h, hr⟩
    rw [List.append_nil] at hr
    refine ⟨x.reverse, w, a, ?_, hr⟩
    rwa [List.reverse_reverse]
  · rintro ⟨b, w, a, h, hr⟩
    refine ⟨b.reverse, w, a, h, ?_⟩
    rwa [List.reverse_reverse, List.append_nil]

/-! ## Other readers -/

/-- The sets that occur in the expression. -/
def sets : Regex σ → List σ
  | set s => [s]
  | cat r s | alt r s => r.sets ++ s.sets
  | star r => r.sets
  | eps | bound | start | stop => []

/-- A reader that has the letters read in the same sets, and the same words, reads the same. -/
lemma Reads.mono (h : Reads R r b w a)
    (hmem : ∀ s ∈ r.sets, ∀ c ∈ w, R.mem s c = true → R'.mem s c = true)
    (hword : R.word = R'.word) : Reads R' r b w a := by
  induction h with
  | eps => exact .eps
  | set h => exact .set (hmem _ (.head _) _ (.head _) h)
  | bound h =>
    refine .bound ?_
    rw [← h]
    simp only [Reader.boundAt, Reader.wordAt, hword]
  | start => exact .start
  | stop => exact .stop
  | cat _ _ ihr ihs =>
    refine .cat (ihr fun s hs c hc => ?_) (ihs fun s hs c hc => ?_)
    · exact hmem s (List.mem_append_left _ hs) c (List.mem_append_left _ hc)
    · exact hmem s (List.mem_append_right _ hs) c (List.mem_append_right _ hc)
  | altl _ ih => exact .altl (ih fun s hs => hmem s (List.mem_append_left _ hs))
  | altr _ ih => exact .altr (ih fun s hs => hmem s (List.mem_append_right _ hs))
  | done => exact .done
  | more _ _ ihr ihs =>
    refine .more (ihr fun s hs c hc => ?_) (ihs fun s hs c hc => ?_)
    · exact hmem s hs c (List.mem_append_left _ hc)
    · exact hmem s hs c (List.mem_append_right _ hc)

lemma Matches.mono {text : List α} (h : Matches R r text)
    (hmem : ∀ s ∈ r.sets, ∀ c, R.mem s c = true → R'.mem s c = true)
    (hword : R.word = R'.word) : Matches R' r text := by
  obtain ⟨b, w, a, ht, h⟩ := h
  exact ⟨b, w, a, ht, h.mono (fun s hs c _ => hmem s hs c) hword⟩

lemma matches_congr {text : List α} (hmem : ∀ s ∈ r.sets, ∀ c, R.mem s c = R'.mem s c)
    (hword : R.word = R'.word) : Matches R r text ↔ Matches R' r text :=
  ⟨fun h => h.mono (fun s hs c => (hmem s hs c).symm.trans) hword,
    fun h => h.mono (fun s hs c => (hmem s hs c).trans) hword.symm⟩

/-- An expression reads the image of a stretch iff it reads the stretch by the images. -/
lemma reads_map {R : Reader σ β} {f : α → β} :
    Reads R r (b.map f) (w.map f) (a.map f) ↔ Reads (R.comap f) r b w a := by
  constructor
  · intro h
    -- the induction needs variables in the place of the mapped texts
    generalize eb : b.map f = b' at h
    generalize ew : w.map f = w' at h
    generalize ea : a.map f = a' at h
    induction h generalizing b w a with
    | eps =>
      obtain rfl := List.map_eq_nil_iff.mp ew
      exact .eps
    | set h =>
      obtain ⟨c, rfl, rfl⟩ := List.map_eq_singleton_iff.mp ew
      exact .set h
    | bound h =>
      obtain rfl := List.map_eq_nil_iff.mp ew
      refine .bound ?_
      rw [← h, ← eb, ← ea]
      simp only [Reader.boundAt, Reader.wordAt_map]
    | start =>
      obtain rfl := List.map_eq_nil_iff.mp ew
      obtain rfl := List.map_eq_nil_iff.mp eb
      exact .start
    | stop =>
      obtain rfl := List.map_eq_nil_iff.mp ew
      obtain rfl := List.map_eq_nil_iff.mp ea
      exact .stop
    | cat _ _ ihr ihs =>
      obtain ⟨w₁, w₂, rfl, rfl, rfl⟩ := List.map_eq_append_iff.mp ew
      refine .cat (ihr eb rfl ?_) (ihs ?_ rfl ea)
      · rw [List.map_append, ea]
      · rw [List.map_append, List.map_reverse, eb]
    | altl _ ih => exact .altl (ih eb ew ea)
    | altr _ ih => exact .altr (ih eb ew ea)
    | done =>
      obtain rfl := List.map_eq_nil_iff.mp ew
      exact .done
    | more _ _ ihr ihs =>
      obtain ⟨w₁, w₂, rfl, rfl, rfl⟩ := List.map_eq_append_iff.mp ew
      refine .more (ihr eb rfl ?_) (ihs ?_ rfl ea)
      · rw [List.map_append, ea]
      · rw [List.map_append, List.map_reverse, eb]
  · intro h
    induction h with
    | eps => exact .eps
    | set h => exact .set h
    | bound h =>
      refine .bound ?_
      rw [← h]
      simp only [Reader.boundAt, Reader.wordAt_map]
    | start => exact .start
    | stop => exact .stop
    | cat _ _ ihr ihs =>
      rw [List.map_append] at ihr ⊢
      rw [List.map_append, List.map_reverse] at ihs
      exact .cat ihr ihs
    | altl _ ih => exact .altl ih
    | altr _ ih => exact .altr ih
    | done => exact .done
    | more _ _ ihr ihs =>
      rw [List.map_append] at ihr ⊢
      rw [List.map_append, List.map_reverse] at ihs
      exact .more ihr ihs

/-- An expression matches the image of a text iff it matches the text by the images. -/
lemma matches_map {R : Reader σ β} {f : α → β} {text : List α} :
    Matches R r (text.map f) ↔ Matches (R.comap f) r text := by
  constructor
  · rintro ⟨b, w, a, ht, h⟩
    obtain ⟨b₁, x, rfl, hb, hx⟩ := List.map_eq_append_iff.mp ht.symm
    obtain ⟨w₁, a₁, rfl, rfl, rfl⟩ := List.map_eq_append_iff.mp hx
    obtain rfl : b = b₁.reverse.map f := by rw [List.map_reverse, hb, List.reverse_reverse]
    refine ⟨b₁.reverse, w₁, a₁, ?_, reads_map.mp h⟩
    rw [List.reverse_reverse]
  · rintro ⟨b, w, a, rfl, h⟩
    refine ⟨b.map f, w.map f, a.map f, ?_, reads_map.mpr h⟩
    rw [List.map_append, List.map_append, List.map_reverse]

/-- Whatever is read is read by a set of the expression. -/
lemma Reads.mem_sets {c : α} (h : Reads R r b w a) (hc : c ∈ w) :
    ∃ s ∈ r.sets, R.mem s c = true := by
  induction h with
  | eps | bound | start | stop | done => cases hc
  | @set s _ _ _ h =>
    obtain rfl := List.mem_singleton.mp hc
    exact ⟨s, .head _, h⟩
  | cat _ _ ihr ihs =>
    obtain hc | hc := List.mem_append.mp hc
    · obtain ⟨s, hs, h⟩ := ihr hc
      exact ⟨s, List.mem_append_left _ hs, h⟩
    · obtain ⟨s, hs, h⟩ := ihs hc
      exact ⟨s, List.mem_append_right _ hs, h⟩
  | altl _ ih =>
    obtain ⟨s, hs, h⟩ := ih hc
    exact ⟨s, List.mem_append_left _ hs, h⟩
  | altr _ ih =>
    obtain ⟨s, hs, h⟩ := ih hc
    exact ⟨s, List.mem_append_right _ hs, h⟩
  | more _ _ ihr ihs =>
    obtain hc | hc := List.mem_append.mp hc
    · exact ihr hc
    · exact ihs hc

/-- Does the expression need a letter of a set with the property? -/
def needs (f : σ → Bool) : Regex σ → Bool
  | set s => f s
  | cat r s => r.needs f || s.needs f
  | alt r s => r.needs f && s.needs f
  | eps | bound | start | stop | star _ => false

/-- A match has a character of a set that is needed. -/
lemma Reads.exists_needed {f : σ → Bool} (h : Reads R r b w a) (hr : r.needs f = true) :
    ∃ s, f s = true ∧ ∃ c ∈ w, R.mem s c = true := by
  induction h with
  | eps | bound | start | stop | done | more => cases hr
  | @set s _ c _ h => exact ⟨s, hr, c, .head _, h⟩
  | cat _ _ ihr ihs =>
    obtain hr | hr := Bool.or_eq_true_iff.mp hr
    · obtain ⟨s, hs, c, hc, h⟩ := ihr hr
      exact ⟨s, hs, c, List.mem_append_left _ hc, h⟩
    · obtain ⟨s, hs, c, hc, h⟩ := ihs hr
      exact ⟨s, hs, c, List.mem_append_right _ hc, h⟩
  | altl _ ih => exact ih (Bool.and_eq_true_iff.mp hr).1
  | altr _ ih => exact ih (Bool.and_eq_true_iff.mp hr).2

/-! ## Other surroundings -/

/-- Does the expression ask for the start of the text? -/
def opens : Regex σ → Bool
  | start => true
  | cat r s | alt r s => r.opens || s.opens
  | star r => r.opens
  | eps | set _ | bound | stop => false

/-- Does the expression ask for the end of the text? -/
def closes : Regex σ → Bool
  | stop => true
  | cat r s | alt r s => r.closes || s.closes
  | star r => r.closes
  | eps | set _ | bound | start => false

/-- Can the expression read nothing? -/
def nullable : Regex σ → Bool
  | set _ => false
  | cat r s => r.nullable && s.nullable
  | alt r s => r.nullable || s.nullable
  | eps | bound | start | stop | star _ => true

/-- Does the expression end with the text? -/
def stopped : Regex σ → Bool
  | stop => true
  | cat _ s => s.stopped
  | alt r s => r.stopped && s.stopped
  | eps | set _ | bound | start | star _ => false

lemma Reads.after_eq_nil (h : Reads R r b w a) (hr : r.stopped = true) : a = [] := by
  induction h with
  | eps | set | bound | start | done | more => cases hr
  | stop => rfl
  | cat _ _ _ ihs => exact ihs hr
  | altl _ ih => exact ih (Bool.and_eq_true_iff.mp hr).1
  | altr _ ih => exact ih (Bool.and_eq_true_iff.mp hr).2

lemma Reads.ne_nil (h : Reads R r b w a) (hr : r.nullable = false) : w ≠ [] := by
  induction h with
  | eps | bound | start | stop | done | more => cases hr
  | set => exact List.cons_ne_nil _ _
  | cat _ _ ihr ihs =>
    intro hw
    obtain ⟨rfl, rfl⟩ := List.append_eq_nil_iff.mp hw
    obtain hr | hr := Bool.and_eq_false_iff.mp hr
    · exact ihr hr rfl
    · exact ihs hr rfl
  | altl _ ih => exact ih (Bool.or_eq_false_iff.mp hr).1
  | altr _ ih => exact ih (Bool.or_eq_false_iff.mp hr).2

/-- The surroundings count by their next letters, unless the expression asks for the start or the
end of the text. -/
lemma Reads.context {b' a' : List α} (h : Reads R r b w a)
    (hb : R.wordAt b = R.wordAt b') (ha : R.wordAt a = R.wordAt a')
    (ho : r.opens = true → b = b') (hc : r.closes = true → a = a') : Reads R r b' w a' := by
  induction h generalizing b' a' with
  | eps => exact .eps
  | set h => exact .set h
  | bound h =>
    refine .bound ?_
    rw [Reader.boundAt, ← hb, ← ha]
    exact h
  | start => exact ho rfl ▸ .start
  | stop => exact hc rfl ▸ .stop
  | @cat r s b w w' a _ _ ihr ihs =>
    refine .cat (ihr hb (Reader.wordAt_append ha) ?_ ?_) (ihs (Reader.wordAt_append hb) ha ?_ ?_)
    · exact fun h => ho (Bool.or_eq_true_iff.mpr (.inl h))
    · exact fun h => congrArg (w' ++ ·) (hc (Bool.or_eq_true_iff.mpr (.inl h)))
    · exact fun h => congrArg (w.reverse ++ ·) (ho (Bool.or_eq_true_iff.mpr (.inr h)))
    · exact fun h => hc (Bool.or_eq_true_iff.mpr (.inr h))
  | altl _ ih =>
    refine .altl (ih hb ha ?_ ?_)
    · exact fun h => ho (Bool.or_eq_true_iff.mpr (.inl h))
    · exact fun h => hc (Bool.or_eq_true_iff.mpr (.inl h))
  | altr _ ih =>
    refine .altr (ih hb ha ?_ ?_)
    · exact fun h => ho (Bool.or_eq_true_iff.mpr (.inr h))
    · exact fun h => hc (Bool.or_eq_true_iff.mpr (.inr h))
  | done => exact .done
  | @more r b w w' a _ _ ihr ihs =>
    refine .more (ihr hb (Reader.wordAt_append ha) ho ?_) (ihs (Reader.wordAt_append hb) ha ?_ hc)
    · exact fun h => congrArg (w' ++ ·) (hc h)
    · exact fun h => congrArg (w.reverse ++ ·) (ho h)

/-- Does the expression match a part of a text wherever it stands? -/
def floats (r : Regex σ) : Bool := !r.opens && !r.closes && !r.nullable

lemma Reads.ne_nil_of_floats (h : Reads R r b w a) (hr : r.floats = true) : w ≠ [] := by
  obtain ⟨-, hn⟩ := Bool.and_eq_true_iff.mp hr
  exact h.ne_nil (Bool.not_eq_true' _ ▸ hn)

/-- A floating expression sees no more of the surroundings than their next letters. -/
lemma Reads.moved {b' a' : List α} (h : Reads R r b w a) (hr : r.floats = true)
    (hb : R.wordAt b = R.wordAt b') (ha : R.wordAt a = R.wordAt a') : Reads R r b' w a' := by
  obtain ⟨hr, -⟩ := Bool.and_eq_true_iff.mp hr
  obtain ⟨ho, hc⟩ := Bool.and_eq_true_iff.mp hr
  refine h.context hb ha (fun h => ?_) (fun h => ?_)
  · rw [h] at ho
    cases ho
  · rw [h] at hc
    cases hc

end Regex

end Lib
