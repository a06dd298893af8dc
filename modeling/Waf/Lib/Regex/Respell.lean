import Waf.Lib.Regex

/-!
# Matches under a shorter spelling

A text is spelled with a block of letters in some places, or with one new letter there instead. Neither
the first letter of the block nor the new one belongs to a word, and the other letters of the block do.
An expression keeps its matches when the block gives way to the new letter (`Matches.short`), if it
reads the first letter of a block only where it also reads the new one, reads on in the block only by
repeating a set, and asks for a word boundary only where the letters next to it decide.

`slides` checks this. It follows the expression from a position in the long text to one in the short
text, and tells whether the letter before it is known to be outside of the blocks.
-/

namespace Lib.Regex

variable {σ α : Type}

/-- A block of letters and the letter that takes its place. -/
structure Block (α : Type) where
  head : α
  tail : List α
  new : α

namespace Block
variable (B : Block α)

/-- The text with blocks in the marked places. -/
def long (m : List (Option α)) : List α := m.flatMap fun o => o.elim (B.head :: B.tail) fun c => [c]

/-- The text with the new letter in the marked places. -/
def short (m : List (Option α)) : List α := m.map (·.getD B.new)

/-- The text with blocks, read backwards. -/
def longBack (m : List (Option α)) : List α :=
  m.flatMap fun o => o.elim (B.tail.reverse ++ [B.head]) fun c => [c]

/-- A position of the long text and its place in the short one; `exact` says that the letter before
it is in no block. A position in a block is behind the new letter. -/
inductive At : Bool → Pos α → Pos α → Prop
  | out {exact m n} (h : exact = true → m.head? ≠ some none) :
    At exact ⟨B.longBack m, B.long n⟩ ⟨B.short m, B.short n⟩
  | inside {m n js ls} (h : B.tail = js.reverse ++ ls) (hl : ls ≠ []) :
    At false ⟨js ++ B.head :: B.longBack m, ls ++ B.long n⟩ ⟨B.new :: B.short m, B.short n⟩

/-- What a reader must say of the letters of the block. -/
structure Fair (R : Reader σ α) : Prop where
  head : R.word B.head = false
  new : R.word B.new = false
  tail : ∀ c ∈ B.tail, R.word c = true
  tail_ne : B.tail ≠ []

end Block

/-- Tests on the sets of an expression: does a set have the first letter of the block, one of the
others, the new letter, or only letters of words that do not follow the first one? -/
structure Probe (σ : Type) where
  head : σ → Bool
  tail : σ → Bool
  new : σ → Bool
  word : σ → Bool

structure Probe.Sound (P : Probe σ) (R : Reader σ α) (B : Block α) : Prop where
  head : ∀ s, R.mem s B.head = true → P.head s = true
  tail : ∀ s, ∀ c ∈ B.tail, R.mem s c = true → P.tail s = true
  new : ∀ s, P.new s = true → R.mem s B.new = true
  word : ∀ s, P.word s = true → ∀ c, R.mem s c = true → R.word c = true ∧ B.tail.head? ≠ some c

/-- Does every match start with a letter of a set with the property? -/
def leads (f : σ → Bool) : Regex σ → Bool
  | set s => f s
  | cat r _ => r.leads f
  | alt r s => r.leads f && s.leads f
  | eps | bound | start | stop | star _ => false

/-- Follow the expression from a position that is exact, or from any; the result tells whether it ends
at an exact position. -/
def slides (P : Probe σ) : Regex σ → Bool → Option Bool
  | eps, exact => some exact
  | set s, exact =>
    if !exact && P.tail s then none
    else if P.head s then if P.new s then some false else none
    else some true
  | bound, exact => if exact then some true else none
  | start, _ => some true
  | stop, exact => some exact
  | cat bound s, exact => if exact || s.leads P.word then s.slides P true else none
  | cat r s, exact => (r.slides P exact).bind (s.slides P)
  | alt r s, exact =>
    match r.slides P exact, s.slides P exact with
    | some e, some e' => some (e && e')
    | _, _ => none
  | star (set s), exact => if P.head s && !P.new s then none else some (exact && !P.head s)
  | star r, exact => if r.slides P exact = some exact then some exact else none

variable {B : Block α} {R : Reader σ α} {P : Probe σ} {r s : Regex σ} {exact exact' : Bool}
  {p q p' q' : Pos α} {c : α} {x : List α} {m : List (Option α)}

/-- The text around a position. -/
def Pos.text (p : Pos α) : List α := p.before.reverse ++ p.after

lemma Pos.text_cons (h : p.after = c :: x) : Pos.text ⟨c :: p.before, x⟩ = p.text := by
  rw [text, text, h, List.reverse_cons, List.append_assoc]
  rfl

namespace Block

/-- Positions that correspond exactly correspond. -/
lemma At.weaken (h : B.At exact p p') : B.At false p p' := by
  cases h with
  | out => exact .out nofun
  | inside h hl => exact .inside h hl

/-- Less may be asked of the correspondence. -/
lemma At.drop (h : B.At exact p p') (he : exact' = true → exact = true) : B.At exact' p p' := by
  cases exact' with
  | false => exact h.weaken
  | true => exact he rfl ▸ h

/-- The next letter of the long text is the next of the short one, or the first of a block, or it is
inside one. -/
lemma At.next (h : B.At exact p p') (ht : B.tail ≠ []) (hp : p.after = c :: x) :
    (∃ x', p'.after = c :: x' ∧ B.At true ⟨c :: p.before, x⟩ ⟨c :: p'.before, x'⟩)
      ∨ (c = B.head ∧ ∃ x', p'.after = B.new :: x'
          ∧ B.At false ⟨c :: p.before, x⟩ ⟨B.new :: p'.before, x'⟩)
      ∨ (exact = false ∧ c ∈ B.tail ∧ B.At false ⟨c :: p.before, x⟩ p') := by
  cases h with
  | @out _ m n h =>
    cases n with
    | nil => cases hp
    | cons o n =>
      cases o with
      | some d =>
        obtain ⟨rfl, rfl⟩ := List.cons_eq_cons.mp hp
        refine .inl ⟨B.short n, rfl, ?_⟩
        exact @At.out _ B true (some d :: m) n fun _ h => by cases h
      | none =>
        obtain ⟨rfl, rfl⟩ := List.cons_eq_cons.mp hp
        exact .inr (.inl ⟨rfl, B.short n, rfl, @At.inside _ B m n [] B.tail rfl ht⟩)
  | @inside m n js ls h hl =>
    cases ls with
    | nil => exact absurd rfl hl
    | cons d ls =>
      obtain ⟨rfl, rfl⟩ := List.cons_eq_cons.mp hp
      refine .inr (.inr ⟨rfl, ?_, ?_⟩)
      · rw [h]
        exact List.mem_append_right _ (.head _)
      · cases ls with
        | nil =>
          have hb : d :: (js ++ B.head :: B.longBack m) = B.longBack (none :: m) := by
            show _ = (B.tail.reverse ++ [B.head]) ++ B.longBack m
            rw [h, List.reverse_append, List.reverse_reverse, List.append_assoc]
            rfl
          show B.At false ⟨d :: (js ++ B.head :: B.longBack m), B.long n⟩ _
          rw [hb]
          exact @At.out _ B false (none :: m) n nofun
        | cons d' ls =>
          refine @At.inside _ B m n (d :: js) (d' :: ls) ?_ (List.cons_ne_nil _ _)
          rw [h, List.reverse_cons, List.append_assoc]
          rfl

end Block

/-! ## One expression at a time -/

/-- A set spans one of its characters. -/
lemma spans_set {s : σ} : Spans R (set s) p q
    ↔ ∃ c x, p.after = c :: x ∧ q = ⟨c :: p.before, x⟩ ∧ R.mem s c = true := by
  constructor
  · rintro ⟨w, ha, hb, h⟩
    obtain ⟨b, x⟩ := q
    cases h with
    | @set _ _ c _ hm => exact ⟨c, x, ha, by rw [← show b = c :: p.before from hb], hm⟩
  · rintro ⟨c, x, ha, rfl, hm⟩
    exact ⟨[c], ha, rfl, .set hm⟩

/-- The empty pattern spans nothing. -/
lemma spans_eps : Spans R eps p q ↔ q = p := mem_ends.symm.trans List.mem_singleton

/-- A choice spans what one of its sides does. -/
lemma spans_alt : Spans R (alt r s) p q ↔ Spans R r p q ∨ Spans R s p q :=
  mem_ends.symm.trans (List.mem_append.trans (or_congr mem_ends mem_ends))

/-- A word boundary spans nothing, between a word character and another. -/
lemma spans_bound : Spans R bound p q ↔ q = p ∧ R.boundAt p.before p.after = true := by
  rw [← mem_ends, ends]
  split
  case isTrue h => rw [List.mem_singleton, and_iff_left h]
  case isFalse h => exact iff_of_false List.not_mem_nil fun hq => h hq.2

lemma spans_start : Spans R start p q ↔ q = p ∧ p.before = [] := by
  rw [← mem_ends, ends]
  split
  case isTrue h => rw [List.mem_singleton, and_iff_left (List.isEmpty_iff.mp h)]
  case isFalse h => exact iff_of_false List.not_mem_nil fun hq => h (List.isEmpty_iff.mpr hq.2)

/-- The end spans nothing, at the end. -/
lemma spans_stop : Spans R stop p q ↔ q = p ∧ p.after = [] := by
  rw [← mem_ends, ends]
  split
  case isTrue h => rw [List.mem_singleton, and_iff_left (List.isEmpty_iff.mp h)]
  case isFalse h => exact iff_of_false List.not_mem_nil fun hq => h (List.isEmpty_iff.mpr hq.2)

namespace Block

/-- The start of the long text is that of the short one. -/
lemma At.start (h : B.At exact p p') (hp : p.before = []) : B.At true p p' ∧ p'.before = [] := by
  cases h with
  | @out _ m n h =>
    cases m with
    | nil => exact ⟨.out nofun, rfl⟩
    | cons o m =>
      cases o with
      | none =>
        obtain ⟨h, -⟩ := List.append_eq_nil_iff.mp hp
        exact absurd (List.append_eq_nil_iff.mp h).2 (List.cons_ne_nil _ _)
      | some c => cases hp
  | @inside m n js ls h hl =>
    exact absurd (List.append_eq_nil_iff.mp hp).2 (List.cons_ne_nil _ _)

/-- The end of the long text is that of the short one. -/
lemma At.stop (h : B.At exact p p') (hp : p.after = []) : p'.after = [] := by
  cases h with
  | @out _ m n h =>
    cases n with
    | nil => rfl
    | cons o n =>
      cases o with
      | none => cases hp
      | some c => cases hp
  | @inside m n js ls h hl => exact absurd (List.append_eq_nil_iff.mp hp).1 hl

end Block

/-- A sequence slides part by part. -/
lemma slides_cat (hr : r ≠ bound) :
    (cat r s).slides P exact = (r.slides P exact).bind (s.slides P) := by
  cases r with
  | bound => exact absurd rfl hr
  | _ => rfl

/-- A repetition slides if one round does, back to where it began. -/
lemma slides_star (hr : ∀ s, r ≠ set s) :
    (star r).slides P exact = if r.slides P exact = some exact then some exact else none := by
  cases r with
  | set s => exact absurd rfl (hr s)
  | _ => rfl

variable (hP : P.Sound R B) (hB : B.Fair R)
include hP hB

/-- A character is matched in both texts. -/
lemma slide_set {s : σ} (h : Spans R (set s) p q) (hp : B.At exact p p')
    (hr : (set s).slides P exact = some exact') : ∃ q', Spans R (set s) p' q' ∧ B.At exact' q q' := by
  obtain ⟨c, x, ha, rfl, hm⟩ := spans_set.mp h
  rw [slides] at hr
  split at hr
  case isTrue => cases hr
  case isFalse ht =>
    obtain ⟨x', ha', hq⟩ | ⟨rfl, x', ha', hq⟩ | ⟨rfl, hc, -⟩ := hp.next hB.tail_ne ha
    · exact ⟨_, spans_set.mpr ⟨c, x', ha', rfl, hm⟩, hq.drop fun _ => rfl⟩
    · rw [if_pos (hP.head s hm)] at hr
      split at hr
      case isTrue hn =>
        cases hr
        exact ⟨_, spans_set.mpr ⟨B.new, x', ha', rfl, hP.new s hn⟩, hq⟩
      case isFalse => cases hr
    · rw [hP.tail s c hc hm] at ht
      exact absurd rfl ht

/-- Repeating a set may read on inside a block, where the short text has nothing left. -/
lemma slide_star_set {s : σ} (h : Spans R (star (set s)) p q) (hp : B.At exact p p')
    (hr : (star (set s)).slides P exact = some exact') :
    ∃ q', Spans R (star (set s)) p' q' ∧ B.At exact' q q' := by
  rw [slides] at hr
  split at hr
  case isTrue => cases hr
  case isFalse hn =>
    cases hr
    generalize hl : p.after.length = n
    induction n using Nat.strongRecOn generalizing p p' exact with
    | ind n ih =>
      obtain rfl | ⟨t, ht, hlt, hq⟩ := spans_star h
      · refine ⟨p', ⟨[], rfl, rfl, .done⟩, hp.drop fun he => ?_⟩
        exact (Bool.and_eq_true_iff.mp he).1
      · obtain ⟨c, x, ha, rfl, hm⟩ := spans_set.mp ht
        obtain ⟨x', ha', hat⟩ | ⟨rfl, x', ha', hat⟩ | ⟨rfl, hc, hat⟩ := hp.next hB.tail_ne ha
        · obtain ⟨q', hs, hq'⟩ := ih _ (hl ▸ hlt) hq (hat.drop fun _ => rfl) rfl
          exact ⟨q', spans_more (spans_set.mpr ⟨c, x', ha', rfl, hm⟩) hs, hq'⟩
        · -- the set has the first letter of the block, so it has the new one
          have hh := hP.head s hm
          have hnew : P.new s = true := by simpa [hh] using hn
          obtain ⟨q', hs, hq'⟩ := ih _ (hl ▸ hlt) hq hat rfl
          refine ⟨q', spans_more (spans_set.mpr ⟨B.new, x', ha', rfl, hP.new s hnew⟩) hs, ?_⟩
          exact hq'.drop fun he => by simp [hh] at he
        · exact ih _ (hl ▸ hlt) hq hat rfl

omit hP in
/-- Where positions correspond exactly, boundaries do. -/
lemma boundAt_exact (hp : B.At true p p') (hc : R.boundAt p.before p.after = true) :
    R.boundAt p'.before p'.after = true := by
  cases hp with
  | @out _ m n h =>
    have hb : R.wordAt (B.longBack m) = R.wordAt (B.short m) := by
      cases m with
      | nil => rfl
      | cons o m =>
        cases o with
        | none => exact absurd rfl (h rfl)
        | some c => rfl
    have ha : R.wordAt (B.long n) = R.wordAt (B.short n) := by
      cases n with
      | nil => rfl
      | cons o n =>
        cases o with
        | none => exact hB.head.trans hB.new.symm
        | some c => rfl
    rw [Reader.boundAt, ← hb, ← ha]
    exact hc

omit hB in
/-- A pattern that leads with a word begins with a word character, and not the one behind the other
spelling. -/
lemma leads_spec (h : Spans R r p q) (hr : r.leads P.word = true) :
    ∃ c x, p.after = c :: x ∧ R.word c = true ∧ B.tail.head? ≠ some c := by
  induction r generalizing p q with
  | set s =>
    obtain ⟨c, x, ha, -, hm⟩ := spans_set.mp h
    exact ⟨c, x, ha, hP.word s hr c hm⟩
  | cat r s ihr ihs =>
    obtain ⟨t, h, -⟩ := spans_cat.mp h
    exact ihr h hr
  | alt r s ihr ihs =>
    obtain ⟨hr, hs⟩ := Bool.and_eq_true_iff.mp hr
    obtain h | h := spans_alt.mp h
    · exact ihr h hr
    · exact ihs h hs
  | eps | bound | start | stop | star => cases hr

omit hP in
/-- A word boundary in front of a letter of a word is at an exact position. -/
lemma exact_of_bound (hp : B.At exact p p') (hc : R.boundAt p.before p.after = true)
    (ha : p.after = c :: x) (hw : R.word c = true) (ht : B.tail.head? ≠ some c) :
    B.At true p p' := by
  have hnext : R.wordAt p.after = true := by
    rw [ha]
    exact hw
  have hprev : R.wordAt p.before = false := by
    rw [Reader.boundAt, hnext] at hc
    simpa using hc
  cases hp with
  | @out _ m n h =>
    refine .out fun _ hm => ?_
    cases m with
    | nil => cases hm
    | cons o m =>
      cases hm
      -- the letter before is the last of a block
      obtain ⟨c, l, hl⟩ := List.exists_cons_of_ne_nil (mt List.reverse_eq_nil_iff.mp hB.tail_ne)
      have hc : R.word c = true := by
        refine hB.tail c (List.mem_reverse.mp ?_)
        rw [hl]
        exact .head _
      have hb : R.wordAt (B.tail.reverse ++ [B.head] ++ B.longBack m) = false := hprev
      rw [hl] at hb
      exact absurd (hb.symm.trans hc) Bool.false_ne_true
  | @inside m n js ls h hl =>
    cases js with
    | nil =>
      cases ls with
      | nil => exact absurd rfl hl
      | cons d ls =>
        obtain ⟨rfl, -⟩ := List.cons_eq_cons.mp ha
        rw [h] at ht
        exact absurd rfl ht
    | cons j js =>
      have hj : R.word j = true := by
        refine hB.tail j ?_
        rw [h, List.reverse_cons]
        exact List.mem_append_left _ (List.mem_append_right _ (.head _))
      exact absurd (hprev.symm.trans hj) Bool.false_ne_true

/-- What is read of the long text can be read of the short one. -/
theorem slide (h : Spans R r p q) (hp : B.At exact p p')
    (hr : r.slides P exact = some exact') : ∃ q', Spans R r p' q' ∧ B.At exact' q q' := by
  induction r generalizing p q p' exact exact' with
  | eps =>
    cases hr
    obtain rfl := spans_eps.mp h
    exact ⟨p', spans_eps.mpr rfl, hp⟩
  | set s => exact slide_set hP hB h hp hr
  | bound =>
    cases exact with
    | false => cases hr
    | true =>
      cases hr
      obtain ⟨rfl, hc⟩ := spans_bound.mp h
      exact ⟨p', spans_bound.mpr ⟨rfl, boundAt_exact hB hp hc⟩, hp⟩
  | start =>
    cases hr
    obtain ⟨rfl, hb⟩ := spans_start.mp h
    obtain ⟨hp, hb⟩ := hp.start hb
    exact ⟨p', spans_start.mpr ⟨rfl, hb⟩, hp⟩
  | stop =>
    cases hr
    obtain ⟨rfl, ha⟩ := spans_stop.mp h
    exact ⟨p', spans_stop.mpr ⟨rfl, hp.stop ha⟩, hp⟩
  | cat r s ihr ihs =>
    obtain ⟨t, hrt, hst⟩ := spans_cat.mp h
    by_cases hb : r = bound
    case pos =>
      subst hb
      obtain ⟨rfl, hc⟩ := spans_bound.mp hrt
      rw [slides] at hr
      split at hr
      case isFalse => cases hr
      case isTrue hl =>
        have hat : B.At true t p' := by
          cases exact with
          | true => exact hp
          | false =>
            obtain ⟨c, x, ha, hw, ht⟩ := leads_spec hP hst hl
            exact exact_of_bound hB hp hc ha hw ht
        obtain ⟨q', hs, hq⟩ := ihs hst hat hr
        exact ⟨q', spans_cat.mpr ⟨p', spans_bound.mpr ⟨rfl, boundAt_exact hB hat hc⟩, hs⟩, hq⟩
    case neg =>
      rw [slides_cat hb, Option.bind_eq_some_iff] at hr
      obtain ⟨e, hr, hs⟩ := hr
      obtain ⟨t', hr', ht⟩ := ihr hrt hp hr
      obtain ⟨q', hs', hq⟩ := ihs hst ht hs
      exact ⟨q', spans_cat.mpr ⟨t', hr', hs'⟩, hq⟩
  | alt r s ihr ihs =>
    rw [slides] at hr
    split at hr
    case h_2 => cases hr
    case h_1 e e' hr' hs' =>
      cases hr
      obtain h | h := spans_alt.mp h
      · obtain ⟨q', h, hq⟩ := ihr h hp hr'
        exact ⟨q', spans_alt.mpr (.inl h), hq.drop fun he => (Bool.and_eq_true_iff.mp he).1⟩
      · obtain ⟨q', h, hq⟩ := ihs h hp hs'
        exact ⟨q', spans_alt.mpr (.inr h), hq.drop fun he => (Bool.and_eq_true_iff.mp he).2⟩
  | star r ih =>
    by_cases hset : ∃ s, r = set s
    case pos =>
      obtain ⟨s, rfl⟩ := hset
      exact slide_star_set hP hB h hp hr
    case neg =>
      rw [slides_star fun s hs => hset ⟨s, hs⟩] at hr
      split at hr
      case isFalse => cases hr
      case isTrue he =>
        cases hr
        generalize hl : p.after.length = n
        induction n using Nat.strongRecOn generalizing p p' with
        | ind n ihn =>
          obtain rfl | ⟨t, ht, hlt, hq⟩ := spans_star h
          · exact ⟨p', ⟨[], rfl, rfl, .done⟩, hp⟩
          · obtain ⟨t', ht', hat⟩ := ih ht hp he
            obtain ⟨q', hs, hq'⟩ := ihn _ (hl ▸ hlt) hq hat rfl
            exact ⟨q', spans_more ht' hs, hq'⟩

omit hP in
/-- Every position of the long text has its place in the short one. -/
lemma exists_at {b w : List α} (hp : B.At exact ⟨b, w ++ x⟩ p') :
    ∃ q', B.At false ⟨w.reverse ++ b, x⟩ q' ∧ q'.text = p'.text := by
  induction w generalizing b exact p' with
  | nil => exact ⟨p', hp.weaken, rfl⟩
  | cons c w ih =>
    rw [List.reverse_cons, List.append_assoc]
    obtain ⟨x', ha, hat⟩ | ⟨-, x', ha, hat⟩ | ⟨-, -, hat⟩ := hp.next hB.tail_ne rfl
    · obtain ⟨q', hq, he⟩ := ih hat
      exact ⟨q', hq, he.trans (Pos.text_cons ha)⟩
    · obtain ⟨q', hq, he⟩ := ih hat
      exact ⟨q', hq, he.trans (Pos.text_cons ha)⟩
    · exact ih hat

/-- A match of the text with blocks is one of the text with the new letter. -/
theorem Matches.short (h : Matches R r (B.long m)) (hr : (r.slides P false).isSome = true) :
    Matches R r (B.short m) := by
  obtain ⟨b, w, a, ht, h⟩ := h
  obtain ⟨e, hr⟩ := Option.isSome_iff_exists.mp hr
  have h₀ : B.At true ⟨[], b.reverse ++ (w ++ a)⟩ ⟨[], B.short m⟩ := by
    rw [ht]
    exact @Block.At.out _ B true [] m nofun
  obtain ⟨p', hp, he⟩ := exists_at hB h₀
  rw [List.reverse_reverse, List.append_nil] at hp
  obtain ⟨q', ⟨w', ha, -, h⟩, -⟩ := slide hP hB h.spans hp hr
  exact ⟨p'.before, w', q'.after, by rw [← ha]; exact he, h⟩

end Lib.Regex
