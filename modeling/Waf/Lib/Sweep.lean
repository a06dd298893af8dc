import Mathlib.Tactic

/-!
# Tables with sweeps

A table has an entry for each key, and a fresh one for a key without. An input is about one key: a sweep
drops entries, and the entry of the key takes a step. When a dropped entry is `Stale`, so that its next
step is that of a fresh one, no step tells that there were sweeps, or other keys: the entry after a step
is the fold of the inputs of its key (`step_run`).

Entries are `Alike` when no later step tells them apart. Sweeps and inputs of other keys leave an entry
alike (`alike_sweep`, `alike_see`), and the same step makes alike entries the same (`Alike.step`), so that
two tables can be compared key by key although they were swept at different times.
-/

namespace Lib

variable {T K X σ : Type} [DecidableEq K]

/-- The inputs of one key. -/
def inputsOf (k : K) (seen : List (K × X)) : List X := (seen.filter fun e => e.1 = k).map Prod.snd

lemma inputsOf_concat {k k' : K} {x : X} {seen : List (K × X)} : inputsOf k (seen ++ [(k', x)])
    = if k = k' then inputsOf k seen ++ [x] else inputsOf k seen := by
  rw [inputsOf, List.filter_append, List.map_append, ← inputsOf]
  by_cases h : k = k'
  case pos =>
    subst h
    have hone : [(k, x)].filter (fun e => decide (e.1 = k)) = [(k, x)] := by simp
    rw [if_pos rfl, hone]
    rfl
  case neg =>
    have hnone : [(k', x)].filter (fun e => decide (e.1 = k)) = [] := by simp [Ne.symm h]
    rw [if_neg h, hnone]
    exact List.append_nil _

/-- A table of type `T` with keys `K`, inputs `X` and entries `σ`. -/
structure SweptTable (T K X σ : Type) [DecidableEq K] where
  entry : T → K → σ
  sweep : T → Nat → T
  see : T → K × X → T
  fresh : σ
  time : X → Nat
  step : σ → X → σ
  /-- The next step of the entry is that of a fresh one. -/
  Stale : σ → Nat → Prop
  stale_mono {s : σ} {m n : Nat} : Stale s m → m ≤ n → Stale s n
  stale_step {s : σ} {x : X} : Stale s (time x) → step s x = step fresh x
  entry_sweep (t : T) (k : K) (n : Nat) :
    entry (sweep t n) k = entry t k ∨ (entry (sweep t n) k = fresh ∧ Stale (entry t k) n)
  entry_see (t : T) (k k' : K) (x : X) : entry (see t (k', x)) k
    = if k = k' then step (entry (sweep t (time x)) k) x else entry (sweep t (time x)) k

namespace SweptTable

variable {M : SweptTable T K X σ} {t : T} {k : K} {s : σ} {x : X} {clock now : Nat}
  {seen : List (K × X)}

def run (M : SweptTable T K X σ) (t : T) (seen : List (K × X)) : T := seen.foldl M.see t

/-- The times of a run do not decrease. -/
def Clocked (M : SweptTable T K X σ) (seen : List (K × X)) : Prop :=
  (seen.map fun e => M.time e.2).Pairwise (· ≤ ·)

/-- The table has the entry, or has dropped it when it was stale. -/
def Follows (M : SweptTable T K X σ) (t : T) (k : K) (s : σ) (clock : Nat) : Prop :=
  M.entry t k = s ∨ (M.entry t k = M.fresh ∧ M.Stale s clock)

lemma Follows.mono (h : M.Follows t k s clock) (hnow : clock ≤ now) : M.Follows t k s now :=
  h.imp_right fun ⟨hentry, hstale⟩ => ⟨hentry, M.stale_mono hstale hnow⟩

/-- A sweep does not make an entry lose them. -/
lemma Follows.sweep (h : M.Follows t k s now) : M.Follows (M.sweep t now) k s now := by
  rcases h with h | ⟨h, hstale⟩
  · rcases M.entry_sweep t k now with hkeep | ⟨hdrop, hstale⟩
    · exact .inl (hkeep.trans h)
    · exact .inr ⟨hdrop, h ▸ hstale⟩
  · refine .inr ⟨?_, hstale⟩
    rcases M.entry_sweep t k now with hkeep | ⟨hdrop, -⟩
    · exact hkeep.trans h
    · exact hdrop

/-- An entry that follows its inputs steps as if it had not been swept. -/
lemma Follows.step (h : M.Follows t k s (M.time x)) : M.step (M.entry t k) x = M.step s x := by
  rcases h with h | ⟨h, hstale⟩
  · rw [h]
  · rw [h, M.stale_step hstale]

lemma Clocked.init {e : K × X} (h : M.Clocked (seen ++ [e])) : M.Clocked seen := by
  rw [Clocked, List.map_append] at h
  exact (List.pairwise_append.mp h).1

/-- No input is later than the last. -/
lemma Clocked.le_last {e : K × X} (h : M.Clocked (seen ++ [e])) :
    ∀ e' ∈ seen, M.time e'.2 ≤ M.time e.2 := by
  intro e' he'
  rw [Clocked, List.map_append] at h
  exact (List.pairwise_append.mp h).2.2 _ (List.mem_map_of_mem he') _ (.head _)

/-- The table follows the inputs of a key. -/
lemma follows_run (hfresh : M.entry t k = M.fresh) (h : M.Clocked seen)
    (hclock : ∀ e ∈ seen, M.time e.2 ≤ clock) :
    M.Follows (M.run t seen) k ((inputsOf k seen).foldl M.step M.fresh) clock := by
  induction seen using List.reverseRecOn generalizing clock with
  | nil => exact .inl hfresh
  | append_singleton seen e ih =>
    obtain ⟨k', x⟩ := e
    have hfollows := (ih h.init h.le_last).sweep
    have hx : M.time x ≤ clock := hclock (k', x) (List.mem_append_right _ (.head _))
    have hrun : M.run t (seen ++ [(k', x)]) = M.see (M.run t seen) (k', x) := List.foldl_concat ..
    rw [hrun, inputsOf_concat, Follows, M.entry_see]
    split
    case isTrue =>
      rw [List.foldl_concat]
      exact .inl hfollows.step
    case isFalse => exact hfollows.mono hx

/-- A step is that of the fold of the inputs of its key. -/
lemma step_run (hfresh : M.entry t k = M.fresh) (h : M.Clocked (seen ++ [(k, x)])) :
    M.step (M.entry (M.sweep (M.run t seen) (M.time x)) k) x
        = (inputsOf k (seen ++ [(k, x)])).foldl M.step M.fresh
      ∧ M.entry (M.see (M.run t seen) (k, x)) k
        = (inputsOf k (seen ++ [(k, x)])).foldl M.step M.fresh := by
  have hfollows : M.Follows (M.sweep (M.run t seen) (M.time x)) k _ (M.time x) :=
    (follows_run hfresh h.init h.le_last).sweep
  rw [M.entry_see, if_pos rfl, inputsOf_concat, if_pos rfl, List.foldl_concat, hfollows.step]
  exact ⟨rfl, rfl⟩

/-! ## Two tables -/

/-- No step from now on tells the entries apart. -/
def Alike (M : SweptTable T K X σ) (s s' : σ) (clock : Nat) : Prop :=
  ∀ x, clock ≤ M.time x → M.step s x = M.step s' x

variable {s' s'' : σ} {t' : T} {k' : K}

lemma Alike.refl : M.Alike s s clock := fun _ _ => rfl

lemma Alike.symm (h : M.Alike s s' clock) : M.Alike s' s clock := fun x hx => (h x hx).symm

lemma Alike.trans (h : M.Alike s s' clock) (h' : M.Alike s' s'' clock) : M.Alike s s'' clock :=
  fun x hx => (h x hx).trans (h' x hx)

lemma Alike.mono (h : M.Alike s s' clock) (hnow : clock ≤ now) : M.Alike s s' now :=
  fun x hx => h x (hnow.trans hx)

/-- A sweep drops an entry only when that makes no difference. -/
lemma alike_sweep : M.Alike (M.entry (M.sweep t now) k) (M.entry t k) now := by
  intro x hx
  rcases M.entry_sweep t k now with hkeep | ⟨hdrop, hstale⟩
  · rw [hkeep]
  · rw [hdrop, M.stale_step (M.stale_mono hstale hx)]

/-- An input of another key is only a sweep. -/
lemma alike_see (hk : k ≠ k') : M.Alike (M.entry (M.see t (k', x)) k) (M.entry t k) (M.time x) := by
  rw [M.entry_see, if_neg hk]
  exact alike_sweep

/-- Alike entries take the same step, behind any sweeps. -/
lemma Alike.step (h : M.Alike (M.entry t k) (M.entry t' k) (M.time x)) :
    M.step (M.entry (M.sweep t (M.time x)) k) x = M.step (M.entry (M.sweep t' (M.time x)) k) x
      ∧ M.entry (M.see t (k, x)) k = M.entry (M.see t' (k, x)) k := by
  have hswept := (alike_sweep.trans (h.trans alike_sweep.symm)) x le_rfl
  rw [M.entry_see, M.entry_see, if_pos rfl, if_pos rfl]
  exact ⟨hswept, hswept⟩

/-- The tables are alike for the keys of `p`. -/
def AlikeOn (M : SweptTable T K X σ) (p : K → Prop) (t t' : T) (clock : Nat) : Prop :=
  ∀ k, p k → M.Alike (M.entry t k) (M.entry t' k) clock

variable {p : K → Prop} {t'' : T}

lemma AlikeOn.refl : M.AlikeOn p t t clock := fun _ _ => .refl

lemma AlikeOn.symm (h : M.AlikeOn p t t' clock) : M.AlikeOn p t' t clock := fun k hk => (h k hk).symm

lemma AlikeOn.trans (h : M.AlikeOn p t t' clock) (h' : M.AlikeOn p t' t'' clock) :
    M.AlikeOn p t t'' clock := fun k hk => (h k hk).trans (h' k hk)

lemma AlikeOn.mono (h : M.AlikeOn p t t' clock) (hnow : clock ≤ now) : M.AlikeOn p t t' now :=
  fun k hk => (h k hk).mono hnow

/-- The same input leaves the tables alike. -/
lemma AlikeOn.see (h : M.AlikeOn p t t' (M.time x)) :
    M.AlikeOn p (M.see t (k, x)) (M.see t' (k, x)) (M.time x) := by
  intro k' hk'
  by_cases heq : k' = k
  case pos =>
    subst heq
    rw [(h k' hk').step.2]
    exact .refl
  case neg => exact (alike_see heq).trans ((h k' hk').trans (alike_see heq).symm)

/-- An input of another key leaves a table alike. -/
lemma alikeOn_see (hk : ¬ p k) : M.AlikeOn p (M.see t (k, x)) t (M.time x) := by
  intro k' hk'
  refine alike_see ?_
  rintro rfl
  exact hk hk'

end SweptTable

end Lib
