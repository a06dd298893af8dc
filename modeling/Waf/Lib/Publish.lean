import Mathlib.Data.List.Basic
import Mathlib.Logic.Function.Basic
import Mathlib.Tactic.Common

/-!
# Saving a state by write and rename

Any number of calls save one shared state: each takes a snapshot, writes it to a temporary file that
all of them share and renames that file over the target. The steps of the calls interleave with each
other and with updates of the state. Every snapshot is stamped with the number of updates before it.

The file that is left over is the snapshot of the call that writes last (`Run.published`), whichever
call renames it. So the target is up to date iff no update follows that snapshot
(`Run.upToDate_iff`); the order in which the calls take their snapshots or return does not matter.
-/

namespace Lib.Publish

variable {ι τ Mem Snap : Type*}

/-- A snapshot with the number of updates before it, `none` if it is from before the run. -/
structure Copy (Snap : Type*) where
  value : Snap
  taken : Option Nat

inductive Phase (Snap : Type*) where
  | idle
  | pending
  | held (c : Copy Snap)
  | written
  | returned

structure State (ι Mem Snap : Type*) where
  mem : Mem
  updates : Nat
  phase : ι → Phase Snap
  tmp : Option (Copy Snap)
  target : Option (Copy Snap)

inductive Event (ι τ Mem : Type*) where
  /-- An update by a task that saves it later, with its call `i`. -/
  | update (i : ι) (f : Mem → Mem)
  /-- A call that follows no update. -/
  | call (i : ι)
  | snap (i : ι) (t : τ)
  | write (i : ι)
  | rename (i : ι)

/-- The state before the first event, with the files as they are. -/
def State.start (mem : Mem) (tmp target : Option Snap) : State ι Mem Snap where
  mem := mem
  updates := 0
  phase _ := .idle
  tmp := tmp.map fun v => ⟨v, none⟩
  target := target.map fun v => ⟨v, none⟩

variable [DecidableEq ι]

def State.move (s : State ι Mem Snap) (i : ι) (p : Phase Snap) : State ι Mem Snap :=
  { s with phase := Function.update s.phase i p }

/-- One event. A rename that finds no temporary file fails, and the failure is ignored. -/
inductive Step (take : τ → Mem → Snap) :
    State ι Mem Snap → Event ι τ Mem → State ι Mem Snap → Prop
  | update {s i f} (hi : s.phase i = .idle ∨ s.phase i = .pending) :
    Step take s (.update i f)
      { s.move i .pending with mem := f s.mem, updates := s.updates + 1 }
  | call {s i} (hi : s.phase i = .idle) : Step take s (.call i) (s.move i .pending)
  | snap {s i t} (hi : s.phase i = .pending) :
    Step take s (.snap i t) (s.move i (.held ⟨take t s.mem, some s.updates⟩))
  | write {s i c} (hi : s.phase i = .held c) :
    Step take s (.write i) { s.move i .written with tmp := some c }
  | rename {s i} (hi : s.phase i = .written) :
    Step take s (.rename i)
      { s.move i .returned with tmp := none, target := s.tmp.or s.target }

/-- The events of a run, from a state on. -/
inductive Run (take : τ → Mem → Snap) (s₀ : State ι Mem Snap) :
    List (Event ι τ Mem) → State ι Mem Snap → Prop
  | start : Run take s₀ [] s₀
  | step {es s e s'} (run : Run take s₀ es s) (h : Step take s e s') :
    Run take s₀ (es ++ [e]) s'

/-- Every call has returned. -/
def State.Done (s : State ι Mem Snap) : Prop := ∀ i, s.phase i = .idle ∨ s.phase i = .returned

/-- The target is a snapshot taken after the last update. -/
def State.UpToDate (s : State ι Mem Snap) : Prop :=
  ∃ v, s.target = some ⟨v, some s.updates⟩

namespace Event

def isUpdate : Event ι τ Mem → Bool
  | update _ _ => true
  | _ => false

def isSnap (i : ι) : Event ι τ Mem → Bool
  | snap j _ => decide (j = i)
  | _ => false

def writer : Event ι τ Mem → Option ι
  | write i => some i
  | _ => none

/-- The call that the event is a step of. -/
def task : Event ι τ Mem → ι
  | update i _ | call i | snap i _ | write i | rename i => i

lemma isSnap_other {i : ι} {e : Event ι τ Mem} (h : i ≠ e.task) : e.isSnap i = false := by
  cases e with
  | snap j t => exact decide_eq_false fun hj => h hj.symm
  | update | call | write | rename => rfl

end Event

/-- The call that writes last. -/
def lastWriter (es : List (Event ι τ Mem)) : Option ι := (es.filterMap Event.writer).getLast?

/-- The updates before the snapshot of a call. -/
def takenAt (es : List (Event ι τ Mem)) (i : ι) : Nat :=
  (es.takeWhile fun e => !e.isSnap i).countP Event.isUpdate

/-- The call that writes last takes its snapshot after the last update. -/
def LastWriteFresh (es : List (Event ι τ Mem)) : Prop :=
  ∃ i, lastWriter es = some i ∧ ∀ e ∈ es.dropWhile fun e => !e.isSnap i, e.isUpdate = false

/-! ## Events in order -/

section

variable {es rest : List (Event ι τ Mem)} {e : Event ι τ Mem} {i : ι}

/-- The snapshot of a call that has taken it is not affected by what follows. -/
lemma takenAt_append (h : es.any (Event.isSnap i) = true) :
    takenAt (es ++ rest) i = takenAt es i := by
  unfold takenAt
  congr 1
  induction es with
  | nil => cases h
  | cons e es ih =>
    rw [List.cons_append, List.takeWhile_cons, List.takeWhile_cons]
    cases he : e.isSnap i with
    | true => rfl
    | false =>
      rw [List.any_cons, he, Bool.false_or] at h
      simp only [Bool.not_false, if_true, ih h]

/-- A call that takes its snapshot now does so after all updates so far. -/
lemma takenAt_snap {t : τ} (h : es.any (Event.isSnap i) = false) :
    takenAt (es ++ [.snap i t]) i = es.countP Event.isUpdate := by
  have hall : ∀ e ∈ es, (!e.isSnap i) = true := by
    intro e he
    rw [Bool.not_eq_true', Bool.eq_false_iff]
    exact List.any_eq_false.mp h e he
  have hnow : ¬ (!(Event.snap i t : Event ι τ Mem).isSnap i) = true := by
    rw [Event.isSnap, decide_eq_true rfl]
    nofun
  rw [takenAt, List.takeWhile_append_of_pos hall, List.takeWhile_cons, if_neg hnow,
    List.append_nil]

omit [DecidableEq ι] in
/-- The last writer is the one that has just written. -/
lemma lastWriter_write : lastWriter (es ++ [.write i]) = some i := by
  rw [lastWriter, List.filterMap_append]
  exact List.getLast?_concat

omit [DecidableEq ι] in
lemma lastWriter_append (h : e.writer = none) : lastWriter (es ++ [e]) = lastWriter es := by
  rw [lastWriter, List.filterMap_append, List.filterMap_cons_none h, List.filterMap_nil,
    List.append_nil, lastWriter]

/-- A call takes its snapshot after all updates iff no update follows it. -/
lemma takenAt_eq_iff : takenAt es i = es.countP Event.isUpdate
    ↔ ∀ e ∈ es.dropWhile fun e => !e.isSnap i, e.isUpdate = false := by
  have hsplit : es.countP Event.isUpdate = takenAt es i
      + (es.dropWhile fun e => !e.isSnap i).countP Event.isUpdate := by
    rw [takenAt, ← List.countP_append, List.takeWhile_append_dropWhile]
  rw [hsplit, eq_comm, Nat.add_eq_left, List.countP_eq_zero]
  simp only [Bool.not_eq_true]

end

/-! ## Runs -/

/-- Has a call with this phase taken its snapshot? -/
def Phase.taken : Phase Snap → Bool
  | .idle | .pending => false
  | .held _ | .written | .returned => true

/-- A copy is on its way to the target or has got there. -/
def State.Publishing (s : State ι Mem Snap) (i : ι) (c : Copy Snap) : Prop :=
  (s.tmp = some c ∧ s.phase i = .written) ∨ (s.tmp = none ∧ s.target = some c)

/-- What holds after the events of a run. -/
structure Inv (es : List (Event ι τ Mem)) (s : State ι Mem Snap) : Prop where
  updates : s.updates = es.countP Event.isUpdate
  snapped : ∀ i, (s.phase i).taken = es.any (Event.isSnap i)
  held : ∀ i c, s.phase i = .held c → c.taken = some (takenAt es i)
  quiet : lastWriter es = none → ∀ c, s.tmp = some c ∨ s.target = some c → c.taken = none
  published : ∀ i, lastWriter es = some i → es.any (Event.isSnap i) = true
    ∧ ∃ v, s.Publishing i ⟨v, some (takenAt es i)⟩

section

variable {take : τ → Mem → Snap} {es : List (Event ι τ Mem)} {e : Event ι τ Mem}
  {s s' : State ι Mem Snap} {i j : ι}

/-- A task is in the phase that it moved to. -/
@[simp] lemma move_same {p : Phase Snap} : (s.move i p).phase i = p :=
  Function.update_self _ _ _

lemma move_other {p : Phase Snap} (h : j ≠ i) : (s.move i p).phase j = s.phase j :=
  Function.update_of_ne h _ _

/-- A step of one call leaves the phases of the others as they are. -/
lemma Step.other (hs : Step take s e s') (h : j ≠ e.task) : s'.phase j = s.phase j := by
  cases hs with
  | update | call | snap | write | rename => exact move_other h

/-- Only a write takes a copy off its way to the target. -/
lemma State.Publishing.step {c : Copy Snap} (h : s.Publishing i c) (hs : Step take s e s')
    (hw : e.writer = none) : s'.Publishing i c := by
  obtain ⟨htmp, hphase⟩ | ⟨htmp, htarget⟩ := h
  · cases hs with
    | write => cases hw
    | rename => exact .inr ⟨rfl, by rw [htmp]; rfl⟩
    | @update j _ hj =>
      have hne : i ≠ j := by
        rintro rfl
        rw [hphase] at hj
        exact hj.elim nofun nofun
      exact .inl ⟨htmp, (move_other hne).trans hphase⟩
    | @call j hj | @snap j _ hj =>
      have hne : i ≠ j := by
        rintro rfl
        rw [hphase] at hj
        cases hj
      exact .inl ⟨htmp, (move_other hne).trans hphase⟩
  · cases hs with
    | write => cases hw
    | rename => exact .inr ⟨rfl, by rw [htmp]; exact htarget⟩
    | update | call | snap => exact .inr ⟨htmp, htarget⟩

omit [DecidableEq ι] in
lemma any_concat {p : Event ι τ Mem → Bool} : (es ++ [e]).any p = (es.any p || p e) := by
  rw [List.any_append, List.any_cons, List.any_nil, Bool.or_false]

/-- A call has taken its snapshot in the events iff its phase says so. -/
lemma Inv.snapped_step (h : Inv es s) (hs : Step take s e s') (j : ι) :
    (s'.phase j).taken = (es ++ [e]).any (Event.isSnap j) := by
  rw [any_concat, ← h.snapped]
  by_cases hj : j = e.task
  case neg => rw [hs.other hj, Event.isSnap_other hj, Bool.or_false]
  case pos =>
    subst hj
    cases hs with
    | @update i f hi =>
      show (Phase.taken ((s.move i .pending).phase i)) = _
      rw [move_same]
      obtain hi | hi := hi
      · rw [Event.task, hi]; rfl
      · rw [Event.task, hi]; rfl
    | @call i hi =>
      rw [Event.task, move_same, hi]
      rfl
    | @snap i t hi =>
      rw [Event.task, move_same, Event.isSnap, decide_eq_true rfl, Bool.or_true]
      rfl
    | @write i c hi =>
      show (Phase.taken ((s.move i .written).phase i)) = _
      rw [move_same, Event.task, hi]
      rfl
    | @rename i hi =>
      show (Phase.taken ((s.move i .returned).phase i)) = _
      rw [move_same, Event.task, hi]
      rfl

/-- A snapshot that is held is stamped with the updates before it. -/
lemma Inv.held_step (h : Inv es s) (hs : Step take s e s') {j : ι} {c : Copy Snap}
    (hj : s'.phase j = .held c) : c.taken = some (takenAt (es ++ [e]) j) := by
  by_cases he : j = e.task
  case neg =>
    rw [hs.other he] at hj
    have htaken : es.any (Event.isSnap j) = true := by
      rw [← h.snapped, hj]
      rfl
    rw [takenAt_append htaken]
    exact h.held j c hj
  case pos =>
    subst he
    cases hs with
    | @update i f hi => exact absurd (move_same.symm.trans hj) nofun
    | @call i hi => exact absurd (move_same.symm.trans hj) nofun
    | @write i c hi => exact absurd (move_same.symm.trans hj) nofun
    | @rename i hi => exact absurd (move_same.symm.trans hj) nofun
    | @snap i t hi =>
      have hfresh : es.any (Event.isSnap i) = false := by
        rw [← h.snapped, hi]
        rfl
      obtain rfl := Phase.held.inj (move_same.symm.trans hj)
      rw [Event.task, takenAt_snap hfresh, h.updates]

/-- Until a task writes, files hold copies that no task has taken. -/
lemma Inv.quiet_step (h : Inv es s) (hs : Step take s e s') (hw : lastWriter (es ++ [e]) = none)
    {c : Copy Snap} (hc : s'.tmp = some c ∨ s'.target = some c) : c.taken = none := by
  cases hs with
  | write => exact absurd (lastWriter_write.symm.trans hw) nofun
  | update | call | snap => exact h.quiet ((lastWriter_append rfl).symm.trans hw) c hc
  | rename =>
    have hold := h.quiet ((lastWriter_append rfl).symm.trans hw) c
    obtain hc | hc := hc
    · cases hc
    · exact hold ((Option.or_eq_some_iff.mp hc).imp id And.right)

/-- After a write the last writer has taken a snapshot, and is publishing it. -/
lemma Inv.published_step (h : Inv es s) (hs : Step take s e s') {j : ι}
    (hw : lastWriter (es ++ [e]) = some j) : (es ++ [e]).any (Event.isSnap j) = true
      ∧ ∃ v, s'.Publishing j ⟨v, some (takenAt (es ++ [e]) j)⟩ := by
  cases he : e.writer with
  | none =>
    rw [lastWriter_append he] at hw
    obtain ⟨htaken, v, hv⟩ := h.published j hw
    rw [any_concat, htaken, takenAt_append htaken]
    exact ⟨rfl, v, hv.step hs he⟩
  | some i =>
    cases hs with
    | update | call | snap | rename => cases he
    | @write i' c hi =>
      obtain rfl := Option.some.inj (lastWriter_write.symm.trans hw)
      have htaken : es.any (Event.isSnap i') = true := by
        rw [← h.snapped, hi]
        rfl
      rw [any_concat, htaken, takenAt_append htaken]
      obtain ⟨v, t⟩ := c
      obtain rfl : t = _ := h.held i' _ hi
      exact ⟨rfl, v, .inl ⟨rfl, move_same⟩⟩

/-- A step keeps the invariant. -/
lemma Inv.step (h : Inv es s) (hs : Step take s e s') : Inv (es ++ [e]) s' where
  updates := by
    rw [List.countP_append, List.countP_singleton, ← h.updates]
    cases hs with
    | update | call | snap | write | rename => rfl
  snapped := h.snapped_step hs
  held _ _ := h.held_step hs
  quiet hw _ := h.quiet_step hs hw
  published _ := h.published_step hs

lemma Inv.start {mem : Mem} {tmp target : Option Snap} :
    Inv ([] : List (Event ι τ Mem)) (State.start mem tmp target) where
  updates := rfl
  snapped _ := rfl
  held _ _ := nofun
  quiet _ c hc := by
    obtain hc | hc := hc
    · obtain ⟨v, -, rfl⟩ := Option.map_eq_some_iff.mp hc
      rfl
    · obtain ⟨v, -, rfl⟩ := Option.map_eq_some_iff.mp hc
      rfl
  published _ := nofun

/-- The invariant holds after every run. -/
lemma Run.inv {mem : Mem} {tmp target : Option Snap}
    (h : Run take (State.start mem tmp target) es s) : Inv es s := by
  induction h with
  | start => exact .start
  | step _ hs ih => exact ih.step hs

/-- When all calls have returned, the target is the snapshot of the call that wrote last. -/
lemma Run.published {mem : Mem} {tmp target : Option Snap}
    (h : Run take (State.start mem tmp target) es s) (hdone : s.Done)
    (hw : lastWriter es = some i) : ∃ v, s.target = some ⟨v, some (takenAt es i)⟩ := by
  obtain ⟨-, v, ⟨-, hphase⟩ | ⟨-, htarget⟩⟩ := h.inv.published i hw
  · obtain hi | hi := hdone i
    · cases hi.symm.trans hphase
    · cases hi.symm.trans hphase
  · exact ⟨v, htarget⟩

/-- When all calls have returned, the target is up to date iff the call that wrote last had taken its
snapshot after the last update. -/
theorem Run.upToDate_iff {mem : Mem} {tmp target : Option Snap}
    (h : Run take (State.start mem tmp target) es s) (hdone : s.Done) :
    s.UpToDate ↔ LastWriteFresh es := by
  cases hw : lastWriter es with
  | none =>
    constructor
    · rintro ⟨v, hv⟩
      cases h.inv.quiet hw _ (.inr hv)
    · rintro ⟨i, hi, -⟩
      cases hw.symm.trans hi
  | some i =>
    obtain ⟨v, hv⟩ := h.published hdone hw
    have key : s.UpToDate ↔ takenAt es i = s.updates := by
      rw [State.UpToDate, hv]
      simp only [Option.some.injEq, Copy.mk.injEq, exists_eq_left']
    rw [key, h.inv.updates, takenAt_eq_iff, LastWriteFresh, hw]
    simp only [Option.some.injEq, exists_eq_left']

/-- A copy with the newest stamp shows the state as it is. -/
def State.Honest (take : τ → Mem → Snap) (s : State ι Mem Snap) (c : Copy Snap) : Prop :=
  ∀ n, c.taken = some n → n ≤ s.updates ∧ (n = s.updates → ∃ t, c.value = take t s.mem)

/-- The copies of a state: in the hands of the calls and in the two files. -/
def State.Holds (s : State ι Mem Snap) (c : Copy Snap) : Prop :=
  (∃ i, s.phase i = .held c) ∨ s.tmp = some c ∨ s.target = some c

omit [DecidableEq ι] in
/-- An update makes every stamp an old one. -/
lemma State.Honest.update {c : Copy Snap} {f : Mem → Mem} {phase : ι → Phase Snap}
    (h : s.Honest take c) :
    State.Honest take { s with mem := f s.mem, updates := s.updates + 1, phase := phase } c := by
  intro n hn
  obtain ⟨hle, -⟩ := h n hn
  exact ⟨Nat.le_succ_of_le hle, fun heq => absurd hle (by rw [heq]; exact Nat.not_succ_le_self _)⟩

/-- The copies after a step are those before it and the snapshot that it takes. -/
lemma Step.holds {c : Copy Snap} (hs : Step take s e s') (hc : s'.Holds c) :
    s.Holds c ∨ ∃ t, c = ⟨take t s.mem, some s.updates⟩ ∧ s'.mem = s.mem ∧ s'.updates = s.updates := by
  obtain ⟨j, hj⟩ | hfile := hc
  · by_cases he : j = e.task
    case neg => exact .inl (.inl ⟨j, (hs.other he).symm.trans hj⟩)
    case pos =>
      subst he
      cases hs with
      | update | call | write | rename => exact absurd (move_same.symm.trans hj) nofun
      | @snap i t hi =>
        exact .inr ⟨t, (Phase.held.inj (move_same.symm.trans hj)).symm, rfl, rfl⟩
  · cases hs with
    | update | call | snap => exact .inl (.inr hfile)
    | write hi =>
      obtain htmp | htarget := hfile
      · obtain rfl := Option.some.inj htmp
        exact .inl (.inl ⟨_, hi⟩)
      · exact .inl (.inr (.inr htarget))
    | rename =>
      obtain htmp | htarget := hfile
      · cases htmp
      · exact .inl (.inr ((Option.or_eq_some_iff.mp htarget).imp id And.right))

/-- The copies of a run are honest. -/
lemma Run.honest {mem : Mem} {tmp target : Option Snap} {c : Copy Snap}
    (h : Run take (State.start mem tmp target) es s) (hc : s.Holds c) : s.Honest take c := by
  induction h with
  | start =>
    intro n hn
    obtain ⟨i, hi⟩ | hfile := hc
    · cases hi
    · cases ((@Inv.start ι τ Mem Snap _ mem tmp target).quiet rfl c hfile).symm.trans hn
  | step run hs ih =>
    obtain hold | ⟨t, rfl, hmem, hupdates⟩ := hs.holds hc
    · have hc' := ih hold
      cases hs with
      | update => exact hc'.update
      | call | snap | write | rename => exact hc'
    · intro n hn
      obtain rfl := Option.some.inj hn
      exact ⟨Nat.le_of_eq hupdates.symm, fun _ => ⟨t, by rw [hmem]⟩⟩

/-- A target that is up to date shows the state as it is. -/
theorem Run.upToDate_value {mem : Mem} {tmp target : Option Snap}
    (h : Run take (State.start mem tmp target) es s) (hup : s.UpToDate) :
    ∃ c t, s.target = some c ∧ c.value = take t s.mem := by
  obtain ⟨v, hv⟩ := hup
  obtain ⟨t, ht⟩ := (h.honest (.inr (.inr hv)) s.updates rfl).2 rfl
  exact ⟨_, t, hv, ht⟩

end

end Lib.Publish
