import Waf.Events

/-!
# The event store

Events are sent to a writer task that collects them in a buffer and inserts them into SQLite in one
transaction (`writer_loop` and `flush` in `storage.rs`). An error of SQLite ends the task with what is
in the buffer and in the channel; an insert that fails is counted as written.

`Moves` relates two states by how many events were submitted, how many of these are no longer
accounted for and how many are counted as written without a row. It composes along a run
(`run_moves`), so that a run keeps its accounts iff every flush in it succeeds (`balanced_iff`).
-/

namespace Waf

/-- The sink, `stats.written`, the buffer of the writer and the rows committed. -/
structure Storage where
  sink : Sink := {}
  written : Nat := 0
  buf : List Event := []
  rows : List Event := []

/-- What SQLite answers in a flush: to `transaction`, to `prepare_cached`, to each insert and to
`commit`. -/
structure Answers where
  begins : Bool := true
  prepares : Bool := true
  inserts : Nat → Bool := fun _ => true
  commits : Bool := true

namespace Storage

def FLUSH_BATCH : Nat := 512

def flush (s : Storage) (a : Answers) : Option Storage :=
  if !a.begins || !a.prepares then none
  else if a.commits then
    some { s with
      sink := { s.sink with drained := s.sink.drained + s.buf.length }
      written := s.written + s.buf.length
      buf := []
      -- the result of an insert is not looked at
      rows := s.rows ++ (s.buf.zipIdx.filter fun x => a.inserts x.2).map Prod.fst }
  else none

/-- The end of `writer_loop`: its buffer and the receiving end of the channel are dropped. -/
def exit (s : Storage) : Storage :=
  { s with sink := { s.sink with closed := true, sent := [] }, buf := [] }

/-- `flush(..)?` in the loop. -/
def flushOrExit (s : Storage) (a : Answers) : Storage := (s.flush a).getD s.exit

/-- An event is submitted, the writer receives one, its timer ticks, or it is told that all senders
are gone. -/
inductive Op where
  | submit (ev : Event)
  | recv (a : Answers)
  | tick (a : Answers)
  | hangup (a : Answers)

def step (s : Storage) : Op → Storage
  | .submit ev => { s with sink := s.sink.submit ev }
  | .recv a =>
    if s.sink.closed then s
    else match s.sink.sent with
      | [] => s
      | ev :: sent =>
        let s := { s with sink := { s.sink with sent }, buf := s.buf ++ [ev] }
        if FLUSH_BATCH ≤ s.buf.length then s.flushOrExit a else s
  | .tick a =>
    if s.sink.closed then s
    else if s.buf.isEmpty then s else s.flushOrExit a
  | .hangup a =>
    if s.sink.closed then s
    -- `recv` first returns what is still in the channel
    else if !s.sink.sent.isEmpty then s
    else if s.buf.isEmpty then s.exit else (s.flushOrExit a).exit

def run (s : Storage) (ops : List Op) : Storage := ops.foldl step s

def Op.submits : Op → Nat
  | .submit _ => 1
  | _ => 0

/-- The number of events submitted in a run. -/
def submitted (ops : List Op) : Nat := (ops.map Op.submits).sum

/-- The events accounted for. -/
def counted (s : Storage) : Nat :=
  s.written + s.sink.dropped + s.sink.sent.length + s.buf.length

/-- The accounts of a run that starts with an empty store. -/
structure Balanced (ops : List Op) : Prop where
  counted : submitted ops = (run {} ops).counted
  written : (run {} ops).written = (run {} ops).rows.length

end Storage

/-- A flush of `n` events succeeds. -/
structure Answers.Good (a : Answers) (n : Nat) : Prop where
  begins : a.begins
  prepares : a.prepares
  inserts : ∀ i < n, a.inserts i
  commits : a.commits

namespace Storage

/-- If the step flushes, the flush succeeds. -/
def Sound (s : Storage) : Op → Prop
  | .submit _ => True
  | .recv a => s.sink.closed = false → s.sink.sent ≠ [] → FLUSH_BATCH ≤ s.buf.length + 1 →
    a.Good (s.buf.length + 1)
  | .tick a => s.sink.closed = false → s.buf ≠ [] → a.Good s.buf.length
  | .hangup a => s.sink.closed = false → s.sink.sent = [] → s.buf ≠ [] → a.Good s.buf.length

/-- Every flush of a run succeeds. -/
def Flushes : Storage → List Op → Prop
  | _, [] => True
  | s, op :: ops => s.Sound op ∧ Flushes (s.step op) ops

/-- Of `n` events submitted between two states, or before them, `lost` are no longer accounted for,
and `unkept` more are counted as written without a row. -/
structure Moves (s s' : Storage) (n lost unkept : Nat) : Prop where
  counted : s'.counted + lost = s.counted + n
  written : s'.written + s.rows.length = s.written + s'.rows.length + unkept

variable {s s' s'' : Storage} {a : Answers} {op : Op} {ops ops' : List Op}
  {n n' lost lost' unkept unkept' : Nat}

lemma Moves.refl : Moves s s 0 0 0 := ⟨rfl, rfl⟩

lemma Moves.trans (h : Moves s s' n lost unkept) (h' : Moves s' s'' n' lost' unkept') :
    Moves s s'' (n + n') (lost + lost') (unkept + unkept') := by
  have hc := h.counted
  have hc' := h'.counted
  have hw := h.written
  have hw' := h'.written
  exact ⟨by omega, by omega⟩

/-- An event is in the channel or is counted as dropped. -/
lemma submit_counted {sink : Sink} {ev : Event} :
    (sink.submit ev).dropped + (sink.submit ev).sent.length
      = sink.dropped + sink.sent.length + 1 := by
  by_cases hfull : Sink.MAX_QUEUE < sink.queued - sink.drained
  case pos =>
    rw [Sink.submit, if_pos hfull]
    exact Nat.add_right_comm ..
  case neg =>
    rw [Sink.submit, if_neg hfull]
    cases hclosed : sink.closed with
    | true =>
      simp only [if_true]
      exact Nat.add_right_comm ..
    | false =>
      simp only [Bool.false_eq_true, if_false, List.length_append, List.length_singleton]
      exact (Nat.add_assoc ..).symm

/-- A submitted event is counted, as queued or as dropped. -/
lemma submit_moves {ev : Event} : Moves s (s.step (.submit ev)) 1 0 0 := by
  refine ⟨?_, rfl⟩
  have hsink : (s.sink.submit ev).dropped + (s.sink.submit ev).sent.length
      = s.sink.dropped + s.sink.sent.length + 1 := submit_counted
  show s.written + (s.sink.submit ev).dropped + (s.sink.submit ev).sent.length + s.buf.length + 0
    = s.written + s.sink.dropped + s.sink.sent.length + s.buf.length + 1
  omega

/-- The end of the loop loses what is in the channel and in the buffer. -/
lemma exit_moves : Moves s s.exit 0 (s.sink.sent.length + s.buf.length) 0 := by
  refine ⟨?_, rfl⟩
  show s.written + s.sink.dropped + 0 + 0 + _ = s.written + s.sink.dropped + _ + _ + 0
  omega

/-- The rows of a flush. -/
def kept (s : Storage) (a : Answers) : List Event :=
  (s.buf.zipIdx.filter fun x => a.inserts x.2).map Prod.fst

/-- A flush has a result iff the transaction begins, is prepared and is committed. -/
lemma flush_eq : s.flush a = if a.begins ∧ a.prepares ∧ a.commits then
    some { s with
      sink := { s.sink with drained := s.sink.drained + s.buf.length }
      written := s.written + s.buf.length
      buf := []
      rows := s.rows ++ s.kept a } else none := by
  rw [flush]
  cases a.begins with
  | false => exact (if_neg fun h => Bool.noConfusion h.1).symm
  | true =>
    cases a.prepares with
    | false => exact (if_neg fun h => Bool.noConfusion h.2.1).symm
    | true =>
      cases a.commits with
      | false => exact (if_neg fun h => Bool.noConfusion h.2.2).symm
      | true => exact (if_pos ⟨rfl, rfl, rfl⟩).symm

lemma length_kept_le : (s.kept a).length ≤ s.buf.length := by
  rw [kept, List.length_map]
  exact (List.length_filter_le ..).trans_eq List.length_zipIdx

/-- As many rows as events iff every insert succeeds. -/
lemma length_kept_eq_iff : (s.kept a).length = s.buf.length ↔ ∀ i < s.buf.length, a.inserts i := by
  have hlen : s.buf.zipIdx.length = s.buf.length := List.length_zipIdx
  rw [kept, List.length_map, ← hlen, List.length_filter_eq_length_iff]
  constructor
  · intro h i hi
    have hins := h s.buf.zipIdx[i] (List.getElem_mem hi)
    rwa [List.getElem_zipIdx, Nat.zero_add] at hins
  · intro h x hx
    exact h x.2 (hlen ▸ (List.mem_zipIdx' hx).1)

/-- A flush that does not succeed loses events, or counts some as written that have no row. -/
lemma flush_moves (hbuf : s.buf ≠ []) : ∃ lost unkept,
    Moves s (s.flushOrExit a) 0 lost unkept ∧ (a.Good s.buf.length ↔ lost = 0 ∧ unkept = 0) := by
  have hpos : 0 < s.buf.length := List.length_pos_iff.mpr hbuf
  rw [flushOrExit, flush_eq]
  by_cases hok : a.begins ∧ a.prepares ∧ a.commits
  case pos =>
    have hle : (s.kept a).length ≤ s.buf.length := length_kept_le
    rw [if_pos hok]
    refine ⟨0, s.buf.length - (s.kept a).length, ⟨?_, ?_⟩, ?_⟩
    · show s.written + s.buf.length + s.sink.dropped + s.sink.sent.length + 0 + 0
        = s.written + s.sink.dropped + s.sink.sent.length + s.buf.length + 0
      omega
    · show s.written + s.buf.length + s.rows.length
        = s.written + (s.rows ++ s.kept a).length + (s.buf.length - (s.kept a).length)
      rw [List.length_append]
      omega
    · have hiff := length_kept_eq_iff (s := s) (a := a)
      constructor
      · intro hgood
        have heq := hiff.mpr hgood.inserts
        omega
      · rintro ⟨-, hzero⟩
        exact ⟨hok.1, hok.2.1, hiff.mp (by omega), hok.2.2⟩
  case neg =>
    rw [if_neg hok]
    refine ⟨s.sink.sent.length + s.buf.length, 0, exit_moves, iff_of_false ?_ fun h => ?_⟩
    · exact fun hgood => hok ⟨hgood.begins, hgood.prepares, hgood.commits⟩
    · omega

/-- What a flush leaves behind, when the channel is empty. -/
lemma flushOrExit_empty (hsent : s.sink.sent = []) :
    (s.flushOrExit a).sink.sent = [] ∧ (s.flushOrExit a).buf = [] := by
  rw [flushOrExit, flush_eq]
  split
  case isTrue => exact ⟨hsent, rfl⟩
  case isFalse => exact ⟨rfl, rfl⟩

/-- A step that is not sound loses events, or counts some as written that have no row. -/
def Accounts (s : Storage) (op : Op) : Prop :=
  ∃ lost unkept, Moves s (s.step op) op.submits lost unkept ∧ (s.Sound op ↔ lost = 0 ∧ unkept = 0)

/-- An operation without effect accounts for itself. -/
lemma still_accounts (hn : op.submits = 0) (hstep : s.step op = s) (hsound : s.Sound op) :
    s.Accounts op := by
  rw [Accounts, hn, hstep]
  exact ⟨0, 0, .refl, iff_of_true hsound ⟨rfl, rfl⟩⟩

/-- Receiving accounts for its events while the sink is open. -/
lemma recv_accounts (hopen : s.sink.closed = false) : s.Accounts (.recv a) := by
  have hclosed : ¬ s.sink.closed = true := Bool.eq_false_iff.mp hopen
  cases hsent : s.sink.sent with
  | nil =>
    refine still_accounts rfl ?_ fun _ hne => absurd hsent hne
    rw [step, if_neg hclosed, hsent]
  | cons ev sent =>
    obtain ⟨t, ht⟩ : ∃ t : Storage, t =
        { s with sink := { s.sink with sent }, buf := s.buf ++ [ev] } := ⟨_, rfl⟩
    have hstep : s.step (.recv a) = if FLUSH_BATCH ≤ t.buf.length then t.flushOrExit a else t := by
      rw [step, if_neg hclosed, hsent, ht]
    have hlen : t.buf.length = s.buf.length + 1 := by
      rw [ht, List.length_append, List.length_singleton]
    have hmoves : Moves s t 0 0 0 := by
      subst ht
      refine ⟨?_, rfl⟩
      show s.written + s.sink.dropped + sent.length + (s.buf ++ [ev]).length + 0
        = s.written + s.sink.dropped + s.sink.sent.length + s.buf.length + 0
      rw [hsent, List.length_append, List.length_singleton, List.length_cons]
      omega
    rw [Accounts, hstep]
    by_cases hfull : FLUSH_BATCH ≤ t.buf.length
    case pos =>
      have hbuf : t.buf ≠ [] := List.length_pos_iff.mp (hlen ▸ Nat.succ_pos _)
      obtain ⟨lost, unkept, hflush, hiff⟩ := flush_moves (a := a) hbuf
      rw [if_pos hfull]
      rw [hlen] at hiff hfull
      have hne : s.sink.sent ≠ [] := hsent ▸ List.cons_ne_nil _ _
      refine ⟨0 + lost, 0 + unkept, hmoves.trans hflush, ?_⟩
      rw [Nat.zero_add, Nat.zero_add, ← hiff]
      exact ⟨fun h => h hopen hne hfull, fun h _ _ _ => h⟩
    case neg =>
      rw [if_neg hfull]
      refine ⟨0, 0, hmoves, iff_of_true (fun _ _ hfull' => ?_) ⟨rfl, rfl⟩⟩
      exact absurd (hlen ▸ hfull') hfull

lemma tick_accounts (hopen : s.sink.closed = false) : s.Accounts (.tick a) := by
  have hclosed : ¬ s.sink.closed = true := Bool.eq_false_iff.mp hopen
  by_cases hbuf : s.buf = []
  case pos =>
    refine still_accounts rfl ?_ fun _ hne => absurd hbuf hne
    rw [step, if_neg hclosed, hbuf]
    rfl
  case neg =>
    have hstep : s.step (.tick a) = s.flushOrExit a := by
      rw [step, if_neg hclosed, if_neg fun h => hbuf (List.isEmpty_iff.mp h)]
    rw [Accounts, hstep]
    obtain ⟨lost, unkept, hflush, hiff⟩ := flush_moves (a := a) hbuf
    refine ⟨lost, unkept, hflush, ?_⟩
    rw [← hiff]
    exact ⟨fun h => h hopen hbuf, fun h _ _ => h⟩

lemma hangup_accounts (hopen : s.sink.closed = false) : s.Accounts (.hangup a) := by
  have hclosed : ¬ s.sink.closed = true := Bool.eq_false_iff.mp hopen
  by_cases hsent : s.sink.sent = []
  case neg =>
    refine still_accounts rfl ?_ fun _ hnil => absurd hnil hsent
    rw [step, if_neg hclosed, List.isEmpty_eq_false_iff.mpr hsent]
    rfl
  case pos =>
    have hstep : s.step (.hangup a)
        = if s.buf.isEmpty then s.exit else (s.flushOrExit a).exit := by
      rw [step, if_neg hclosed, hsent]
      rfl
    rw [Accounts, hstep]
    by_cases hbuf : s.buf = []
    case pos =>
      have hexit : Moves s s.exit 0 (s.sink.sent.length + s.buf.length) 0 := exit_moves
      rw [hsent, hbuf] at hexit
      rw [hbuf]
      exact ⟨0, 0, hexit, iff_of_true (fun _ _ hne => absurd hbuf hne) ⟨rfl, rfl⟩⟩
    case neg =>
      obtain ⟨lost, unkept, hflush, hiff⟩ := flush_moves (a := a) hbuf
      obtain ⟨hsent', hbuf'⟩ := flushOrExit_empty (a := a) hsent
      have hexit : Moves (s.flushOrExit a) (s.flushOrExit a).exit 0
          ((s.flushOrExit a).sink.sent.length + (s.flushOrExit a).buf.length) 0 := exit_moves
      rw [hsent', hbuf'] at hexit
      rw [if_neg fun h => hbuf (List.isEmpty_iff.mp h)]
      refine ⟨lost, unkept, hflush.trans hexit, ?_⟩
      rw [← hiff]
      exact ⟨fun h => h hopen hsent hbuf, fun h _ _ _ => h⟩

/-- Every operation accounts for its events. -/
lemma step_accounts (s : Storage) (op : Op) : s.Accounts op := by
  cases hclosed : s.sink.closed with
  | true =>
    have hno : s.sink.closed ≠ false := fun h => Bool.noConfusion (hclosed.symm.trans h)
    cases op with
    | submit ev => exact ⟨0, 0, submit_moves, iff_of_true trivial ⟨rfl, rfl⟩⟩
    | recv a => exact still_accounts rfl (if_pos hclosed) fun h => absurd h hno
    | tick a => exact still_accounts rfl (if_pos hclosed) fun h => absurd h hno
    | hangup a => exact still_accounts rfl (if_pos hclosed) fun h => absurd h hno
  | false =>
    cases op with
    | submit ev => exact ⟨0, 0, submit_moves, iff_of_true trivial ⟨rfl, rfl⟩⟩
    | recv a => exact recv_accounts hclosed
    | tick a => exact tick_accounts hclosed
    | hangup a => exact hangup_accounts hclosed

/-! ## Runs -/

lemma run_moves (s : Storage) (ops : List Op) : ∃ lost unkept,
    Moves s (s.run ops) (submitted ops) lost unkept ∧ (s.Flushes ops ↔ lost = 0 ∧ unkept = 0) := by
  induction ops generalizing s with
  | nil => exact ⟨0, 0, .refl, iff_of_true trivial ⟨rfl, rfl⟩⟩
  | cons op ops ih =>
    obtain ⟨lost, unkept, hmoves, hiff⟩ := step_accounts s op
    obtain ⟨lost', unkept', hmoves', hiff'⟩ := ih (s.step op)
    refine ⟨lost + lost', unkept + unkept', hmoves.trans hmoves', ?_⟩
    show s.Sound op ∧ (s.step op).Flushes ops ↔ _
    rw [hiff, hiff']
    omega

/-- The accounts of a run are right at its end iff every flush in it succeeds. -/
lemma balanced_run_iff : Balanced ops ↔ Flushes {} ops := by
  obtain ⟨lost, unkept, ⟨hcounted, hwritten⟩, hiff⟩ := run_moves {} ops
  have hzero : ({} : Storage).counted = 0 := rfl
  have hrows : ({} : Storage).rows.length = 0 := rfl
  have hnone : ({} : Storage).written = 0 := rfl
  rw [hiff]
  constructor
  · rintro ⟨hc, hw⟩
    omega
  · rintro ⟨hlost, hunkept⟩
    exact ⟨by omega, by omega⟩

lemma Flushes.of_append (h : s.Flushes (ops ++ ops')) : s.Flushes ops := by
  induction ops generalizing s with
  | nil => exact trivial
  | cons op ops ih => exact ⟨h.1, ih h.2⟩

/-- The accounts are right at every moment of a run iff every flush in it succeeds. -/
theorem balanced_iff (ops : List Op) :
    (∀ pre, pre <+: ops → Balanced pre) ↔ Flushes {} ops := by
  constructor
  · exact fun h => balanced_run_iff.mp (h ops (List.prefix_refl ops))
  · rintro h pre ⟨post, rfl⟩
    exact balanced_run_iff.mpr h.of_append

/-- An event is received, and the commit of its flush fails. -/
def failingCommit : List Op :=
  [.submit (Event.ofDecision pageCtx (Decision.allow "1") 1700000000000), .recv {},
    .tick { commits := false }]

/-- The event is gone: it is in no account. -/
theorem failingCommit_loses : ¬ ∀ ops, Balanced ops := by
  intro h
  have hcounted := (h failingCommit).counted
  have hone : submitted failingCommit = 1 := rfl
  have hzero : (run {} failingCommit).counted = 0 := by decide
  exact absurd (hone.symm.trans (hcounted.trans hzero)) Nat.one_ne_zero

end Storage

end Waf
