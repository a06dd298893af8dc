import Mathlib.Tactic

/-!
# Lock guards of one thread

A small language of calls that take and drop lock guards. A lock is shared or exclusive and not
re-entrant: a thread that asks for a lock while one of its own guards conflicts with the request
waits for itself and never returns. `Call R S` is a state monad over the data `S` and the list of
live guards, with the failure `.error r` for a call that waits on the lock `r` it holds itself.
Waiting for another thread is not a failure here; it ends when that thread drops its guard.

The rules to verify a call are one equation for each primitive (`acquire_run`, `acquire_stuck`,
`release_run`) and the two loop rules for visiting a list of locks in turn (`visit_run`,
`visit_stuck`).
-/

namespace Lib

/-- How a guard holds its lock. -/
inductive Mode where
  | shared
  | exclusive
  deriving DecidableEq

/-- A thread: the data it works on and the guards it has not dropped yet. -/
structure Thread (R S : Type) where
  data : S
  held : List (R × Mode)

/-- A call that may wait for itself. -/
abbrev Call (R S : Type) := StateT (Thread R S) (Except R)

namespace Call
variable {R S α : Type}

/-- Does one of the live guards keep its own thread from taking `r` in mode `m`? -/
def Blocked (held : List (R × Mode)) (r : R) (m : Mode) : Prop :=
  ∃ g ∈ held, g.1 = r ∧ (m = .exclusive ∨ g.2 = .exclusive)

/-- Read the data. -/
def read (f : S → α) : Call R S α := fun t => .ok (f t.data, t)

/-- Write the data. -/
def write (f : S → S) : Call R S Unit := fun t => .ok ((), { t with data := f t.data })

/-- The outcome of a call started without any guard. -/
def start (c : Call R S α) (s : S) : Except R (α × Thread R S) := c ⟨s, []⟩

/-- The call returns when it is started without any guard. -/
def Completes (c : Call R S α) (s : S) : Prop := ∃ a t, start c s = .ok (a, t)

/-- A call that has a result has returned. -/
lemma completes_of_ok {c : Call R S α} {s a t} (h : start c s = .ok (a, t)) : Completes c s :=
  ⟨a, t, h⟩

/-- A call that waits for itself does not return. -/
lemma not_completes_of_error {c : Call R S α} {s r} (h : start c s = .error r) :
    ¬ Completes c s := by
  rintro ⟨a, t, e⟩
  rw [h] at e
  cases e

/-- What comes after a call that returned. -/
lemma bind_ok {β : Type} {c : Call R S α} {k : α → Call R S β} {t t' a} (h : c t = .ok (a, t')) :
    (c >>= k) t = k a t' := by
  show (c t >>= fun p => k p.1 p.2) = _
  rw [h]
  rfl

/-- Nothing comes after a call that waits for itself. -/
lemma bind_error {β : Type} {c : Call R S α} {k : α → Call R S β} {t r} (h : c t = .error r) :
    (c >>= k) t = .error r := by
  show (c t >>= fun p => k p.1 p.2) = _
  rw [h]
  rfl

@[simp] lemma pure_run {a : α} {t : Thread R S} : (pure a : Call R S α) t = .ok (a, t) := rfl

@[simp] lemma read_run {f : S → α} {t : Thread R S} :
    (read f : Call R S α) t = .ok (f t.data, t) := rfl

@[simp] lemma write_run {f : S → S} {t : Thread R S} :
    (write f : Call R S Unit) t = .ok ((), { t with data := f t.data }) := rfl

@[simp] lemma not_blocked_nil {r : R} {m : Mode} : ¬ Blocked [] r m := by
  simp [Blocked]

/-- A guard on another lock does not block. -/
lemma not_blocked_cons {g : R × Mode} {held : List (R × Mode)} {r : R} {m : Mode}
    (hr : g.1 ≠ r) (h : ¬ Blocked held r m) : ¬ Blocked (g :: held) r m := by
  rintro ⟨g', hg, e, hm⟩
  rcases List.mem_cons.mp hg with rfl | hg
  · exact hr e
  · exact h ⟨g', hg, e, hm⟩

/-- An exclusive guard blocks every request for its own lock. -/
lemma blocked_of_exclusive {held : List (R × Mode)} {r : R} {m : Mode}
    (h : (r, Mode.exclusive) ∈ held) : Blocked held r m :=
  ⟨_, h, rfl, .inr rfl⟩

variable [DecidableEq R]

instance {held : List (R × Mode)} {r : R} {m : Mode} : Decidable (Blocked held r m) :=
  inferInstanceAs (Decidable (∃ g ∈ held, g.1 = r ∧ (m = .exclusive ∨ g.2 = .exclusive)))

/-- Take a lock; the guard stays alive until it is released. -/
def acquire (r : R) (m : Mode) : Call R S Unit := fun t =>
  if Blocked t.held r m then .error r else .ok ((), { t with held := (r, m) :: t.held })

/-- Drop a guard. -/
def release (r : R) (m : Mode) : Call R S Unit := fun t =>
  .ok ((), { t with held := t.held.erase (r, m) })

/-- Hold one lock for the length of a call. -/
def guarded (r : R) (m : Mode) (c : Call R S α) : Call R S α := do
  acquire r m
  let a ← c
  release r m
  return a

/-- Take the locks of a list in turn, each only while its own body runs. -/
def visit (m : Mode) (body : R → Call R S Unit) : List R → Call R S Unit
  | [] => return ()
  | r :: rs => do
    guarded r m (body r)
    visit m body rs

/-- A lock that no live guard conflicts with is taken. -/
lemma acquire_run {r : R} {m : Mode} {t : Thread R S} (h : ¬ Blocked t.held r m) :
    (acquire r m : Call R S Unit) t = .ok ((), { t with held := (r, m) :: t.held }) :=
  if_neg h

/-- A lock that a live guard conflicts with blocks the thread for good. -/
lemma acquire_stuck {r : R} {m : Mode} {t : Thread R S} (h : Blocked t.held r m) :
    (acquire r m : Call R S Unit) t = .error r :=
  if_pos h

/-- Dropping the newest guard. -/
@[simp] lemma release_run {r : R} {m : Mode} {s : S} {held : List (R × Mode)} :
    (release r m : Call R S Unit) ⟨s, (r, m) :: held⟩ = .ok ((), ⟨s, held⟩) := by
  simp [release]

/-- A guarded call runs its body under the guard and drops it again. -/
lemma guarded_run {r : R} {m : Mode} {c : Call R S α} {s s' : S} {held : List (R × Mode)} {a : α}
    (h : ¬ Blocked held r m) (hc : c ⟨s, (r, m) :: held⟩ = .ok (a, ⟨s', (r, m) :: held⟩)) :
    guarded r m c ⟨s, held⟩ = .ok (a, ⟨s', held⟩) := by
  unfold guarded
  rw [bind_ok (acquire_run h), bind_ok hc, bind_ok release_run]
  rfl

/-- A call waits before its body when its own thread holds the guard. -/
lemma guarded_stuck {r : R} {m : Mode} {c : Call R S α} {t : Thread R S}
    (h : Blocked t.held r m) : guarded r m c t = .error r :=
  bind_error (acquire_stuck h)

/-- Visiting locks that are all free ends with the data and the guards as they were, when every
body does. -/
lemma visit_run {m : Mode} {body : R → Call R S Unit} {rs : List R} {t : Thread R S}
    (h : ∀ r ∈ rs, ¬ Blocked t.held r m)
    (hb : ∀ r ∈ rs, body r ⟨t.data, (r, m) :: t.held⟩ = .ok ((), ⟨t.data, (r, m) :: t.held⟩)) :
    visit m body rs t = .ok ((), t) := by
  induction rs with
  | nil => rfl
  | cons r rs ih =>
    have hr := guarded_run (h r (by simp)) (hb r (by simp))
    unfold visit
    rw [bind_ok hr]
    exact ih (fun r' hr' => h r' (by simp [hr'])) (fun r' hr' => hb r' (by simp [hr']))

/-- Visiting a list of locks gets stuck at the first one that is blocked. -/
lemma visit_stuck {m : Mode} {body : R → Call R S Unit} {rs : List R} {t : Thread R S} {r : R}
    (hr : r ∈ rs) (h : Blocked t.held r m) (hfree : ∀ r' ∈ rs, r' ≠ r → ¬ Blocked t.held r' m)
    (hb : ∀ r' ∈ rs, r' ≠ r →
      body r' ⟨t.data, (r', m) :: t.held⟩ = .ok ((), ⟨t.data, (r', m) :: t.held⟩)) :
    visit m body rs t = .error r := by
  induction rs with
  | nil => cases hr
  | cons x rs ih =>
    unfold visit
    by_cases e : x = r
    · subst e
      exact bind_error (guarded_stuck h)
    · have hx := guarded_run (hfree x (by simp) e) (hb x (by simp) e)
      rw [bind_ok hx]
      apply ih
      · rcases List.mem_cons.mp hr with rfl | hr
        · exact absurd rfl e
        · exact hr
      · exact fun r' hr' => hfree r' (by simp [hr'])
      · exact fun r' hr' => hb r' (by simp [hr'])

end Call

end Lib
