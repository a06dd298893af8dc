import Waf.Lib.Ring

/-!
# A feed with a cursor

A bounded queue of stamped items that a reader polls. A poll sends the first items whose stamps are
later than the cursor, and moves the cursor to the stamp of the last one sent. The items recorded
while the reader is there are its news.

In an `Exact` state every item of the news has been sent once and is past, or has not been sent and is
due. A step keeps this if it is `Sound`: an item is recorded with a stamp later than the cursor, and a
poll sends exactly the items due whose stamps are not later than the new cursor (`step_exact`). Any
other step leaves an item `Spoilt`, which it remains (`step_spoils`, `spoilt_step`). So when nothing is
due at the end of a run, every item is in exactly one batch iff all steps are sound
(`times_iff_sound`). Sound polls send every item that is due (`run_times`).
-/

namespace Lib

variable {α β : Type}

/-- The first `max` items with stamps later than `after`. -/
def later (stamp : α → Nat) (after max : Nat) (xs : List α) : List α :=
  (xs.filter fun x => after < stamp x).take max

/-- The items do not matter for what is later, but for their stamps. -/
lemma later_map {stamp : β → Nat} {f : α → β} {after max : Nat} {xs : List α} :
    (later (fun x => stamp (f x)) after max xs).map f = later stamp after max (xs.map f) := by
  rw [later, later, List.map_take, List.filter_map]
  rfl

/-- The queue, the cursor of the reader, the batches it has been sent and its news. -/
structure Feed (α : Type) where
  queue : List α
  cursor : Nat := 0
  sent : List (List α) := []
  news : List α := []

inductive FeedOp (α : Type) where
  | record (x : α)
  | poll

namespace Feed

/-- The items that are due. -/
def pending (stamp : α → Nat) (s : Feed α) : List α := s.queue.filter fun x => s.cursor < stamp x

/-- What a poll sends. -/
def batch (stamp : α → Nat) (max : Nat) (s : Feed α) : List α := later stamp s.cursor max s.queue

/-- The cursor after a poll. -/
def next (stamp : α → Nat) (max : Nat) (s : Feed α) : Nat :=
  ((s.batch stamp max).getLast?.map stamp).getD s.cursor

def step (stamp : α → Nat) (cap max : Nat) (s : Feed α) : FeedOp α → Feed α
  | .record x => { s with queue := pushCapped cap s.queue x, news := s.news ++ [x] }
  | .poll => { s with cursor := s.next stamp max, sent := s.sent ++ [s.batch stamp max] }

def run (stamp : α → Nat) (cap max : Nat) (s : Feed α) (ops : List (FeedOp α)) : Feed α :=
  ops.foldl (step stamp cap max) s

variable {stamp : α → Nat} {cap max : Nat} {s : Feed α} {op : FeedOp α} {x y : α}

lemma mem_pending : x ∈ s.pending stamp ↔ x ∈ s.queue ∧ s.cursor < stamp x := by
  rw [pending, List.mem_filter, decide_eq_true_iff]

lemma mem_of_mem_batch (h : x ∈ s.batch stamp max) : x ∈ s.pending stamp := List.mem_of_mem_take h

/-- When something is due, the cursor moves to the last item of a batch. -/
lemma next_eq (hmax : 0 < max) (hx : x ∈ s.pending stamp) :
    ∃ last, (s.batch stamp max).getLast? = some last ∧ s.next stamp max = stamp last := by
  have hne : s.batch stamp max ≠ [] := by
    intro h
    obtain h | h := List.take_eq_nil_iff.mp h
    · omega
    · rw [pending, h] at hx
      exact absurd hx List.not_mem_nil
  have hlast := List.getLast?_eq_getLast_of_ne_nil hne
  refine ⟨_, hlast, ?_⟩
  rw [next, hlast]
  rfl

/-- The cursor does not go back. -/
lemma le_next : s.cursor ≤ s.next stamp max := by
  rw [next]
  cases h : (s.batch stamp max).getLast? with
  | none => exact le_rfl
  | some last =>
    have hlast := mem_of_mem_batch (List.mem_of_mem_getLast? h)
    exact (mem_pending.mp hlast).2.le

lemma mem_of_mem_record (hy : y ∈ (s.step stamp cap max (.record x)).queue) :
    y ∈ s.queue ∨ y = x := by
  obtain hy | hy := List.mem_append.mp hy
  · split at hy
    case isTrue => exact .inl (List.mem_of_mem_drop hy)
    case isFalse => exact .inl hy
  · exact .inr (List.mem_singleton.mp hy)

/-- A poll leaves those due that are later than the new cursor. -/
lemma pending_poll : (s.step stamp cap max .poll).pending stamp
    = (s.pending stamp).filter fun x => s.next stamp max < stamp x := by
  show s.queue.filter _ = (s.queue.filter _).filter _
  rw [List.filter_filter]
  refine List.filter_congr fun x _ => ?_
  rw [Bool.eq_iff_iff, Bool.and_eq_true, decide_eq_true_iff, decide_eq_true_iff,
    decide_eq_true_iff]
  exact (and_iff_left_of_imp le_next.trans_lt).symm

lemma mem_pending_poll : x ∈ (s.step stamp cap max .poll).pending stamp
    ↔ x ∈ s.pending stamp ∧ s.next stamp max < stamp x := by
  rw [pending_poll, List.mem_filter, decide_eq_true_iff]

/-- What is past stays past, unless it is recorded. -/
lemma not_mem_pending_step (hp : x ∉ s.pending stamp) (hop : op ≠ .record x) :
    x ∉ (s.step stamp cap max op).pending stamp := by
  cases op with
  | record y =>
    intro h
    obtain ⟨hq, hlt⟩ := mem_pending.mp h
    obtain hq | rfl := mem_of_mem_record hq
    · exact hp (mem_pending.mpr ⟨hq, hlt⟩)
    · exact hop rfl
  | poll => exact fun h => hp (mem_pending_poll.mp h).1

/-- Every step of a run meets a condition in the state it is taken in. -/
def Each (stamp : α → Nat) (cap max : Nat) (P : Feed α → FeedOp α → Prop) :
    Feed α → List (FeedOp α) → Prop
  | _, [] => True
  | s, op :: ops => P s op ∧ Each stamp cap max P (s.step stamp cap max op) ops

variable {ops ops' : List (FeedOp α)} {n : Nat}

lemma run_append : s.run stamp cap max (ops ++ ops')
    = (s.run stamp cap max ops).run stamp cap max ops' := List.foldl_append

lemma each_append {P : Feed α → FeedOp α → Prop} : Each stamp cap max P s (ops ++ ops')
    ↔ Each stamp cap max P s ops ∧ Each stamp cap max P (s.run stamp cap max ops) ops' := by
  induction ops generalizing s with
  | nil => exact (and_iff_right trivial).symm
  | cons op ops ih => exact (and_congr_right fun _ => ih).trans and_assoc.symm

/-- The number of polls of a run. -/
def polls (ops : List (FeedOp α)) : Nat := ops.countP fun | .poll => true | .record _ => false

/-- At most `n` items are due before the item. -/
def Waits (stamp : α → Nat) (s : Feed α) (x : α) (n : Nat) : Prop :=
  ∃ u v, s.pending stamp = u ++ x :: v ∧ u.length ≤ n

/-- What waits is pending. -/
lemma Waits.mem (h : s.Waits stamp x n) : x ∈ s.pending stamp := by
  obtain ⟨u, v, hp, -⟩ := h
  exact hp ▸ List.mem_append_right _ (.head _)

/-- An item with less than `max` before it is in the next batch. -/
lemma Waits.mem_batch (h : s.Waits stamp x n) (hn : n < max) : x ∈ s.batch stamp max := by
  obtain ⟨u, v, hp, hu⟩ := h
  obtain ⟨k, hk⟩ : ∃ k, max - u.length = k + 1 := ⟨max - u.length - 1, by omega⟩
  show x ∈ (s.pending stamp).take max
  rw [hp, List.take_append, hk]
  exact List.mem_append_right _ (.head _)

/-- An item of a batch has less than `max` before it. -/
lemma waits_of_mem_batch (h : x ∈ s.batch stamp max) : ∃ n < max, s.Waits stamp x n := by
  obtain ⟨u, v, huv⟩ := List.append_of_mem h
  have hlen : (s.batch stamp max).length ≤ max := List.length_take_le ..
  rw [huv, List.length_append, List.length_cons] at hlen
  refine ⟨u.length, by omega, u, v ++ (s.pending stamp).drop max, ?_, le_rfl⟩
  rw [← List.cons_append, ← List.append_assoc, ← huv]
  exact (List.take_append_drop max _).symm

/-- What is not past after a poll waits behind those of the items before it that are not past. -/
lemma waits_filter {u v : List α} (hp : s.pending stamp = u ++ x :: v)
    (hx : s.next stamp max < stamp x) : (s.step stamp cap max .poll).Waits stamp x
      (u.filter fun y => s.next stamp max < stamp y).length := by
  refine ⟨_, v.filter fun y => s.next stamp max < stamp y, ?_, le_rfl⟩
  rw [pending_poll, hp, List.filter_append, List.filter_cons, if_pos (decide_eq_true hx)]

lemma mem_news_step (hx : x ∈ s.news) : x ∈ (s.step stamp cap max op).news := by
  cases op with
  | record => exact List.mem_append_left _ hx
  | poll => exact hx

lemma run_cons : s.run stamp cap max (op :: ops) = (s.step stamp cap max op).run stamp cap max ops :=
  rfl

/-- Each poll sends one batch. -/
lemma length_sent_run : (s.run stamp cap max ops).sent.length = s.sent.length + polls ops := by
  induction ops generalizing s with
  | nil => rfl
  | cons op ops ih =>
    rw [run_cons, ih]
    cases op with
    | record => rfl
    | poll =>
      have hpolls : polls (.poll :: ops) = polls ops + 1 := List.countP_cons_of_pos rfl
      have hsent : (s.step stamp cap max .poll).sent.length = s.sent.length + 1 :=
        List.length_append
      omega

lemma mem_news_run (hx : x ∈ s.news) : x ∈ (s.run stamp cap max ops).news := by
  induction ops generalizing s with
  | nil => exact hx
  | cons op ops ih => exact ih (mem_news_step hx)

/-! ## One step -/

/-- An item of the news that is due stays in the queue. -/
def Lossless (stamp : α → Nat) (cap : Nat) (s : Feed α) : FeedOp α → Prop
  | .record _ => s.queue.length = cap → ∀ x ∈ s.queue.head?, x ∈ s.news → x ∉ s.pending stamp
  | .poll => True

/-- An item is recorded with a stamp later than the cursor; the items of the news that are due are
among the first `max` ones iff they are not later than the last one of these. -/
def Sound (stamp : α → Nat) (max : Nat) (s : Feed α) : FeedOp α → Prop
  | .record x => s.cursor < stamp x
  | .poll => ∀ last ∈ ((s.pending stamp).take max).getLast?, ∀ x ∈ s.news, x ∈ s.pending stamp →
    (x ∈ (s.pending stamp).take max ↔ stamp x ≤ stamp last)

/-- Recording puts no item before one that waits. -/
lemma waits_record (hloss : s.Lossless stamp cap (.record y)) (hx : x ∈ s.news)
    (hw : s.Waits stamp x n) : (s.step stamp cap max (.record y)).Waits stamp x n := by
  have hpx := hw.mem
  obtain ⟨u, v, hp, hu⟩ := hw
  have hstep : (s.step stamp cap max (.record y)).pending stamp
      = (if s.queue.length = cap then s.queue.drop 1 else s.queue).filter
          (fun x => s.cursor < stamp x) ++ [y].filter fun x => s.cursor < stamp x :=
    List.filter_append ..
  by_cases hfull : s.queue.length = cap
  case neg =>
    rw [if_neg hfull] at hstep
    refine ⟨u, v ++ [y].filter fun x => s.cursor < stamp x, ?_, hu⟩
    rw [hstep, ← List.cons_append, ← List.append_assoc, ← hp]
    rfl
  case pos =>
    rw [if_pos hfull] at hstep
    rw [pending] at hp
    cases hq : s.queue with
    | nil =>
      rw [hq] at hp
      exact absurd hp.symm (List.append_ne_nil_of_right_ne_nil _ (List.cons_ne_nil _ _))
    | cons z zs =>
      rw [hq] at hp hstep
      rw [List.drop_one, List.tail_cons] at hstep
      by_cases hz : decide (s.cursor < stamp z) = true
      case neg =>
        rw [List.filter_cons, if_neg hz] at hp
        refine ⟨u, v ++ [y].filter fun x => s.cursor < stamp x, ?_, hu⟩
        rw [hstep, hp, List.append_assoc, List.cons_append]
      case pos =>
        rw [List.filter_cons, if_pos hz] at hp
        -- the item that leaves is another one
        cases u with
        | nil =>
          obtain rfl : z = x := (List.cons_eq_cons.mp hp).1
          exact absurd hpx (hloss hfull z (by rw [hq]; rfl) hx)
        | cons w u =>
          refine ⟨u, v ++ [y].filter fun x => s.cursor < stamp x, ?_, ?_⟩
          · have hrest : zs.filter (fun x => s.cursor < stamp x) = u ++ x :: v :=
              (List.cons_eq_cons.mp hp).2
            rw [hstep, hrest, List.append_assoc, List.cons_append]
          · rw [List.length_cons] at hu
            omega

/-- A sound poll sends an item that waits, or one that is before it. -/
lemma waits_poll (hmax : 0 < max) (hx : x ∈ s.news) (hsound : s.Sound stamp max .poll)
    (hw : s.Waits stamp x n) : x ∈ s.batch stamp max
      ∨ ∃ m < n, (s.step stamp cap max .poll).Waits stamp x m := by
  have hpx := hw.mem
  obtain ⟨last, hlast, hnext⟩ := next_eq hmax hpx
  by_cases hb : x ∈ s.batch stamp max
  case pos => exact .inl hb
  case neg =>
    have hlt : s.next stamp max < stamp x := by
      rw [hnext]
      exact Nat.not_le.mp fun hle => hb ((hsound last hlast x hx hpx).mpr hle)
    obtain ⟨u, v, hp, hu⟩ := hw
    -- the batch ends before the item
    have hlen : max ≤ u.length := by
      by_contra hn
      exact hb (Waits.mem_batch ⟨u, v, hp, le_rfl⟩ (Nat.not_le.mp hn))
    have hbatch : s.batch stamp max = u.take max := by
      show (s.pending stamp).take max = _
      rw [hp, List.take_append_of_le_length hlen]
    have hmem : last ∈ u := List.mem_of_mem_take (hbatch ▸ List.mem_of_mem_getLast? hlast)
    refine .inr ⟨_, ?_, waits_filter hp hlt⟩
    refine lt_of_lt_of_le (List.length_filter_lt_length_iff_exists.mpr ⟨last, hmem, ?_⟩) hu
    rw [hnext, decide_eq_true_iff]
    exact lt_irrefl _

variable [DecidableEq α]

/-- The number of batches that an item is in. -/
def times (s : Feed α) (x : α) : Nat := s.sent.countP fun b => b.contains x

/-- Every item of the news has been sent once and is past, or has not been sent and is due. -/
def Exact (stamp : α → Nat) (s : Feed α) : Prop :=
  ∀ x ∈ s.news, (s.times x = 1 ∧ x ∉ s.pending stamp) ∨ (s.times x = 0 ∧ x ∈ s.pending stamp)

/-- A recorded item is a new one. -/
def Fresh (s : Feed α) : FeedOp α → Prop
  | .record x => x ∉ s.queue ∧ x ∉ s.news ∧ s.times x = 0
  | .poll => True

/-- An item of the news has been sent twice, or will be, or never will be. -/
inductive Spoilt (stamp : α → Nat) (max : Nat) (s : Feed α) (x : α) : Prop where
  | repeated (ht : 1 < s.times x)
  | again (ht : s.times x = 1) (n : Nat) (hn : n < max) (hw : s.Waits stamp x n)
  | skipped (ht : s.times x = 0) (hp : x ∉ s.pending stamp)

lemma times_eq_zero (h : ∀ b ∈ s.sent, x ∉ b) : s.times x = 0 :=
  List.countP_eq_zero.mpr fun b hb hx => h b hb (List.contains_iff_mem.mp hx)

/-- A poll sends once what is in its batch. -/
lemma times_poll : (s.step stamp cap max .poll).times x
    = s.times x + if x ∈ s.batch stamp max then 1 else 0 := by
  show (s.sent ++ [s.batch stamp max]).countP (fun b => b.contains x) = _
  rw [List.countP_append, List.countP_singleton]
  simp only [List.contains_iff_mem]
  rfl

/-- A fresh record is none of the news. -/
lemma ne_of_fresh (hx : x ∈ s.news) (hfresh : s.Fresh op) : op ≠ .record x := by
  rintro rfl
  exact hfresh.2.1 hx

/-- A sound step without loss keeps the feed exact. -/
lemma step_exact (hmax : 0 < max) (h : s.Exact stamp) (hfresh : s.Fresh op)
    (hloss : s.Lossless stamp cap op) (hsound : s.Sound stamp max op) :
    (s.step stamp cap max op).Exact stamp := by
  cases op with
  | record x =>
    intro y hy
    obtain hy | hy := List.mem_append.mp hy
    · obtain ⟨ht, hp⟩ | ⟨ht, hp⟩ := h y hy
      · exact .inl ⟨ht, not_mem_pending_step hp (ne_of_fresh hy hfresh)⟩
      · obtain ⟨u, v, huv⟩ := List.append_of_mem hp
        exact .inr ⟨ht, (waits_record hloss hy ⟨u, v, huv, le_rfl⟩).mem⟩
    · obtain rfl := List.mem_singleton.mp hy
      have hq : y ∈ (s.step stamp cap max (.record y)).queue := List.mem_append_right _ (.head _)
      exact .inr ⟨hfresh.2.2, mem_pending.mpr ⟨hq, hsound⟩⟩
  | poll =>
    intro x hx
    rw [times_poll]
    obtain ⟨ht, hp⟩ | ⟨ht, hp⟩ := h x hx
    · have hb : x ∉ s.batch stamp max := fun hb => hp (mem_of_mem_batch hb)
      rw [if_neg hb, ht]
      exact .inl ⟨rfl, not_mem_pending_step hp (ne_of_fresh hx hfresh)⟩
    · obtain ⟨last, hlast, hnext⟩ := next_eq hmax hp
      have hiff := hsound last hlast x hx hp
      rw [ht, mem_pending_poll, hnext]
      by_cases hb : x ∈ s.batch stamp max
      case pos =>
        rw [if_pos hb]
        exact .inl ⟨rfl, fun h => absurd (hiff.mp hb) (Nat.not_le.mpr h.2)⟩
      case neg =>
        rw [if_neg hb]
        exact .inr ⟨rfl, hp, Nat.not_le.mp fun hle => hb (hiff.mpr hle)⟩

/-- A step that is not sound spoils an item. -/
lemma step_spoils (hmax : 0 < max) (h : s.Exact stamp) (hfresh : s.Fresh op)
    (hsound : ¬ s.Sound stamp max op) : ∃ x ∈ (s.step stamp cap max op).news,
      (s.step stamp cap max op).Spoilt stamp max x := by
  cases op with
  | record x =>
    refine ⟨x, List.mem_append_right _ (.head _), .skipped hfresh.2.2 fun hp => ?_⟩
    exact hsound (mem_pending.mp hp).2
  | poll =>
    obtain ⟨last, hsound⟩ := not_forall.mp hsound
    obtain ⟨hlast, hsound⟩ := not_forall.mp hsound
    obtain ⟨x, hsound⟩ := not_forall.mp hsound
    obtain ⟨hx, hsound⟩ := not_forall.mp hsound
    obtain ⟨hp, hiff⟩ := not_forall.mp hsound
    obtain ⟨last', hlast', hnext⟩ := next_eq hmax hp
    obtain rfl : last' = last := Option.some.inj (hlast'.symm.trans hlast)
    rw [← hnext] at hiff
    have ht : s.times x = 0 := by
      obtain ⟨-, hnp⟩ | ⟨ht, -⟩ := h x hx
      · exact absurd hp hnp
      · exact ht
    refine ⟨x, hx, ?_⟩
    by_cases hb : x ∈ s.batch stamp max
    case pos =>
      -- it is sent, and due again
      have hlt : s.next stamp max < stamp x :=
        Nat.not_le.mp fun hle => hiff (iff_of_true hb hle)
      obtain ⟨n, hn, u, v, hp, hu⟩ := waits_of_mem_batch hb
      refine .again ?_ _ (lt_of_le_of_lt ((List.length_filter_le _ u).trans hu) hn)
        (waits_filter hp hlt)
      rw [times_poll, if_pos hb, ht]
    case neg =>
      have hle : stamp x ≤ s.next stamp max :=
        Nat.not_lt.mp fun hlt => hiff (iff_of_false hb (Nat.not_le.mpr hlt))
      refine .skipped ?_ fun hp => absurd (mem_pending_poll.mp hp).2 (Nat.not_lt.mpr hle)
      rw [times_poll, if_neg hb, ht]

/-- An item that is spoilt remains so. -/
lemma spoilt_step (hx : x ∈ s.news) (hfresh : s.Fresh op) (hloss : s.Lossless stamp cap op)
    (h : s.Spoilt stamp max x) : (s.step stamp cap max op).Spoilt stamp max x := by
  cases op with
  | record y =>
    cases h with
    | repeated ht => exact .repeated ht
    | again ht n hn hw => exact .again ht n hn (waits_record hloss hx hw)
    | skipped ht hp => exact .skipped ht (not_mem_pending_step hp (ne_of_fresh hx hfresh))
  | poll =>
    cases h with
    | repeated ht =>
      refine .repeated ?_
      rw [times_poll]
      exact ht.trans_le (Nat.le_add_right _ _)
    | again ht n hn hw =>
      refine .repeated ?_
      rw [times_poll, ht, if_pos (hw.mem_batch hn)]
      exact Nat.lt_succ_self 1
    | skipped ht hp =>
      have hb : x ∉ s.batch stamp max := fun hb => hp (mem_of_mem_batch hb)
      refine .skipped ?_ (not_mem_pending_step hp (ne_of_fresh hx hfresh))
      rw [times_poll, ht, if_neg hb]

/-! ## Runs -/

lemma spoilt_run (hx : x ∈ s.news) (hfresh : Each stamp cap max Fresh s ops)
    (hloss : Each stamp cap max (Lossless stamp cap) s ops) (h : s.Spoilt stamp max x) :
    (s.run stamp cap max ops).Spoilt stamp max x := by
  induction ops generalizing s with
  | nil => exact h
  | cons op ops ih =>
    exact ih (mem_news_step hx) hfresh.2 hloss.2 (spoilt_step hx hfresh.1 hloss.1 h)

lemma run_exact (hmax : 0 < max) (h : s.Exact stamp) (hfresh : Each stamp cap max Fresh s ops)
    (hloss : Each stamp cap max (Lossless stamp cap) s ops)
    (hsound : Each stamp cap max (Sound stamp max) s ops) :
    (s.run stamp cap max ops).Exact stamp := by
  induction ops generalizing s with
  | nil => exact h
  | cons op ops ih =>
    exact ih (step_exact hmax h hfresh.1 hloss.1 hsound.1) hfresh.2 hloss.2 hsound.2

lemma run_spoils (hmax : 0 < max) (h : s.Exact stamp) (hfresh : Each stamp cap max Fresh s ops)
    (hloss : Each stamp cap max (Lossless stamp cap) s ops)
    (hsound : ¬ Each stamp cap max (Sound stamp max) s ops) :
    ∃ x ∈ (s.run stamp cap max ops).news, (s.run stamp cap max ops).Spoilt stamp max x := by
  induction ops generalizing s with
  | nil => exact absurd trivial hsound
  | cons op ops ih =>
    obtain ⟨hf, hfresh⟩ := hfresh
    obtain ⟨hl, hloss⟩ := hloss
    by_cases hs : s.Sound stamp max op
    case pos =>
      exact ih (step_exact hmax h hf hl hs) hfresh hloss fun hrest => hsound ⟨hs, hrest⟩
    case neg =>
      have hstep : ∃ x ∈ (s.step stamp cap max op).news,
          (s.step stamp cap max op).Spoilt stamp max x := step_spoils hmax h hf hs
      obtain ⟨x, hx, hspoilt⟩ := hstep
      rw [run_cons]
      exact ⟨x, mem_news_run hx, spoilt_run hx hfresh hloss hspoilt⟩

/-- When nothing is due at the end of a run, every item of the news is in exactly one batch iff all
steps are sound. -/
theorem times_iff_sound (hmax : 0 < max) (h : s.Exact stamp)
    (hfresh : Each stamp cap max Fresh s ops)
    (hloss : Each stamp cap max (Lossless stamp cap) s ops)
    (hend : ∀ x ∈ (s.run stamp cap max ops).news, x ∉ (s.run stamp cap max ops).pending stamp) :
    (∀ x ∈ (s.run stamp cap max ops).news, (s.run stamp cap max ops).times x = 1)
      ↔ Each stamp cap max (Sound stamp max) s ops := by
  constructor
  · intro hone
    by_contra hsound
    obtain ⟨x, hx, hspoilt⟩ := run_spoils hmax h hfresh hloss hsound
    have ht := hone x hx
    cases hspoilt with
    | repeated ht' => omega
    | again _ n hn hw => exact hend x hx hw.mem
    | skipped ht' => omega
  · intro hsound x hx
    obtain ⟨ht, -⟩ | ⟨-, hp⟩ := run_exact hmax h hfresh hloss hsound x hx
    · exact ht
    · exact absurd hp (hend x hx)

lemma not_mem_pending_run (hx : x ∈ s.news) (hfresh : Each stamp cap max Fresh s ops)
    (hp : x ∉ s.pending stamp) : x ∉ (s.run stamp cap max ops).pending stamp := by
  induction ops generalizing s with
  | nil => exact hp
  | cons op ops ih =>
    exact ih (mem_news_step hx) hfresh.2 (not_mem_pending_step hp (ne_of_fresh hx hfresh.1))

/-- Enough sound polls get past an item that waits. -/
lemma not_mem_pending_of_polls (hmax : 0 < max) (h : s.Exact stamp)
    (hfresh : Each stamp cap max Fresh s ops)
    (hloss : Each stamp cap max (Lossless stamp cap) s ops)
    (hsound : Each stamp cap max (Sound stamp max) s ops) (hx : x ∈ s.news)
    (hw : s.Waits stamp x n) (hn : n < polls ops) :
    x ∉ (s.run stamp cap max ops).pending stamp := by
  induction ops generalizing s n with
  | nil => cases hn
  | cons op ops ih =>
    obtain ⟨hf, hfresh⟩ := hfresh
    obtain ⟨hl, hloss⟩ := hloss
    obtain ⟨hs, hsound⟩ := hsound
    have h' : (s.step stamp cap max op).Exact stamp := step_exact hmax h hf hl hs
    have hx' : x ∈ (s.step stamp cap max op).news := mem_news_step hx
    cases op with
    | record y => exact ih h' hfresh hloss hsound hx' (waits_record hl hx hw) hn
    | poll =>
      have hpolls : polls (.poll :: ops) = polls ops + 1 := List.countP_cons_of_pos rfl
      have hpoll : x ∈ s.batch stamp max ∨ ∃ m < n,
          (s.step stamp cap max .poll).Waits stamp x m := waits_poll hmax hx hs hw
      obtain hb | ⟨m, hm, hw⟩ := hpoll
      · rw [run_cons]
        refine not_mem_pending_run hx' hfresh ?_
        obtain ⟨-, hp⟩ | ⟨ht, -⟩ := h' x hx'
        · exact hp
        · rw [times_poll, if_pos hb] at ht
          exact absurd ht (Nat.succ_ne_zero _)
      · exact ih h' hfresh hloss hsound hx' hw (by omega)

/-- In a run of sound steps every item is in exactly one batch, after as many further batches as there
were items due. -/
theorem run_times (hmax : 0 < max) (h : s.Exact stamp) (hfresh : Each stamp cap max Fresh s ops)
    (hloss : Each stamp cap max (Lossless stamp cap) s ops)
    (hsound : Each stamp cap max (Sound stamp max) s ops) (hx : x ∈ s.news)
    (hn : s.sent.length + (s.pending stamp).length ≤ (s.run stamp cap max ops).sent.length) :
    (s.run stamp cap max ops).times x = 1 := by
  rw [length_sent_run] at hn
  have hpast : x ∉ (s.run stamp cap max ops).pending stamp := by
    obtain ⟨-, hp⟩ | ⟨-, hp⟩ := h x hx
    · exact not_mem_pending_run hx hfresh hp
    · obtain ⟨u, v, huv⟩ := List.append_of_mem hp
      have hlen : u.length < (s.pending stamp).length := by
        rw [huv, List.length_append, List.length_cons]
        omega
      exact not_mem_pending_of_polls hmax h hfresh hloss hsound hx ⟨u, v, huv, le_rfl⟩
        (hlen.trans_le (Nat.le_of_add_le_add_left hn))
  obtain ⟨ht, -⟩ | ⟨-, hp⟩ := run_exact hmax h hfresh hloss hsound x (mem_news_run hx)
  · exact ht
  · exact absurd hp hpast

end Feed

end Lib
