import Waf.Storage.Query

/-!
# The historical series

`series_readonly` groups the events of a range by second and action in SQL, and folds the rows into one
bucket for each second: a row of the second of the last bucket is added to it, any other row opens a
new one. What the fold makes of any rows in the order of their seconds is a bucket for each second, with
the sums of its rows (`Folded`). The names of the actions are those that `flush` writes. So the series is
the histogram of the range (`series_histogram`).
-/

namespace Waf
open Lib

structure TimeBucket where
  sec : Nat
  allowed : Nat := 0
  challenged : Nat := 0
  blocked : Nat := 0
  tarpit : Nat := 0
  deriving DecidableEq

def TimeBucket.add (b : TimeBucket) (action : Str) (n : Nat) : TimeBucket :=
  match String.ofList action with
  | "allow" => { b with allowed := satAdd32 b.allowed n }
  | "challenge" => { b with challenged := satAdd32 b.challenged n }
  | "block" => { b with blocked := satAdd32 b.blocked n }
  | "tarpit" => { b with tarpit := satAdd32 b.tarpit n }
  | _ => b

/-- The name under which `flush` stores an action. -/
def actionName : Action → Str
  | .allow => "allow"
  | .challenge => "challenge"
  | .block => "block"
  | .tarpit => "tarpit"

/-- A row of the query: second, action and number of events. -/
structure Row where
  sec : Int
  action : Str
  count : Int
  deriving DecidableEq

/-- An `i64` cast to `u64`. -/
def asU64 (n : Int) : Nat := (n % 2 ^ 64).toNat

/-- An `i64` cast to `u32`. -/
def asU32 (n : Int) : Nat := (n % 2 ^ 32).toNat

/-- One row of the loop, which the two functions share. -/
def foldRow (out : List TimeBucket) (r : Row) : List TimeBucket :=
  match out.getLast?.filter fun b => b.sec = asU64 r.sec with
  | some b => out.dropLast ++ [b.add r.action (asU32 r.count)]
  | none => out ++ [({ sec := asU64 r.sec } : TimeBucket).add r.action (asU32 r.count)]

/-- `series_readonly`, from the rows of its query. -/
def seriesReadonly (rows : List Row) : List TimeBucket := rows.foldl foldRow []

/-- `Storage::series`, from the rows of its query. -/
def Storage.series (rows : List Row) : List TimeBucket := rows.foldl foldRow []

/-- The second that SQLite computes for an event. -/
def secOf (e : Event) : Int := (asI64 e.tsMs).tdiv 1000

/-- What the query returns: a row for each second and action that occur in the range, with the number of
their events, in the order of the seconds. -/
structure Grouped (events : List Event) (sinceMs untilMs : Nat) (rows : List Row) : Prop where
  distinct : (rows.map fun r => (r.sec, r.action)).Nodup
  occurs : ∀ sec action, (∃ r ∈ rows, r.sec = sec ∧ r.action = action)
    ↔ ∃ e ∈ events, signedIn sinceMs untilMs e = true ∧ secOf e = sec ∧ actionName e.action = action
  count : ∀ r ∈ rows, r.count = (events.countP fun e =>
    signedIn sinceMs untilMs e ∧ secOf e = r.sec ∧ actionName e.action = r.action : Nat)
  sorted : rows.Pairwise fun r r' => r.sec ≤ r'.sec

/-- The counter of an action. -/
def TimeBucket.field (b : TimeBucket) : Action → Nat
  | .allow => b.allowed
  | .challenge => b.challenged
  | .block => b.blocked
  | .tarpit => b.tarpit

/-- The number of events of a range with a second and an action. -/
def eventsOf (events : List Event) (sinceMs untilMs sec : Nat) (a : Action) : Nat :=
  events.countP fun e => (sinceMs ≤ e.tsMs ∧ e.tsMs ≤ untilMs) ∧ e.tsMs / 1000 = sec ∧ e.action = a

/-- One bucket for each second with events in the range, in ascending order, with the numbers of its
events. -/
structure Histogram (events : List Event) (sinceMs untilMs : Nat) (out : List TimeBucket) : Prop where
  ascending : (out.map TimeBucket.sec).Pairwise (· < ·)
  seconds : ∀ sec, sec ∈ out.map TimeBucket.sec
    ↔ ∃ e ∈ events, (sinceMs ≤ e.tsMs ∧ e.tsMs ≤ untilMs) ∧ e.tsMs / 1000 = sec
  counts : ∀ b ∈ out, ∀ a, b.field a = eventsOf events sinceMs untilMs b.sec a

variable {b : TimeBucket} {action : Str} {a : Action} {n : Nat} {r : Row} {rows : List Row}
  {out : List TimeBucket} {events : List Event} {sinceMs untilMs : Nat} {e : Event}

/-! ## Buckets -/

lemma actionName_injective {a a' : Action} (h : actionName a = actionName a') : a = a' := by
  cases a <;> cases a' <;> first | rfl | exact absurd h (by decide)

/-- Adding to a bucket keeps its second. -/
@[simp] lemma add_sec : (b.add action n).sec = b.sec := by
  rw [TimeBucket.add]
  split <;> rfl

/-- The bucket with another number for an action. -/
def TimeBucket.put (b : TimeBucket) (n : Nat) : Action → TimeBucket
  | .allow => { b with allowed := n }
  | .challenge => { b with challenged := n }
  | .block => { b with blocked := n }
  | .tarpit => { b with tarpit := n }

/-- Putting a count changes the field of its action. -/
lemma put_field (a' : Action) : (b.put n a').field a = if a' = a then n else b.field a := by
  cases a' <;> cases a <;> rfl

/-- The number of one action has been raised. -/
lemma raised_field (a' : Action) : (b.put (satAdd32 (b.field a') n) a').field a
    = if actionName a' = actionName a then satAdd32 (b.field a) n else b.field a := by
  rw [put_field]
  by_cases h : a' = a
  case pos => rw [if_pos h, if_pos (congrArg actionName h), h]
  case neg => rw [if_neg h, if_neg fun hname => h (actionName_injective hname)]

/-- Adding the events of an action. -/
lemma add_field : (b.add action n).field a
    = if action = actionName a then satAdd32 (b.field a) n else b.field a := by
  have hname : ∀ {s : String}, String.ofList action = s → action = s.toList := by
    rintro s rfl
    exact String.toList_ofList.symm
  rw [TimeBucket.add]
  split
  case h_1 h =>
    rw [hname h]
    exact raised_field .allow
  case h_2 h =>
    rw [hname h]
    exact raised_field .challenge
  case h_3 h =>
    rw [hname h]
    exact raised_field .block
  case h_4 h =>
    rw [hname h]
    exact raised_field .tarpit
  case h_5 hallow hchallenge hblock htarpit =>
    rw [if_neg]
    rintro rfl
    cases a with
    | allow => exact hallow String.ofList_toList
    | challenge => exact hchallenge String.ofList_toList
    | block => exact hblock String.ofList_toList
    | tarpit => exact htarpit String.ofList_toList

/-! ## The fold -/

/-- The events of the rows of a second with an action. -/
def rowsOf (rows : List Row) (sec : Nat) (a : Action) : Nat :=
  ((rows.filter fun r => asU64 r.sec = sec ∧ r.action = actionName a).map fun r => asU32 r.count).sum

/-- Buckets hold rows: one for each of their seconds, in ascending order, with the sums of its rows. -/
structure Folded (rows : List Row) (out : List TimeBucket) : Prop where
  last : out.getLast?.map TimeBucket.sec = rows.getLast?.map fun r => asU64 r.sec
  ascending : (out.map TimeBucket.sec).Pairwise (· < ·)
  seconds : ∀ sec, sec ∈ out.map TimeBucket.sec ↔ ∃ r ∈ rows, asU64 r.sec = sec
  sums : ∀ b ∈ out, ∀ a, b.field a = min (rowsOf rows b.sec a) u32Max

lemma rowsOf_concat {sec : Nat} : rowsOf (rows ++ [r]) sec a
    = rowsOf rows sec a + if asU64 r.sec = sec ∧ r.action = actionName a then asU32 r.count else 0 := by
  rw [rowsOf, List.filter_append, List.map_append, List.sum_append, ← rowsOf]
  congr 1
  by_cases h : asU64 r.sec = sec ∧ r.action = actionName a
  case pos => simp [h]
  case neg => simp [h]

/-- No rows of a second, no events. -/
lemma rowsOf_eq_zero {sec : Nat} (h : ∀ r ∈ rows, asU64 r.sec ≠ sec) : rowsOf rows sec a = 0 := by
  have hnone : rows.filter (fun r => decide (asU64 r.sec = sec ∧ r.action = actionName a)) = [] :=
    List.filter_eq_nil_iff.mpr fun r hr hd => h r hr (of_decide_eq_true hd).1
  rw [rowsOf, hnone]
  rfl

/-- The counters of the bucket of a row. -/
lemma add_sums (hsec : b.sec = asU64 r.sec) (hsum : b.field a = min (rowsOf rows b.sec a) u32Max) :
    (b.add r.action (asU32 r.count)).field a = min (rowsOf (rows ++ [r]) b.sec a) u32Max := by
  rw [add_field, rowsOf_concat]
  by_cases h : r.action = actionName a
  case pos =>
    rw [if_pos h, if_pos ⟨hsec.symm, h⟩, hsum, satAdd32]
    omega
  case neg => rw [if_neg h, if_neg fun hand => h hand.2, Nat.add_zero, hsum]

/-- A bucket of another second keeps its counters. -/
lemma other_sums (hsec : b.sec ≠ asU64 r.sec) (hsum : b.field a = min (rowsOf rows b.sec a) u32Max) :
    b.field a = min (rowsOf (rows ++ [r]) b.sec a) u32Max := by
  rw [rowsOf_concat, if_neg fun hand => hsec hand.1.symm, Nat.add_zero, hsum]

lemma exists_rows_concat {sec : Nat} : (∃ r' ∈ rows ++ [r], asU64 r'.sec = sec)
    ↔ (∃ r' ∈ rows, asU64 r'.sec = sec) ∨ asU64 r.sec = sec := by
  simp only [List.mem_append, List.mem_singleton, or_and_right, exists_or, exists_eq_left]

/-- A row of the second of the last bucket. -/
lemma folded_add {init : List TimeBucket} (h : Folded rows (init ++ [b])) (hsec : b.sec = asU64 r.sec) :
    Folded (rows ++ [r]) (init ++ [b.add r.action (asU32 r.count)]) := by
  have hsecs : (init ++ [b.add r.action (asU32 r.count)]).map TimeBucket.sec
      = (init ++ [b]).map TimeBucket.sec := by
    rw [List.map_append, List.map_append, List.map_singleton, List.map_singleton, add_sec]
  refine ⟨?_, hsecs ▸ h.ascending, fun sec => ?_, fun b' hb' a => ?_⟩
  · rw [List.getLast?_concat, List.getLast?_concat]
    show some (b.add r.action (asU32 r.count)).sec = some (asU64 r.sec)
    rw [add_sec, hsec]
  · rw [hsecs, h.seconds, exists_rows_concat]
    refine (or_iff_left_of_imp fun hr => ?_).symm
    rw [← h.seconds, ← hr, ← hsec]
    exact List.mem_map_of_mem (List.mem_append_right _ (.head _))
  · rcases List.mem_append.mp hb' with hb' | hb'
    · have hlt : b'.sec < b.sec := by
        have hasc := h.ascending
        rw [List.map_append] at hasc
        exact (List.pairwise_append.mp hasc).2.2 _ (List.mem_map_of_mem hb') _ (.head _)
      exact other_sums (by omega) (h.sums b' (List.mem_append_left _ hb') a)
    · rw [List.mem_singleton.mp hb', add_sec]
      exact add_sums hsec (h.sums b (List.mem_append_right _ (.head _)) a)

/-- A row of a later second. -/
lemma folded_open (h : Folded rows out) (hlater : ∀ b ∈ out, b.sec < asU64 r.sec) :
    Folded (rows ++ [r]) (out ++ [({ sec := asU64 r.sec } : TimeBucket).add r.action (asU32 r.count)]) := by
  have hnew : ∀ r' ∈ rows, asU64 r'.sec ≠ asU64 r.sec := by
    intro r' hr' heq
    obtain ⟨b, hb, hsec⟩ := List.mem_map.mp ((h.seconds (asU64 r'.sec)).mpr ⟨r', hr', rfl⟩)
    have hlt := hlater b hb
    omega
  refine ⟨?_, ?_, fun sec => ?_, fun b hb a => ?_⟩
  · rw [List.getLast?_concat, List.getLast?_concat]
    exact congrArg some add_sec
  · rw [List.map_append]
    refine List.pairwise_append.mpr ⟨h.ascending, List.pairwise_singleton _ _, ?_⟩
    intro sec hs sec' hs'
    obtain ⟨b, hb, rfl⟩ := List.mem_map.mp hs
    rw [List.map_singleton, add_sec] at hs'
    rw [List.mem_singleton.mp hs']
    exact hlater b hb
  · rw [List.map_append, List.mem_append, h.seconds, exists_rows_concat, List.map_singleton, add_sec,
      List.mem_singleton]
    exact or_congr_right eq_comm
  · rcases List.mem_append.mp hb with hb | hb
    · exact other_sums (Nat.ne_of_lt (hlater b hb)) (h.sums b hb a)
    · rw [List.mem_singleton.mp hb, add_sec]
      refine add_sums rfl ?_
      rw [rowsOf_eq_zero hnew]
      cases a <;> rfl

/-- One more row, of the last second or of a later one. -/
lemma foldRow_folded (h : Folded rows out) (hlater : ∀ r' ∈ rows, asU64 r'.sec ≤ asU64 r.sec) :
    Folded (rows ++ [r]) (foldRow out r) := by
  have hle : ∀ b ∈ out, b.sec ≤ asU64 r.sec := by
    intro b hb
    obtain ⟨r', hr', hsec⟩ := (h.seconds b.sec).mp (List.mem_map_of_mem hb)
    exact hsec ▸ hlater r' hr'
  rw [foldRow]
  cases out using List.reverseRecOn with
  | nil => exact folded_open h fun b hb => by cases hb
  | append_singleton init b =>
    rw [List.getLast?_concat, Option.filter_some]
    by_cases hsec : b.sec = asU64 r.sec
    case pos =>
      rw [decide_eq_true hsec, if_pos rfl]
      show Folded _ ((init ++ [b]).dropLast ++ _)
      rw [List.dropLast_concat]
      exact folded_add h hsec
    case neg =>
      rw [decide_eq_false hsec, if_neg Bool.false_ne_true]
      refine folded_open h fun b' hb' => ?_
      have hb := hle b (List.mem_append_right _ (.head _))
      rcases List.mem_append.mp hb' with hb' | hb'
      · have hasc := h.ascending
        rw [List.map_append] at hasc
        have hlt : b'.sec < b.sec :=
          (List.pairwise_append.mp hasc).2.2 _ (List.mem_map_of_mem hb') _ (.head _)
        omega
      · rw [List.mem_singleton.mp hb']
        omega

/-- What the loop makes of rows in the order of their seconds. -/
lemma foldl_folded (hsorted : rows.Pairwise fun r r' => asU64 r.sec ≤ asU64 r'.sec) :
    Folded rows (rows.foldl foldRow []) := by
  induction rows using List.reverseRecOn with
  | nil => exact ⟨rfl, .nil, fun sec => by simp, fun b hb => by cases hb⟩
  | append_singleton rows r ih =>
    obtain ⟨hrows, -, hlast⟩ := List.pairwise_append.mp hsorted
    rw [List.foldl_concat]
    exact foldRow_folded (ih hrows) fun r' hr' => hlast r' hr' r (.head _)

/-! ## The rows of the query -/

/-- A second in range is read as it was stored. -/
lemma asU64_natCast {n : Nat} (h : n < 2 ^ 64) : asU64 n = n := by
  rw [asU64]
  omega

lemma asU32_natCast {n : Nat} (h : n < 2 ^ 32) : asU32 n = n := by
  rw [asU32]
  omega

/-- Below `2 ^ 63` SQLite divides as usual. -/
lemma secOf_eq (h : e.tsMs < 2 ^ 63) : secOf e = (e.tsMs / 1000 : Nat) := by
  rw [secOf, asI64, if_pos h]
  exact (Int.ofNat_tdiv e.tsMs 1000).symm

/-- Below `2 ^ 63` SQLite compares as usual. -/
lemma signedIn_below (hs : sinceMs < 2 ^ 63) (hu : untilMs < 2 ^ 63) (h : e.tsMs < 2 ^ 63) :
    signedIn sinceMs untilMs e = true ↔ sinceMs ≤ e.tsMs ∧ e.tsMs ≤ untilMs := by
  rw [signedIn, decide_eq_true_iff, asI64_le_iff (iff_of_true hs h), asI64_le_iff (iff_of_true h hu)]

/-- Where keys are distinct, one item has the key of `x`. -/
lemma filter_eq_singleton {α κ : Type} {key : α → κ} {p : α → Bool} {xs : List α} {x : α}
    (hdistinct : (xs.map key).Nodup) (hx : x ∈ xs) (hp : ∀ y ∈ xs, p y = true ↔ key y = key x) :
    xs.filter p = [x] := by
  induction xs with
  | nil => cases hx
  | cons z xs ih =>
    obtain ⟨hz, hxs⟩ := List.nodup_cons.mp hdistinct
    rcases List.mem_cons.mp hx with rfl | hx
    · have hnone : xs.filter p = [] := List.filter_eq_nil_iff.mpr fun y hy hpy =>
        hz ((hp y (.tail _ hy)).mp hpy ▸ List.mem_map_of_mem hy)
      rw [List.filter_cons_of_pos ((hp x (.head _)).mpr rfl), hnone]
    · have hpz : ¬ p z = true := fun hpz =>
        hz ((hp z (.head _)).mp hpz ▸ List.mem_map_of_mem hx)
      rw [List.filter_cons_of_neg hpz]
      exact ih hxs hx fun y hy => hp y (.tail _ hy)

section Query

variable (htimes : ∀ e ∈ events, e.tsMs < 2 ^ 63) (hs : sinceMs < 2 ^ 63) (hu : untilMs < 2 ^ 63)
  (hgrouped : Grouped events sinceMs untilMs rows)
include htimes hs hu hgrouped

/-- The second of a row is that of its events. -/
lemma row_sec (hr : r ∈ rows) : ∃ e ∈ events, (sinceMs ≤ e.tsMs ∧ e.tsMs ≤ untilMs)
    ∧ r.sec = (e.tsMs / 1000 : Nat) ∧ asU64 r.sec = e.tsMs / 1000 := by
  obtain ⟨e, he, hin, hsec, -⟩ := (hgrouped.occurs r.sec r.action).mp ⟨r, hr, rfl, rfl⟩
  have htime := htimes e he
  rw [secOf_eq htime] at hsec
  refine ⟨e, he, (signedIn_below hs hu htime).mp hin, hsec.symm, ?_⟩
  rw [← hsec]
  exact asU64_natCast (by omega)

/-- The rows come by their seconds. -/
lemma rows_ascending : rows.Pairwise fun r r' => asU64 r.sec ≤ asU64 r'.sec := by
  refine hgrouped.sorted.imp_of_mem fun {r r'} hr hr' hle => ?_
  obtain ⟨e, -, -, hsec, hcast⟩ := row_sec htimes hs hu hgrouped hr
  obtain ⟨e', -, -, hsec', hcast'⟩ := row_sec htimes hs hu hgrouped hr'
  omega

/-- A second has rows iff it has events. -/
lemma exists_row_iff {sec : Nat} : (∃ r ∈ rows, asU64 r.sec = sec)
    ↔ ∃ e ∈ events, (sinceMs ≤ e.tsMs ∧ e.tsMs ≤ untilMs) ∧ e.tsMs / 1000 = sec := by
  constructor
  · rintro ⟨r, hr, rfl⟩
    obtain ⟨e, he, hin, -, hcast⟩ := row_sec htimes hs hu hgrouped hr
    exact ⟨e, he, hin, hcast.symm⟩
  · rintro ⟨e, he, hin, rfl⟩
    have htime := htimes e he
    obtain ⟨r, hr, hsec, -⟩ := (hgrouped.occurs (secOf e) (actionName e.action)).mpr
      ⟨e, he, (signedIn_below hs hu htime).mpr hin, rfl, rfl⟩
    refine ⟨r, hr, ?_⟩
    rw [hsec, secOf_eq htime]
    exact asU64_natCast (by omega)

/-- A row counts the events of its second and action. -/
lemma row_count (hr : r ∈ rows) (haction : r.action = actionName a) :
    r.count = (eventsOf events sinceMs untilMs (asU64 r.sec) a : Nat) := by
  obtain ⟨e', -, -, hsec, hcast⟩ := row_sec htimes hs hu hgrouped hr
  rw [hgrouped.count r hr, eventsOf]
  congr 1
  refine List.countP_congr fun e he => ?_
  have htime := htimes e he
  have hsame : ((e.tsMs / 1000 : Nat) : Int) = r.sec ↔ e.tsMs / 1000 = asU64 r.sec := by omega
  rw [decide_eq_true_iff, decide_eq_true_iff, signedIn_below hs hu htime, secOf_eq htime, haction,
    hsame]
  exact and_congr_right fun _ => and_congr_right fun _ =>
    ⟨actionName_injective, fun h => congrArg actionName h⟩

/-- The rows of a second and an action, of which there is at most one, count its events. -/
lemma rowsOf_eq (hcounts : ∀ r ∈ rows, r.count < 2 ^ 32) (sec : Nat) (a : Action) :
    rowsOf rows sec a = eventsOf events sinceMs untilMs sec a
      ∧ eventsOf events sinceMs untilMs sec a ≤ u32Max := by
  by_cases hrow : ∃ r ∈ rows, asU64 r.sec = sec ∧ r.action = actionName a
  case pos =>
    obtain ⟨r, hr, rfl, haction⟩ := hrow
    have hcount := row_count htimes hs hu hgrouped hr haction
    have hone : rows.filter (fun r' => decide (asU64 r'.sec = asU64 r.sec ∧ r'.action = actionName a))
        = [r] := by
      refine filter_eq_singleton hgrouped.distinct hr fun r' hr' => ?_
      obtain ⟨e, -, -, hsec, hcast⟩ := row_sec htimes hs hu hgrouped hr
      obtain ⟨e', -, -, hsec', hcast'⟩ := row_sec htimes hs hu hgrouped hr'
      rw [decide_eq_true_iff, Prod.mk.injEq, haction]
      refine and_congr_left fun _ => ?_
      omega
    have hlt := hcounts r hr
    rw [hcount] at hlt
    have hfits : eventsOf events sinceMs untilMs (asU64 r.sec) a < 2 ^ 32 := by exact_mod_cast hlt
    refine ⟨?_, Nat.le_pred_of_lt hfits⟩
    rw [rowsOf, hone, List.map_singleton, List.sum_singleton, hcount]
    exact asU32_natCast hfits
  case neg =>
    have hnone : rows.filter (fun r => decide (asU64 r.sec = sec ∧ r.action = actionName a)) = [] :=
      List.filter_eq_nil_iff.mpr fun r hr hd => hrow ⟨r, hr, of_decide_eq_true hd⟩
    have hzero : eventsOf events sinceMs untilMs sec a = 0 := by
      refine List.countP_eq_zero.mpr fun e he hd => ?_
      obtain ⟨hin, hsec, haction⟩ := of_decide_eq_true hd
      have htime := htimes e he
      obtain ⟨r, hr, hrsec, hraction⟩ := (hgrouped.occurs (secOf e) (actionName e.action)).mpr
        ⟨e, he, (signedIn_below hs hu htime).mpr hin, rfl, rfl⟩
      refine hrow ⟨r, hr, ?_, haction ▸ hraction⟩
      rw [hrsec, secOf_eq htime, ← hsec]
      exact asU64_natCast (by omega)
    rw [rowsOf, hnone, hzero]
    exact ⟨rfl, Nat.zero_le _⟩

end Query

/-- The historical series is the histogram of its range by seconds and actions, in both functions. -/
theorem series_histogram (times : ∀ e ∈ events, e.tsMs < 2 ^ 63) (since_fits : sinceMs < 2 ^ 63)
    (until_fits : untilMs < 2 ^ 63) (grouped : Grouped events sinceMs untilMs rows)
    (counts_fit : ∀ r ∈ rows, r.count < 2 ^ 32) :
    Histogram events sinceMs untilMs (seriesReadonly rows)
      ∧ Histogram events sinceMs untilMs (Storage.series rows) := by
  have hfolded := foldl_folded (rows_ascending times since_fits until_fits grouped)
  have hhistogram : Histogram events sinceMs untilMs (rows.foldl foldRow []) := by
    refine ⟨hfolded.ascending, fun sec => ?_, fun b hb a => ?_⟩
    · rw [hfolded.seconds]
      exact exists_row_iff times since_fits until_fits grouped
    · obtain ⟨hrows, hfits⟩ := rowsOf_eq times since_fits until_fits grouped counts_fit b.sec a
      rw [hfolded.sums b hb a, hrows, Nat.min_eq_left hfits]
  exact ⟨hhistogram, hhistogram⟩

/-- Two allowed requests and a challenged one in one second, another in the next second, and one after
the range. -/
def mixedEvents : List Event :=
  [Event.ofDecision pageCtx (Decision.allow "1") 1500,
    Event.ofDecision pageCtx (Decision.challenge "2" 40 []) 1550,
    Event.ofDecision pageCtx (Decision.allow "3") 1600,
    Event.ofDecision pageCtx (Decision.challenge "4" 40 []) 2100,
    Event.ofDecision pageCtx (Decision.allow "5") 9000]

def mixedRows : List Row := [⟨1, "allow", 2⟩, ⟨1, "challenge", 1⟩, ⟨2, "challenge", 1⟩]

/-- The sample rows are grouped as the query does it. -/
lemma mixedRows_grouped : Grouped mixedEvents 0 5000 mixedRows where
  distinct := by decide
  occurs sec action := by
    have hrows : (mixedRows.map fun r => (r.sec, r.action))
        ⊆ (mixedEvents.filter (signedIn 0 5000)).map fun e => (secOf e, actionName e.action) := by decide
    have hevents : (mixedEvents.filter (signedIn 0 5000)).map (fun e => (secOf e, actionName e.action))
        ⊆ mixedRows.map fun r => (r.sec, r.action) := by decide
    constructor
    · rintro ⟨r, hr, rfl, rfl⟩
      obtain ⟨e, he, heq⟩ := List.mem_map.mp (hrows (List.mem_map_of_mem hr))
      obtain ⟨he, hin⟩ := List.mem_filter.mp he
      obtain ⟨hsec, haction⟩ := Prod.mk.inj heq
      exact ⟨e, he, hin, hsec, haction⟩
    · rintro ⟨e, he, hin, rfl, rfl⟩
      obtain ⟨r, hr, heq⟩ := List.mem_map.mp
        (hevents (List.mem_map_of_mem (List.mem_filter.mpr ⟨he, hin⟩)))
      obtain ⟨hsec, haction⟩ := Prod.mk.inj heq
      exact ⟨r, hr, hsec, haction⟩
  count := by decide
  sorted := by decide

/-- The buckets of the two seconds. -/
theorem mixed_histogram : seriesReadonly mixedRows = [⟨1, 2, 1, 0, 0⟩, ⟨2, 0, 1, 0, 0⟩]
    ∧ Histogram mixedEvents 0 5000 (seriesReadonly mixedRows)
    ∧ Histogram mixedEvents 0 5000 (Storage.series mixedRows) :=
  ⟨by decide, series_histogram (by decide) (by decide) (by decide) mixedRows_grouped (by decide)⟩

end Waf
