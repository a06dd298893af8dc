import Waf.Lib.HashMap
import Waf.Lib.Newest

/-!
# Counting the frequent keys

A table of bounded size that counts how often keys are observed. When it is full, the next new key takes
the place of one that is there: of a few entries, whichever the table enumerates first, the one with the
least count. So counts get lost, but a key whose count is a larger part of all observations than one
entry is of those looked at cannot be the least of them. It stays, and is counted from then on
(`Fed.keeps`).

Nothing is lost while there are no more different keys than the table holds (`Counts.exact`), and never
is a key counted too often (`Counts.le`).
-/

namespace Lib
open HashMap

variable {K : Type}

/-- The key of the first entry with the least count, if that is below the greatest number. -/
def least (entries : List (K × Nat)) : Option K × Nat :=
  entries.foldl (fun acc e => if e.2 < acc.2 then (some e.1, e.2) else acc) (none, 2 ^ 64 - 1)

/-- No entry has less, and the key has as much. -/
lemma least_spec (entries : List (K × Nat)) :
    (∀ e ∈ entries, (least entries).2 ≤ e.2)
      ∧ (∀ k, (least entries).1 = some k → (k, (least entries).2) ∈ entries)
      ∧ ((least entries).1 = none → (least entries).2 = 2 ^ 64 - 1) := by
  induction entries using List.reverseRecOn with
  | nil => exact ⟨nofun, nofun, fun _ => rfl⟩
  | append_singleton entries e ih =>
    obtain ⟨hle, hsome, hnone⟩ := ih
    have hstep : least (entries ++ [e])
        = if e.2 < (least entries).2 then (some e.1, e.2) else least entries := by
      rw [least, List.foldl_append]
      rfl
    rw [hstep]
    split
    case isTrue hlt =>
      refine ⟨fun f hf => ?_, fun k hk => ?_, nofun⟩
      · rcases List.mem_append.mp hf with hf | hf
        · exact hlt.le.trans (hle f hf)
        · rw [List.mem_singleton.mp hf]
      · cases hk
        exact List.mem_append_right _ (.head _)
    case isFalse hge =>
      refine ⟨fun f hf => ?_, fun k hk => List.mem_append_left _ (hsome k hk), hnone⟩
      rcases List.mem_append.mp hf with hf | hf
      · exact hle f hf
      · rw [List.mem_singleton.mp hf]
        exact Nat.le_of_not_lt hge

/-- Of entries below the greatest number there is a least. -/
lemma exists_least {entries : List (K × Nat)} (hne : entries ≠ [])
    (hlt : ∀ e ∈ entries, e.2 < 2 ^ 64 - 1) :
    ∃ k, (least entries).1 = some k ∧ (k, (least entries).2) ∈ entries := by
  obtain ⟨hle, hsome, hnone⟩ := least_spec entries
  cases hk : (least entries).1 with
  | some k => exact ⟨k, rfl, hsome k hk⟩
  | none =>
    obtain ⟨e, he⟩ := List.exists_mem_of_ne_nil _ hne
    have hmax := hnone hk
    have hmin := hle e he
    have hsmall := hlt e he
    omega

lemma size_eq_length {m : HashMap K Nat} : m.size = m.toPairs.length := by
  rw [size, toPairs, List.length_map]

variable [DecidableEq K]

/-- The first `n` entries of a table, in whatever order it enumerates them. -/
def Sample (n : Nat) (m : HashMap K Nat) (sample : List (K × Nat)) : Prop :=
  sample.length = min n m.size ∧ ∃ rest, (sample ++ rest).Perm m.toPairs

/-- The table with room for one more key. -/
def makeRoom (cap : Nat) (sample : List (K × Nat)) (m : HashMap K Nat) : HashMap K Nat :=
  if cap ≤ m.size then
    match (least sample).1 with
    | some k => m.erase k
    | none => m
  else m

/-- An observation of a key. -/
def bump (cap : Nat) (sample : List (K × Nat)) (m : HashMap K Nat) (key : K) : HashMap K Nat :=
  match m.lookup key with
  | some v => m.insert key ((v + 1) % 2 ^ 64)
  | none => (makeRoom cap sample m).upsert key 0 fun v => (v + 1) % 2 ^ 64

/-- The tables after some more observations. -/
inductive Fed (cap n : Nat) (m : HashMap K Nat) : List K → HashMap K Nat → Prop
  | nil : Fed cap n m [] m
  | bump {keys : List K} {m' : HashMap K Nat} {sample : List (K × Nat)} (key : K)
    (h : Fed cap n m keys m') (hs : Sample n m' sample) :
    Fed cap n m (keys ++ [key]) (bump cap sample m' key)

/-- All that is counted. -/
def totalCount (m : HashMap K Nat) : Nat := (m.toPairs.map Prod.snd).sum

/-- How often a key was observed. -/
def times (keys : List K) (k : K) : Nat := keys.count k

/-- What holds of a table after some observations. -/
structure Counts (cap : Nat) (keys : List K) (m : HashMap K Nat) : Prop where
  size : m.size ≤ cap
  pos : ∀ k v, m.lookup k = some v → 0 < v
  le : ∀ k, (m.lookup k).getD 0 ≤ times keys k
  total : totalCount m ≤ keys.length
  exact : keys.toFinset.card ≤ cap → ∀ k, (m.lookup k).getD 0 = times keys k

/-! ## Entries -/

variable {m m' : HashMap K Nat} {keys more : List K} {k key : K} {sample : List (K × Nat)}
  {cap n v : Nat}

lemma times_concat : times (keys ++ [key]) k = times keys k + if k = key then 1 else 0 := by
  have hone : [key].count k = if k = key then 1 else 0 := by
    rw [List.count_singleton]
    by_cases hk : k = key
    case pos => rw [if_pos hk, hk, beq_self_eq_true, if_pos rfl]
    case neg => rw [if_neg hk, beq_false_of_ne (Ne.symm hk), if_neg Bool.false_ne_true]
  rw [times, List.count_append, hone, times]

lemma times_append : times (keys ++ more) k = times keys k + times more k := List.count_append

/-- A key alone is counted each time. -/
lemma times_replicate : times (List.replicate n k) k = n := List.count_replicate_self

lemma times_eq_zero : times keys k = 0 ↔ k ∉ keys := List.count_eq_zero

/-- Erasing a key takes its pair off the list. -/
lemma toPairs_erase : toPairs (m.erase k) = m.toPairs.filter fun e => e.1 ≠ k := map_kerase m.nodupKeys

/-- An entry and the others. -/
lemma toPairs_perm (h : m.lookup k = some v) :
    m.toPairs.Perm ((k, v) :: m.toPairs.filter fun e => e.1 ≠ k) := by
  have hk : k ∈ m.entries.keys := by
    by_contra hno
    rw [AList.lookup, List.dlookup_eq_none.mpr hno] at h
    cases h
  obtain ⟨w, l₁, l₂, hl₁, hl, hkerase⟩ := List.exists_of_kerase hk
  have hw : w = v := by
    have hmem : (⟨k, w⟩ : Sigma fun _ : K => Nat) ∈ m.entries := by
      rw [hl]
      exact List.mem_append_right _ (.head _)
    have hlookup := List.mem_dlookup m.nodupKeys hmem
    exact Option.some.inj (hlookup.symm.trans h)
  have hrest : toPairs (m.erase k) = (l₁ ++ l₂).map fun e => (e.1, e.2) :=
    congrArg (List.map fun e : Sigma fun _ : K => Nat => (e.1, e.2)) hkerase
  rw [← toPairs_erase, hrest, toPairs, hl, ← hw, List.map_append, List.map_append, List.map_cons]
  exact List.perm_middle

/-- The total is a count and those of the other keys. -/
lemma totalCount_eq (h : m.lookup k = some v) :
    totalCount m = v + ((m.toPairs.filter fun e => e.1 ≠ k).map Prod.snd).sum := by
  rw [totalCount, ((toPairs_perm h).map Prod.snd).sum_eq, List.map_cons, List.sum_cons]

/-- Leaving out a key that is not there changes nothing. -/
lemma filter_toPairs (h : m.lookup k = none) : (m.toPairs.filter fun e => e.1 ≠ k) = m.toPairs := by
  refine List.filter_eq_self.mpr fun e he => ?_
  rw [decide_eq_true_eq]
  rintro rfl
  rw [mem_toPairs.mp (show (e.1, e.2) ∈ m.toPairs from he)] at h
  cases h

/-- No count exceeds the total. -/
lemma lookup_le_total (h : m.lookup k = some v) : v ≤ totalCount m := by
  rw [totalCount_eq h]
  exact Nat.le_add_right _ _

/-! ## One observation -/

/-- A full table loses an entry whose count is at most the average of the entries looked at. -/
lemma makeRoom_cases (h : Counts cap keys m) (hs : Sample n m sample) (hn : 0 < n) (hcap : 0 < cap)
    (hlen : keys.length < 2 ^ 64 - 1) :
    (m.size < cap ∧ makeRoom cap sample m = m)
      ∨ (m.size = cap ∧ ∃ k v, m.lookup k = some v ∧ makeRoom cap sample m = m.erase k
        ∧ min n cap * v ≤ keys.length) := by
  obtain ⟨hlength, rest, hperm⟩ := hs
  by_cases hfull : cap ≤ m.size
  case neg => exact .inl ⟨Nat.lt_of_not_le hfull, if_neg hfull⟩
  case pos =>
    have hsize : m.size = cap := Nat.le_antisymm h.size hfull
    have hentry : ∀ e ∈ sample, m.lookup e.1 = some e.2 := fun e he =>
      mem_toPairs.mp (hperm.subset (List.mem_append_left _ he))
    rw [hsize] at hlength
    have hne : sample ≠ [] := by
      rintro rfl
      rw [List.length_nil] at hlength
      omega
    have hsmall : ∀ e ∈ sample, e.2 < 2 ^ 64 - 1 := fun e he =>
      lt_of_le_of_lt ((lookup_le_total (hentry e he)).trans h.total) hlen
    obtain ⟨k, hk, hmem⟩ := exists_least hne hsmall
    obtain ⟨hle, -, -⟩ := least_spec sample
    refine .inr ⟨hsize, k, (least sample).2, hentry _ hmem, ?_, ?_⟩
    · rw [makeRoom, if_pos hfull, hk]
    · have hsum : sample.length • (least sample).2 ≤ (sample.map Prod.snd).sum := by
        rw [← List.length_map (f := Prod.snd)]
        refine List.card_nsmul_le_sum _ _ fun v hv => ?_
        obtain ⟨e, he, rfl⟩ := List.mem_map.mp hv
        exact hle e he
      have htotal : (sample.map Prod.snd).sum ≤ totalCount m := by
        rw [totalCount, ← (hperm.map Prod.snd).sum_eq, List.map_append, List.sum_append]
        exact Nat.le_add_right _ _
      calc min n cap * (least sample).2 = sample.length • (least sample).2 := by
            rw [hlength, smul_eq_mul]
        _ ≤ (sample.map Prod.snd).sum := hsum
        _ ≤ totalCount m := htotal
        _ ≤ keys.length := h.total

/-- A known key has one more, and the others are as they were. -/
lemma bump_known (h : m.lookup key = some v) (hv : v + 1 < 2 ^ 64) :
    bump cap sample m key = m.insert key (v + 1) := by
  simp only [bump, h, Nat.mod_eq_of_lt hv]

/-- Making room does not bring in a key. -/
lemma makeRoom_lookup (h : m.lookup key = none) :
    (makeRoom cap sample m).lookup key = none := by
  rw [makeRoom]
  split
  case isTrue =>
    cases (least sample).1 with
    | none => exact h
    | some k =>
      by_cases hk : key = k
      · rw [hk, AList.lookup_erase]
      · rwa [AList.lookup_erase_ne hk]
  case isFalse => exact h

/-- A key that is not in the table comes in with one, once there is room. -/
lemma bump_new (h : m.lookup key = none) :
    bump cap sample m key = (makeRoom cap sample m).insert key 1 := by
  simp only [bump, h, upsert, makeRoom_lookup h, Option.getD_none]
  rfl

lemma size_insert_known (h : m.lookup key = some v) {w : Nat} : size (m.insert key w) = m.size := by
  rw [size_eq_length, size_eq_length, (toPairs_perm h).length_eq, toPairs_insert, List.length_cons,
    List.length_cons]

lemma size_erase_known (h : m.lookup key = some v) : size (m.erase key) + 1 = m.size := by
  rw [size_eq_length, size_eq_length, (toPairs_perm h).length_eq, toPairs_erase, List.length_cons]

/-- Counting a known key adds one to the total. -/
lemma totalCount_insert_known (h : m.lookup key = some v) :
    totalCount (m.insert key (v + 1)) = totalCount m + 1 := by
  rw [totalCount_eq h, totalCount, toPairs_insert, List.map_cons, List.sum_cons]
  omega

/-- A new key adds its count to the total. -/
lemma totalCount_insert_new (h : m.lookup key = none) {w : Nat} :
    totalCount (m.insert key w) = w + totalCount m := by
  rw [totalCount, toPairs_insert, filter_toPairs h, List.map_cons, List.sum_cons]
  rfl

lemma totalCount_erase_le : totalCount (m.erase key) ≤ totalCount m := by
  rw [totalCount, totalCount, toPairs_erase]
  exact (List.filter_sublist.map _).sum_le_sum fun _ _ => Nat.zero_le _

namespace Counts

lemma empty : Counts cap ([] : List K) ∅ where
  size := Nat.zero_le _
  pos := nofun
  le _ := Nat.zero_le _
  total := Nat.zero_le _
  exact _ _ := rfl

/-- The keys of the table were observed. -/
lemma size_le_card (h : Counts cap keys m) : m.size ≤ keys.toFinset.card := by
  have hsub : m.keys.toFinset ⊆ keys.toFinset := by
    intro k hk
    obtain ⟨v, hv⟩ := Option.isSome_iff_exists.mp
      (AList.lookup_isSome.mpr (AList.mem_keys.mp (List.mem_toFinset.mp hk)))
    have hpos := h.pos k v hv
    have hle := h.le k
    rw [hv, Option.getD_some] at hle
    exact List.mem_toFinset.mpr (List.count_pos_iff.mp (lt_of_lt_of_le hpos hle : 0 < times keys k))
  have hcard := Finset.card_le_card hsub
  rw [List.toFinset_card_of_nodup m.keys_nodup] at hcard
  have hlength : m.keys.length = m.size := List.length_map _
  rwa [hlength] at hcard

lemma card_le_append : keys.toFinset.card ≤ (keys ++ [key]).toFinset.card :=
  Finset.card_le_card fun _ hk => List.mem_toFinset.mpr
    (List.mem_append_left _ (List.mem_toFinset.mp hk))

/-- A key that is known is counted. -/
lemma insert_known (h : Counts cap keys m) (hv : m.lookup key = some v) :
    Counts cap (keys ++ [key]) (m.insert key (v + 1)) where
  size := by
    rw [size_insert_known hv]
    exact h.size
  pos k w hw := by
    rw [lookup_insert] at hw
    split at hw
    case isTrue =>
      cases hw
      exact Nat.succ_pos v
    case isFalse => exact h.pos k w hw
  le k := by
    have hle := h.le k
    rw [lookup_insert, times_concat]
    split
    case isTrue hk =>
      rw [hk, hv, Option.getD_some] at hle
      rw [hk, Option.getD_some]
      omega
    case isFalse => exact hle.trans (Nat.le_add_right _ _)
  total := by
    rw [totalCount_insert_known hv, List.length_append]
    exact Nat.succ_le_succ h.total
  exact hcard k := by
    have hk := h.exact (card_le_append.trans hcard) k
    rw [lookup_insert, times_concat]
    split
    case isTrue hkey =>
      rw [hkey, hv, Option.getD_some] at hk
      rw [hkey, Option.getD_some, hk]
    case isFalse => rw [hk, Nat.add_zero]

/-- A new key is counted, after others have been dropped. -/
lemma insert_new (h : Counts cap keys m) (hnone : m.lookup key = none)
    (hroom : m'.size < cap) (hsub : ∀ k v, m'.lookup k = some v → m.lookup k = some v)
    (htotal : totalCount m' ≤ totalCount m) (hsame : keys.toFinset.card < cap → m' = m) :
    Counts cap (keys ++ [key]) (m'.insert key 1) := by
  have hnone' : m'.lookup key = none := by
    cases hv : m'.lookup key with
    | none => rfl
    | some v =>
      rw [hsub key v hv] at hnone
      cases hnone
  constructor
  case size => exact size_insert_le.trans hroom
  case pos =>
    intro k w hw
    rw [lookup_insert] at hw
    split at hw
    case isTrue =>
      cases hw
      exact Nat.one_pos
    case isFalse => exact h.pos k w (hsub k w hw)
  case le =>
    intro k
    rw [lookup_insert, times_concat]
    split
    case isTrue =>
      rw [Option.getD_some]
      exact Nat.le_add_left _ _
    case isFalse =>
      cases hv : m'.lookup k with
      | none => exact Nat.zero_le _
      | some v =>
        have hle := h.le k
        rw [hsub k v hv] at hle
        exact hle.trans (Nat.le_add_right _ _)
  case total =>
    have hle := h.total
    rw [totalCount_insert_new hnone', List.length_append, List.length_singleton]
    omega
  case exact =>
    intro hcard k
    have hexact := h.exact (card_le_append.trans hcard)
    have hkey : key ∉ keys := by
      have hcount := hexact key
      rw [hnone] at hcount
      exact times_eq_zero.mp hcount.symm
    have hless : keys.toFinset.card < cap := by
      have hnew : (keys ++ [key]).toFinset = insert key keys.toFinset := by
        ext x
        simp
      rw [hnew, Finset.card_insert_of_notMem fun hk => hkey (List.mem_toFinset.mp hk)] at hcard
      exact hcard
    rw [hsame hless, lookup_insert, times_concat]
    split
    case isTrue hk =>
      rw [hk, times_eq_zero.mpr hkey]
      rfl
    case isFalse => rw [hexact k, Nat.add_zero]

/-- What one observation does. -/
lemma bump (h : Counts cap keys m) (hs : Sample n m sample) (hn : 0 < n) (hcap : 0 < cap)
    (hlen : keys.length < 2 ^ 64 - 1) : Counts cap (keys ++ [key]) (bump cap sample m key) := by
  cases hv : m.lookup key with
  | some v =>
    have hsmall := (lookup_le_total hv).trans h.total
    rw [bump_known hv (by omega)]
    exact h.insert_known hv
  | none =>
    rw [bump_new hv]
    obtain ⟨hroom, heq⟩ | ⟨hfull, k, v, hk, heq, -⟩ := makeRoom_cases h hs hn hcap hlen
    · rw [heq]
      exact h.insert_new hv hroom (fun _ _ => id) le_rfl fun _ => rfl
    · rw [heq]
      have hsize := size_erase_known hk
      refine h.insert_new hv (by omega) (fun j w hj => ?_) totalCount_erase_le fun hless => ?_
      · by_cases hjk : j = k
        · rw [hjk, AList.lookup_erase] at hj
          cases hj
        · rwa [AList.lookup_erase_ne hjk] at hj
      · have hle := h.size_le_card
        omega

end Counts

/-! ## Runs -/

namespace Fed

/-- A table that was fed counts what it was fed, for all keys before and since. -/
lemma counts (h₀ : Counts cap keys m) (h : Fed cap n m more m') (hn : 0 < n) (hcap : 0 < cap)
    (hlen : keys.length + more.length < 2 ^ 64) : Counts cap (keys ++ more) m' := by
  induction h with
  | nil => rwa [List.append_nil]
  | bump key _ hs ih =>
    rw [List.length_append, List.length_singleton] at hlen
    rw [← List.append_assoc]
    refine (ih (by omega)).bump hs hn hcap ?_
    rw [List.length_append]
    omega

/-- A run has a table after its first observations. -/
lemma split (h : Fed cap n m (keys ++ more) m') :
    ∃ mid, Fed cap n m keys mid ∧ Fed cap n mid more m' := by
  induction more using List.reverseRecOn generalizing m' with
  | nil =>
    rw [List.append_nil] at h
    exact ⟨m', h, .nil⟩
  | append_singleton more key ih =>
    rw [← List.append_assoc] at h
    generalize hall : keys ++ more ++ [key] = all at h
    cases h with
    | nil => simp at hall
    | bump key' h hs =>
      obtain ⟨rfl, hkey⟩ := List.append_inj' hall rfl
      obtain rfl := List.singleton_inj.mp hkey
      obtain ⟨mid, hfirst, hrest⟩ := ih h
      exact ⟨mid, hfirst, .bump _ hrest hs⟩

/-- A key that has more than the part of one entry of those looked at stays, and is counted. -/
lemma keeps {c : Nat} (h₀ : Counts cap keys m) (h : Fed cap n m more m') (hn : 0 < n)
    (hcap : 0 < cap) (hlen : keys.length + more.length < 2 ^ 64) (hc : m.lookup k = some c)
    (hmany : keys.length + more.length < min n cap * c) :
    m'.lookup k = some (c + times more k) := by
  induction h with
  | nil => exact hc
  | @bump more m' sample key h hs ih =>
    rw [List.length_append, List.length_singleton] at hlen hmany
    have hk := ih (by omega) (by omega)
    have hcounts := counts h₀ h hn hcap (by omega)
    have hlength : (keys ++ more).length = keys.length + more.length := List.length_append
    rw [times_concat]
    cases hv : m'.lookup key with
    | some v =>
      have hsmall := (lookup_le_total hv).trans hcounts.total
      rw [bump_known hv (by omega), lookup_insert]
      split
      case isTrue hkey =>
        rw [← hkey, hk] at hv
        rw [← Option.some.inj hv]
        rfl
      case isFalse => rw [hk, Nat.add_zero]
    | none =>
      have hkey : k ≠ key := by
        rintro rfl
        rw [hk] at hv
        cases hv
      rw [bump_new hv, lookup_insert, if_neg hkey, if_neg hkey, Nat.add_zero]
      obtain ⟨-, heq⟩ | ⟨-, j, v, hj, heq, hmin⟩ := makeRoom_cases hcounts hs hn hcap (by omega)
      · rw [heq, hk]
      · have hkj : k ≠ j := by
          rintro rfl
          rw [hk] at hj
          have hle : min n cap * c ≤ min n cap * v :=
            Nat.mul_le_mul_left _ (Option.some.inj hj ▸ Nat.le_add_right _ _)
          omega
        rw [heq, AList.lookup_erase_ne hkj, hk]

end Fed

/-! ## The keys with the greatest counts -/

/-- The first entries in the order of their counts, the table having enumerated them in some order. -/
def topN (order : List (K × Nat)) (n : Nat) : List (K × Nat) :=
  (order.mergeSort fun a b => decide (b.2 ≤ a.2)).take n

omit [DecidableEq K] in
/-- The top of a list are entries with the greatest counts. -/
lemma newest_topN {order entries : List (K × Nat)} (h : order.Perm entries) :
    Newest Prod.snd (fun _ => true) n entries (topN order n) := by
  refine ⟨order.mergeSort fun a b => decide (b.2 ≤ a.2), ?_, ?_, rfl⟩
  · rw [List.filter_true]
    exact (List.mergeSort_perm _ _).trans h
  · refine (List.pairwise_mergeSort ?_ ?_ order).imp of_decide_eq_true
    · intro a b c hab hbc
      exact decide_eq_true ((of_decide_eq_true hbc).trans (of_decide_eq_true hab))
    · intro a b
      rw [Bool.or_eq_true, decide_eq_true_iff, decide_eq_true_iff]
      exact le_total _ _

/-- A key with more than the part of one in `n + 1` is among the first `n`. -/
lemma mem_topN {order : List (K × Nat)} (h : order.Perm m.toPairs) (hk : m.lookup k = some v)
    (hmany : totalCount m < (n + 1) * v) : (k, v) ∈ topN order n := by
  obtain ⟨sorted, hperm, hdesc, hout⟩ := newest_topN (n := n) h
  rw [List.filter_true] at hperm
  have hmem : (k, v) ∈ sorted := hperm.symm.subset (mem_toPairs.mpr hk)
  rw [hout]
  rw [← List.take_append_drop n sorted] at hmem hdesc
  rcases List.mem_append.mp hmem with hmem | hdrop
  · exact hmem
  · exfalso
    obtain ⟨-, -, hcross⟩ := List.pairwise_append.mp hdesc
    have hfull : (sorted.take n).length = n := by
      have hpos := List.length_pos_of_mem hdrop
      rw [List.length_drop] at hpos
      rw [List.length_take]
      omega
    have hfirst : n * v ≤ ((sorted.take n).map Prod.snd).sum := by
      have hsum := List.card_nsmul_le_sum ((sorted.take n).map Prod.snd) v fun w hw => by
        obtain ⟨e, he, rfl⟩ := List.mem_map.mp hw
        exact hcross e he (k, v) hdrop
      rwa [List.length_map, hfull] at hsum
    have hlast : v ≤ ((sorted.drop n).map Prod.snd).sum :=
      List.single_le_sum (fun _ _ => Nat.zero_le _) _ (List.mem_map_of_mem hdrop)
    have htotal : totalCount m
        = ((sorted.take n).map Prod.snd).sum + ((sorted.drop n).map Prod.snd).sum := by
      rw [totalCount, ← (hperm.map Prod.snd).sum_eq, ← List.sum_append, ← List.map_append,
        List.take_append_drop]
    rw [Nat.succ_mul] at hmany
    omega

omit [DecidableEq K] in
lemma mem_topN_order {order : List (K × Nat)} {e : K × Nat} (he : e ∈ topN order n) : e ∈ order :=
  List.mem_mergeSort.mp (List.mem_of_mem_take he)

namespace Counts

/-- While nothing is lost the keys of the table are the observed ones. -/
lemma keys_perm (h : Counts cap keys m) (hfew : keys.toFinset.card ≤ cap) :
    (m.toPairs.map Prod.fst).Perm keys.dedup := by
  have hkeys : m.toPairs.map Prod.fst = m.keys := by
    rw [toPairs, List.map_map]
    rfl
  rw [hkeys]
  refine (List.perm_ext_iff_of_nodup m.keys_nodup (List.nodup_dedup keys)).mpr fun k => ?_
  have hexact := h.exact hfew k
  rw [AList.mem_keys.symm, ← AList.lookup_isSome, List.mem_dedup]
  cases hv : m.lookup k with
  | none =>
    rw [hv, Option.getD_none] at hexact
    exact ⟨fun hs => absurd hs Bool.false_ne_true,
      fun hk => absurd hk (times_eq_zero.mp hexact.symm)⟩
  | some v =>
    rw [hv, Option.getD_some] at hexact
    refine ⟨fun _ => ?_, fun _ => rfl⟩
    by_contra hk
    have hpos := h.pos k v hv
    rw [hexact, times_eq_zero.mpr hk] at hpos
    exact absurd hpos (Nat.lt_irrefl 0)

lemma size_eq_card (h : Counts cap keys m) (hfew : keys.toFinset.card ≤ cap) :
    m.size = keys.toFinset.card := by
  rw [size_eq_length, ← List.length_map Prod.fst, (h.keys_perm hfew).length_eq, List.card_toFinset]

/-- Then the first entries are of the keys that were observed most. -/
lemma newest_keys {order : List (K × Nat)} (h : Counts cap keys m) (hfew : keys.toFinset.card ≤ cap)
    (horder : order.Perm m.toPairs) :
    Newest (times keys) (fun _ => true) n keys.dedup ((topN order n).map Prod.fst) := by
  obtain ⟨sorted, hperm, hdesc, hout⟩ := newest_topN (n := n) horder
  rw [List.filter_true] at hperm
  have hcount : ∀ e ∈ sorted, times keys e.1 = e.2 := by
    intro e he
    have hlookup : m.lookup e.1 = some e.2 := mem_toPairs.mp (hperm.subset he)
    have hexact := h.exact hfew e.1
    rw [hlookup, Option.getD_some] at hexact
    exact hexact.symm
  refine ⟨sorted.map Prod.fst, ?_, ?_, ?_⟩
  · rw [List.filter_true]
    exact (hperm.map Prod.fst).trans (h.keys_perm hfew)
  · refine List.pairwise_map.mpr (hdesc.imp_of_mem fun {a b} ha hb hab => ?_)
    rw [hcount a ha, hcount b hb]
    exact hab
  · rw [hout, List.map_take]

end Counts

end Lib
