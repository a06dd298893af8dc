import Mathlib.Tactic
import Mathlib.Data.List.AList

/-!
# Hash maps

A hash map as a duplicate-free association list (`AList`), whose entry order stands for the
enumeration order of the map. On top of Mathlib's `lookup`, `insert` and `erase` this file adds the
operations that concurrent maps offer: `size`, `containsKey`, `retain` (keep the entries that meet a
predicate), `upsert` (update the entry of a key, inserting a default first when it is absent) and
`modify` (update the entry only if it is there), each with its lookup lemma. `AgreeOn` compares two maps
on some of their keys.
-/

namespace Lib

/-- A hash map from `K` to `V`, in some enumeration order. -/
abbrev HashMap (K V : Type) := AList fun _ : K => V

namespace HashMap
variable {K V : Type}

/-- The number of entries (`len`). -/
def size (m : HashMap K V) : Nat := m.entries.length

/-- The entries in enumeration order (`iter`). -/
def toPairs (m : HashMap K V) : List (K × V) := m.entries.map fun e => (e.1, e.2)

/-- The values in enumeration order (`values`). -/
def values (m : HashMap K V) : List V := m.entries.map fun e => e.2

/-- Keep the entries that meet `p` (`retain`). -/
def retain (p : K → V → Bool) (m : HashMap K V) : HashMap K V :=
  ⟨m.entries.filter fun e => p e.1 e.2, m.nodupKeys.sublist List.filter_sublist⟩

/-- Different numbers give different keys. -/
lemma nodupKeys_ofKeys {key : Nat → K} {v : V} {n : Nat}
    (inj : ∀ i < n, ∀ j < n, key i = key j → i = j) :
    ((List.range n).map fun i => (⟨key i, v⟩ : Sigma fun _ : K => V)).NodupKeys := by
  rw [List.NodupKeys, List.keys, List.map_map]
  exact List.Nodup.map_on (fun i hi j hj h =>
    inj i (List.mem_range.mp hi) j (List.mem_range.mp hj) h) List.nodup_range

/-- The table with an entry for each of the first `n` keys of a sequence. -/
def ofKeys (key : Nat → K) (v : V) (n : Nat)
    (inj : ∀ i < n, ∀ j < n, key i = key j → i = j) : HashMap K V :=
  ⟨(List.range n).map fun i => ⟨key i, v⟩, nodupKeys_ofKeys inj⟩

lemma size_ofKeys {key : Nat → K} {v : V} {n inj} : size (ofKeys key v n inj) = n := by
  rw [size, ofKeys, List.length_map, List.length_range]

/-- All its values are the same. -/
lemma values_ofKeys {key : Nat → K} {v : V} {n inj} :
    values (ofKeys key v n inj) = List.replicate n v := by
  rw [values, ofKeys, List.map_map]
  show (List.range n).map (fun _ => v) = _
  rw [List.map_const', List.length_range]

variable [DecidableEq K]

/-- The value at `k` (`get`). -/
abbrev get (m : HashMap K V) (k : K) : Option V := m.lookup k

/-- Is there an entry for `k` (`contains_key`)? -/
def containsKey (m : HashMap K V) (k : K) : Bool := (m.lookup k).isSome

/-- Update the entry of `k`, inserting `d` first when there is none
(`entry(k).or_insert_with(d)` followed by a write through the guard). -/
def upsert (m : HashMap K V) (k : K) (d : V) (f : V → V) : HashMap K V :=
  m.insert k (f ((m.lookup k).getD d))

/-- Update the entry of `k` if there is one (`get(k)` followed by a write through the guard). -/
def modify (m : HashMap K V) (k : K) (f : V → V) : HashMap K V :=
  match m.lookup k with
  | some v => m.insert k (f v)
  | none => m

/-- Filtering a list of entries by key and value filters what is looked up. -/
lemma dlookup_filter {p : K → V → Bool} {l : List (Sigma fun _ : K => V)} (nd : l.NodupKeys)
    {k : K} : (l.filter fun e => p e.1 e.2).dlookup k = (l.dlookup k).filter (p k) := by
  induction l with
  | nil => rfl
  | cons e l ih =>
    obtain ⟨a, b⟩ := e
    obtain ⟨ha, nd'⟩ := List.nodupKeys_cons.mp nd
    by_cases hk : k = a
    · subst hk
      have hl : l.dlookup k = none := List.dlookup_eq_none.mpr ha
      cases hp : p k b with
      | true => simp [hp, Option.filter]
      | false => simp [hp, ih nd', hl, Option.filter]
    · rw [List.dlookup_cons_ne _ _ hk, ← ih nd', List.filter_cons]
      split
      · rw [List.dlookup_cons_ne _ _ hk]
      · rfl

/-- Retaining keeps exactly the entries that meet the predicate. -/
@[simp] lemma lookup_retain {p : K → V → Bool} {m : HashMap K V} {k : K} :
    (m.retain p).lookup k = (m.lookup k).filter (p k) :=
  dlookup_filter m.nodupKeys

/-- What is looked up after an insertion. -/
lemma lookup_insert {m : HashMap K V} {k k' : K} {v : V} :
    (m.insert k v).lookup k' = if k' = k then some v else m.lookup k' := by
  split
  case isTrue h => exact h ▸ AList.lookup_insert m
  case isFalse h => exact AList.lookup_insert_ne h

/-- What is looked up after a change at the key. -/
@[simp] lemma lookup_modify {m : HashMap K V} {k : K} {f : V → V} :
    (m.modify k f).lookup k = (m.lookup k).map f := by
  unfold modify
  cases h : m.lookup k with
  | some v => exact AList.lookup_insert m
  | none => exact h

lemma lookup_modify_ne {m : HashMap K V} {k k' : K} {f : V → V} (h : k' ≠ k) :
    (m.modify k f).lookup k' = m.lookup k' := by
  unfold modify
  cases m.lookup k with
  | some v => exact AList.lookup_insert_ne h
  | none => rfl

/-- Erasing a key leaves out its pair. -/
lemma map_kerase {l : List (Sigma fun _ : K => V)} (hl : l.NodupKeys) {k : K} :
    (l.kerase k).map (fun e => (e.1, e.2)) = (l.map fun e => (e.1, e.2)).filter fun e => e.1 ≠ k := by
  induction l with
  | nil => rfl
  | cons e l ih =>
    obtain ⟨he, hl'⟩ := List.nodupKeys_cons.mp hl
    by_cases hk : k = e.1
    case pos =>
      have hother : ∀ q ∈ l.map fun e => (e.1, e.2), decide (q.1 ≠ k) = true := by
        intro q hq
        obtain ⟨f, hf, rfl⟩ := List.mem_map.mp hq
        rw [decide_eq_true_eq]
        intro hfk
        exact he (hk ▸ hfk ▸ List.mem_map_of_mem hf)
      rw [List.kerase_cons_eq hk, List.map_cons, List.filter_cons_of_neg (by simp [hk]),
        List.filter_eq_self.mpr hother]
    case neg =>
      rw [List.kerase_cons_ne hk, List.map_cons, List.map_cons, ih hl',
        List.filter_cons_of_pos (by simp [Ne.symm hk])]

/-- A new value leaves the other entries in their order. -/
lemma toPairs_insert {m : HashMap K V} {k : K} {v : V} :
    toPairs (m.insert k v) = (k, v) :: m.toPairs.filter fun e => e.1 ≠ k := by
  rw [toPairs, AList.entries_insert, List.map_cons, map_kerase m.nodupKeys]
  rfl

/-- A key that is not in the sequence has no entry. -/
lemma lookup_ofKeys {key : Nat → K} {v : V} {n : Nat} {k : K}
    (inj : ∀ i < n, ∀ j < n, key i = key j → i = j) (h : ∀ i, key i ≠ k) :
    (ofKeys key v n inj).lookup k = none := by
  rw [AList.lookup_eq_none]
  intro hk
  obtain ⟨e, he, rfl⟩ := List.mem_map.mp (AList.mem_keys.mp hk)
  obtain ⟨i, -, rfl⟩ := List.mem_map.mp he
  exact h i rfl

/-- Maps with entries for the same keys have the same size. -/
lemma size_eq_of_isSome {W : Type} {m : HashMap K V} {m' : HashMap K W}
    (h : ∀ k, (m.lookup k).isSome = (m'.lookup k).isSome) : size m = size m' := by
  have hkeys : m.keys.Perm m'.keys := by
    refine (List.perm_ext_iff_of_nodup m.keys_nodup m'.keys_nodup).mpr fun k => ?_
    rw [AList.mem_keys.symm, AList.mem_keys.symm, ← AList.lookup_isSome, ← AList.lookup_isSome, h]
  have hlen := hkeys.length_eq
  rwa [AList.keys, AList.keys, List.keys, List.keys, List.length_map, List.length_map] at hlen

/-- Writing an entry never shrinks a map. -/
lemma size_le_insert {m : HashMap K V} {k : K} {v : V} : size m ≤ size (m.insert k v) := by
  have hsize : ∀ m' : HashMap K V, m'.keys.length = size m' := fun m' => List.length_map _
  have hlen := congrArg List.length (AList.keys_insert (b := v) m (a := k))
  have herase := List.le_length_erase (a := k) (l := m.keys)
  rw [hsize, List.length_cons] at hlen
  rw [hsize] at herase
  omega

/-- Writing an entry adds at most one. -/
lemma size_insert_le {m : HashMap K V} {k : K} {v : V} : size (m.insert k v) ≤ size m + 1 := by
  have hsize : ∀ m' : HashMap K V, m'.keys.length = size m' := fun m' => List.length_map _
  have hlen := congrArg List.length (AList.keys_insert (b := v) m (a := k))
  have herase := List.length_erase_le (a := k) (l := m.keys)
  rw [hsize, List.length_cons] at hlen
  rw [hsize] at herase
  omega

/-- A pair is enumerated exactly when it is looked up. -/
@[simp] lemma mem_toPairs {m : HashMap K V} {k : K} {v : V} :
    (k, v) ∈ m.toPairs ↔ m.lookup k = some v := by
  have h : v ∈ m.lookup k ↔ (⟨k, v⟩ : Sigma fun _ : K => V) ∈ m.entries :=
    List.mem_dlookup_iff m.nodupKeys
  simp only [toPairs, List.mem_map, Prod.mk.injEq]
  rw [← Option.mem_def, h]
  constructor
  · rintro ⟨⟨a, b⟩, he, rfl, rfl⟩
    exact he
  · intro he
    exact ⟨_, he, rfl, rfl⟩

/-- A value is enumerated exactly when a key has it. -/
lemma mem_values {m : HashMap K V} {v : V} : v ∈ m.values ↔ ∃ k, m.lookup k = some v := by
  have h : m.values = m.toPairs.map Prod.snd := by
    rw [values, toPairs, List.map_map]
    rfl
  rw [h, List.mem_map]
  constructor
  · rintro ⟨⟨k, v⟩, he, rfl⟩
    exact ⟨k, mem_toPairs.mp he⟩
  · rintro ⟨k, hk⟩
    exact ⟨(k, v), mem_toPairs.mpr hk, rfl⟩

/-! ## Maps that agree -/

/-- The maps have the same entries for the keys of `p`. -/
def AgreeOn (p : K → Prop) (m m' : HashMap K V) : Prop := ∀ k, p k → m.lookup k = m'.lookup k

section

variable {p : K → Prop} {m m' m'' : HashMap K V} {k : K} {v : V} {f : V → V}

lemma AgreeOn.refl : AgreeOn p m m := fun _ _ => rfl

lemma AgreeOn.symm (h : AgreeOn p m m') : AgreeOn p m' m := fun k hk => (h k hk).symm

lemma AgreeOn.trans (h : AgreeOn p m m') (h' : AgreeOn p m' m'') : AgreeOn p m m'' :=
  fun k hk => (h k hk).trans (h' k hk)

/-- The same insertion keeps maps in agreement. -/
lemma AgreeOn.insert (h : AgreeOn p m m') : AgreeOn p (m.insert k v) (m'.insert k v) := by
  intro k' hk'
  rw [lookup_insert, lookup_insert, h k' hk']

/-- An insertion at another key is not seen. -/
lemma agreeOn_insert (hk : ¬ p k) : AgreeOn p (m.insert k v) m := by
  intro k' hk'
  rw [lookup_insert, if_neg]
  rintro rfl
  exact hk hk'

/-- The same change keeps maps in agreement. -/
lemma AgreeOn.modify (h : AgreeOn p m m') : AgreeOn p (m.modify k f) (m'.modify k f) := by
  intro k' hk'
  by_cases heq : k' = k
  case pos =>
    subst heq
    rw [lookup_modify, lookup_modify, h k' hk']
  case neg => rw [lookup_modify_ne heq, lookup_modify_ne heq, h k' hk']

/-- A change at another key is not seen. -/
lemma agreeOn_modify (hk : ¬ p k) : AgreeOn p (m.modify k f) m := by
  intro k' hk'
  refine lookup_modify_ne ?_
  rintro rfl
  exact hk hk'

/-- The same sweep keeps maps in agreement. -/
lemma AgreeOn.retain {q : K → V → Bool} (h : AgreeOn p m m') :
    AgreeOn p (m.retain q) (m'.retain q) := by
  intro k hk
  rw [lookup_retain, lookup_retain, h k hk]

end

end HashMap

end Lib
