import Waf.Admin.Chart
import Waf.Lib.Frequent

/-!
# The top lists

`record` of `metrics.rs` counts the addresses, paths, countries and rules of the requests in a table
each, and the dashboard shows the twenty entries of each with the greatest counts. A table has at most
4096 entries; a flood of new keys drops the least of some thirty-two of them, in whatever order the table
enumerates its entries. Requests are recorded one after the other here.

While a table has seen no more different keys than it holds, the list is the right one (`top_exact`).
After that it can lack keys, but none whose requests before the overflow are more than one in twenty-one
of all requests, those after it included (`heavy_listed`).
-/

namespace Waf
open Lib

namespace Metrics

def PER_KEY_CAP : Nat := 4096

/-- The entries that `bump` looks at. -/
def SCAN : Nat := 32

/-- The entries that a snapshot lists. -/
def TOP : Nat := 20

def bump (sample : List (Str × Nat)) (map : HashMap Str Nat) (key : Str) : HashMap Str Nat :=
  Lib.bump PER_KEY_CAP sample map key

/-- The tables of `Metrics`. -/
structure Counters where
  byIp : HashMap Str Nat := ∅
  byPath : HashMap Str Nat := ∅
  byCountry : HashMap Str Nat := ∅
  byRule : HashMap Str Nat := ∅

/-- What `record` is called with. -/
structure Observed where
  ip : Str
  path : Str
  country : Option Str
  rule : Option Str

/-- What the tables enumerate first, one each. -/
structure Scans where
  byIp : List (Str × Nat) := []
  byPath : List (Str × Nat) := []
  byCountry : List (Str × Nat) := []
  byRule : List (Str × Nat) := []

/-- What `record` does to the tables. -/
def Counters.record (c : Counters) (scans : Scans) (o : Observed) : Counters where
  byIp := bump scans.byIp c.byIp o.ip
  byPath := bump scans.byPath c.byPath o.path
  byCountry :=
    match o.country with
    | some country => bump scans.byCountry c.byCountry country
    | none => c.byCountry
  byRule :=
    match o.rule with
    | some rule => bump scans.byRule c.byRule rule
    | none => c.byRule

/-- The tables, by name. -/
inductive Field where
  | ip
  | path
  | country
  | rule

def Counters.table (c : Counters) : Field → HashMap Str Nat
  | .ip => c.byIp
  | .path => c.byPath
  | .country => c.byCountry
  | .rule => c.byRule

def Scans.of (s : Scans) : Field → List (Str × Nat)
  | .ip => s.byIp
  | .path => s.byPath
  | .country => s.byCountry
  | .rule => s.byRule

def Observed.key (o : Observed) : Field → Option Str
  | .ip => some o.ip
  | .path => some o.path
  | .country => o.country
  | .rule => o.rule

/-- The tables after some requests. -/
inductive Recorded : List Observed → Counters → Prop
  | start : Recorded [] {}
  | record {os : List Observed} {c : Counters} {scans : Scans} (o : Observed) (h : Recorded os c)
    (hs : ∀ f, Sample SCAN (c.table f) (scans.of f)) : Recorded (os ++ [o]) (c.record scans o)

/-- The keys of some requests for a table. -/
def keysOf (f : Field) (os : List Observed) : List Str := os.filterMap fun o => o.key f

variable {os before after : List Observed} {c : Counters} {f : Field} {scans : Scans} {o : Observed}
  {order : List (Str × Nat)} {k : Str}

/-- A request counts in the table of each field that it has. -/
lemma table_record : (c.record scans o).table f
    = match o.key f with
      | some key => bump (scans.of f) (c.table f) key
      | none => c.table f := by
  cases f with
  | ip => rfl
  | path => rfl
  | country => rfl
  | rule => rfl

/-- Each table is fed with its keys. -/
lemma Recorded.fed (h : Recorded os c) (f : Field) :
    Fed PER_KEY_CAP SCAN ∅ (keysOf f os) (c.table f) := by
  induction h with
  | start =>
    cases f with
    | ip => exact .nil
    | path => exact .nil
    | country => exact .nil
    | rule => exact .nil
  | @record os c scans o _ hs ih =>
    rw [table_record, keysOf, List.filterMap_append]
    cases hkey : o.key f with
    | none =>
      have hnil : [o].filterMap (fun o => o.key f) = [] := by
        rw [List.filterMap_cons, hkey, List.filterMap_nil]
      rw [hnil, List.append_nil]
      exact ih
    | some key =>
      have hone : [o].filterMap (fun o => o.key f) = [key] := by
        rw [List.filterMap_cons, hkey, List.filterMap_nil]
      rw [hone]
      exact .bump key ih (hs f)

lemma length_keysOf_le : (keysOf f os).length ≤ os.length := List.length_filterMap_le _ _

/-- The tables count what was recorded. -/
lemma Recorded.counts (h : Recorded os c) (hlen : os.length < 2 ^ 64) (f : Field) :
    Counts PER_KEY_CAP (keysOf f os) (c.table f) := by
  have hkeys : (keysOf f os).length ≤ os.length := length_keysOf_le
  have hcounts := (h.fed f).counts Counts.empty (by decide) (by decide)
    (by rw [List.length_nil]; omega)
  rwa [List.nil_append] at hcounts

/-- The tables stay small, and a listed key is never counted too often. With no more different keys than
the table holds, the list is of the keys that were observed most, with their numbers. -/
theorem top_exact (h : Recorded os c) (hlen : os.length < 2 ^ 64) (f : Field)
    (horder : order.Perm (c.table f).toPairs) :
    (c.table f).size ≤ 4096
      ∧ (∀ e ∈ topN order TOP, 0 < e.2 ∧ e.2 ≤ times (keysOf f os) e.1)
      ∧ ((keysOf f os).toFinset.card ≤ 4096 →
        (c.table f).size = (keysOf f os).toFinset.card
          ∧ (∀ e ∈ topN order TOP, e.2 = times (keysOf f os) e.1)
          ∧ Newest (times (keysOf f os)) (fun _ => true) 20 (keysOf f os).dedup
            ((topN order TOP).map Prod.fst)) := by
  have hcounts := h.counts hlen f
  have hentry : ∀ e ∈ topN order TOP, (c.table f).lookup e.1 = some e.2 := fun e he =>
    HashMap.mem_toPairs.mp (horder.subset (mem_topN_order he))
  refine ⟨hcounts.size, fun e he => ?_, fun hfew => ⟨hcounts.size_eq_card hfew, fun e he => ?_,
    hcounts.newest_keys hfew horder⟩⟩
  · have hle := hcounts.le e.1
    rw [hentry e he, Option.getD_some] at hle
    exact ⟨hcounts.pos _ _ (hentry e he), hle⟩
  · have hexact := hcounts.exact hfew e.1
    rwa [hentry e he, Option.getD_some] at hexact

lemma keysOf_append : keysOf f (before ++ after) = keysOf f before ++ keysOf f after :=
  List.filterMap_append

/-- A key that is observed before the table overflows more than once in twenty-one of all requests, those
that come after included, is listed with the number of times that it was observed in all. -/
theorem heavy_listed (h : Recorded (before ++ after) c) (hlen : (before ++ after).length < 2 ^ 64)
    (f : Field) (hfew : (keysOf f before).toFinset.card ≤ 4096)
    (hmany : (keysOf f (before ++ after)).length < 21 * times (keysOf f before) k)
    (horder : order.Perm (c.table f).toPairs) :
    (k, times (keysOf f (before ++ after)) k) ∈ topN order TOP := by
  have hfed := h.fed f
  have hkeys : (keysOf f (before ++ after)).length ≤ (before ++ after).length := length_keysOf_le
  rw [keysOf_append] at hfed hkeys hmany ⊢
  rw [List.length_append] at hkeys hmany
  obtain ⟨mid, hfirst, hrest⟩ := hfed.split
  have hmid := hfirst.counts Counts.empty (by decide) (by decide) (by rw [List.length_nil]; omega)
  rw [List.nil_append] at hmid
  have hlast := hrest.counts hmid (by decide) (by decide) (by omega)
  have hknown : mid.lookup k = some (times (keysOf f before) k) := by
    have hexact := hmid.exact hfew k
    cases hv : mid.lookup k with
    | none =>
      rw [hv, Option.getD_none] at hexact
      omega
    | some v =>
      rw [hv, Option.getD_some] at hexact
      rw [hexact]
  have hkept := hrest.keeps hmid (by decide) (by decide) (by omega) hknown (by
    have hpart : min SCAN PER_KEY_CAP = 32 := by decide
    rw [hpart]
    omega)
  rw [times_append]
  apply mem_topN horder hkept
  have htotal := hlast.total
  rw [List.length_append] at htotal
  have htop : TOP + 1 = 21 := rfl
  rw [htop]
  omega

/-! ## Some requests -/

/-- Any requests can be recorded, each table enumerating its entries in the order in which it keeps
them. -/
lemma exists_recorded (os : List Observed) : ∃ c, Recorded os c := by
  induction os using List.reverseRecOn with
  | nil => exact ⟨_, .start⟩
  | append_singleton os o ih =>
    obtain ⟨c, h⟩ := ih
    have hsample : ∀ m : HashMap Str Nat, Sample SCAN m (m.toPairs.take SCAN) := fun m =>
      ⟨by rw [List.length_take, size_eq_length], m.toPairs.drop SCAN,
        by rw [List.take_append_drop]⟩
    refine ⟨c.record ⟨c.byIp.toPairs.take SCAN, c.byPath.toPairs.take SCAN,
      c.byCountry.toPairs.take SCAN, c.byRule.toPairs.take SCAN⟩ o, .record o h fun f => ?_⟩
    cases f with
    | ip => exact hsample c.byIp
    | path => exact hsample c.byPath
    | country => exact hsample c.byCountry
    | rule => exact hsample c.byRule

/-- Requests of three clients, two of one and one of each of the others. -/
def fewVisits : List Observed :=
  [⟨"192.0.2.1", "/", none, none⟩, ⟨"192.0.2.7", "/a", some "DE", none⟩,
    ⟨"192.0.2.1", "/a", none, some "SQLI"⟩, ⟨"192.0.2.9", "/", some "FR", none⟩]

/-- The three are listed with their numbers, in whatever order the table enumerates them. -/
theorem top_exact_witness : ∃ c, Recorded fewVisits c ∧ (c.table .ip).size = 3
    ∧ ∀ order : List (Str × Nat), order.Perm (c.table .ip).toPairs →
      (∀ e ∈ topN order TOP, e.2 = times (keysOf .ip fewVisits) e.1)
        ∧ Newest (times (keysOf .ip fewVisits)) (fun _ => true) 20 (keysOf .ip fewVisits).dedup
          ((topN order TOP).map Prod.fst) := by
  obtain ⟨c, h⟩ := exists_recorded fewVisits
  have hcard : (keysOf .ip fewVisits).toFinset.card = 3 := by decide
  have hfew : (keysOf .ip fewVisits).toFinset.card ≤ 4096 := hcard.trans_le (by decide)
  refine ⟨c, h, ?_, fun order horder => ?_⟩
  · exact ((top_exact h (by decide) .ip (.refl _)).2.2 hfew).1.trans hcard
  · exact ((top_exact h (by decide) .ip horder).2.2 hfew).2

/-- A request for one of many pages. -/
def pageVisit (n : Nat) : Observed := ⟨"192.0.2.1", '/' :: List.replicate n 'a', none, none⟩

/-- Four hundred requests for the first page, and one for each of 4095 others. -/
def fillingVisits : List Observed :=
  List.replicate 400 (pageVisit 0) ++ (List.range 4095).map fun n => pageVisit (n + 1)

/-- Every request has a path. -/
lemma keysOf_path {os : List Observed} : keysOf .path os = os.map Observed.path := by
  rw [keysOf]
  exact congrFun List.filterMap_eq_map os

/-- The pages of the others are all different. -/
lemma nodup_pages {n : Nat} : ((List.range n).map fun n => (pageVisit n).path).Nodup := by
  refine List.nodup_range.map fun a b hab => ?_
  have hlen := congrArg List.length (List.cons.inj hab).2
  rwa [List.length_replicate, List.length_replicate] at hlen

/-- The paths of the sample. -/
lemma keysOf_filling : keysOf .path fillingVisits
    = List.replicate 400 (pageVisit 0).path ++ (List.range 4095).map fun n => (pageVisit (n + 1)).path := by
  rw [keysOf_path, fillingVisits, List.map_append, List.map_replicate, List.map_map]
  rfl

/-- The pages before the overflow are the first 4096. -/
lemma mem_keysOf_filling : k ∈ keysOf .path fillingVisits ↔ ∃ n < 4096, (pageVisit n).path = k := by
  rw [keysOf_filling, List.mem_append, List.mem_replicate, List.mem_map]
  constructor
  · rintro (⟨-, rfl⟩ | ⟨n, hn, rfl⟩)
    · exact ⟨0, by decide, rfl⟩
    · exact ⟨n + 1, Nat.succ_lt_succ (List.mem_range.mp hn), rfl⟩
  · rintro ⟨n, hn, rfl⟩
    cases n with
    | zero => exact .inl ⟨by decide, rfl⟩
    | succ n => exact .inr ⟨n, List.mem_range.mpr (Nat.lt_of_succ_lt_succ hn), rfl⟩

/-- The first of them came four hundred times. -/
lemma times_filling : times (keysOf .path fillingVisits) (pageVisit 0).path = 400 := by
  have hothers : (pageVisit 0).path ∉ (List.range 4095).map fun n => (pageVisit (n + 1)).path := by
    intro hmem
    obtain ⟨n, -, hn⟩ := List.mem_map.mp hmem
    exact List.cons_ne_nil _ _ (List.cons.inj hn).2
  rw [keysOf_filling, times_append, times_replicate, times_eq_zero.mpr hothers]

/-- They fit into the table. -/
lemma filling_few : (keysOf .path fillingVisits).toFinset.card ≤ 4096 := by
  have hsub : (keysOf .path fillingVisits).toFinset
      ⊆ ((List.range 4096).map fun n => (pageVisit n).path).toFinset := by
    intro k hk
    obtain ⟨n, hn, rfl⟩ := mem_keysOf_filling.mp (List.mem_toFinset.mp hk)
    exact List.mem_toFinset.mpr (List.mem_map_of_mem (List.mem_range.mpr hn))
  refine (Finset.card_le_card hsub).trans ((List.toFinset_card_le _).trans_eq ?_)
  rw [List.length_map, List.length_range]

/-- One more does not. -/
lemma filling_overflows : 4096 < (keysOf .path (fillingVisits ++ [pageVisit 4096])).toFinset.card := by
  have hsub : ((List.range 4097).map fun n => (pageVisit n).path).toFinset
      ⊆ (keysOf .path (fillingVisits ++ [pageVisit 4096])).toFinset := by
    intro k hk
    obtain ⟨n, hn, rfl⟩ := List.mem_map.mp (List.mem_toFinset.mp hk)
    rw [List.mem_toFinset, keysOf_append, List.mem_append, mem_keysOf_filling]
    rcases Nat.lt_succ_iff_lt_or_eq.mp (List.mem_range.mp hn) with hlt | rfl
    · exact .inl ⟨n, hlt, rfl⟩
    · exact .inr (.head _)
  have hcard := Finset.card_le_card hsub
  rw [List.toFinset_card_of_nodup nodup_pages, List.length_map, List.length_range] at hcard
  exact hcard

lemma length_filling : (fillingVisits ++ [pageVisit 4096]).length = 4496 := by
  rw [List.length_append, fillingVisits, List.length_append, List.length_replicate, List.length_map,
    List.length_range]
  rfl

/-- The first page is listed with its number after one more page has made the table overflow. -/
theorem heavy_listed_witness : ∃ c, Recorded (fillingVisits ++ [pageVisit 4096]) c
    ∧ 4096 < (keysOf .path (fillingVisits ++ [pageVisit 4096])).toFinset.card
    ∧ ∀ order : List (Str × Nat), order.Perm (c.table .path).toPairs →
      ((pageVisit 0).path, times (keysOf .path (fillingVisits ++ [pageVisit 4096])) (pageVisit 0).path)
        ∈ topN order TOP := by
  obtain ⟨c, h⟩ := exists_recorded (fillingVisits ++ [pageVisit 4096])
  have hlen : (fillingVisits ++ [pageVisit 4096]).length < 2 ^ 64 := by
    rw [length_filling]
    decide
  have hmany : (keysOf .path (fillingVisits ++ [pageVisit 4096])).length
      < 21 * times (keysOf .path fillingVisits) (pageVisit 0).path := by
    rw [times_filling]
    exact (length_keysOf_le.trans_eq length_filling).trans_lt (by decide)
  exact ⟨c, h, filling_overflows, fun order horder =>
    heavy_listed h hlen .path filling_few hmany horder⟩

end Metrics

end Waf
