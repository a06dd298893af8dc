import Waf.Signal.Sessions

/-!
# Intervals between requests

The tracker keeps the second of the last request of an address, and records for the next one the
milliseconds since the beginning of that second. So an interval is as much too long as the earlier
request was past its second, and the intervals are the real ones iff the requests that they begin with
came on full seconds (`intervals_iff`). A client that sends at a constant interval looks constant iff
that is a number of seconds.
-/

namespace Waf
open Lib

namespace Behavior
open BehaviorTracker

/-- The differences between neighbours. -/
def differences (times : List Nat) : List Nat := (pairs times).map fun p => p.2 - p.1

/-- The times of the requests of an address. -/
def timesOf (ip : IpAddr) (seen : List (IpAddr × Visit)) : List Nat := (visitsOf ip seen).map Visit.ms

/-- No two neighbours are further apart than a window. -/
def Steady (times : List Nat) : Prop := times.IsChain fun u u' => u' ≤ u + WINDOW_SECS * 1000

/-- All are the same. -/
def Constant (xs : List Nat) : Prop := ∀ x ∈ xs, ∀ y ∈ xs, x = y

variable {ip : IpAddr} {visits : List Visit} {v : Visit} {times : List Nat} {d : Nat}

/-- A client that is never idle for a window has one session. -/
lemma session_eq_self (h : (visits.map Visit.ms).IsChain fun u u' => u' ≤ u + WINDOW_SECS * 1000) :
    session visits = visits := by
  induction visits using List.reverseRecOn with
  | nil => rfl
  | append_singleton visits v ih =>
    rw [List.map_append] at h
    obtain ⟨hvisits, -, hlast⟩ := List.isChain_append.mp h
    rw [session_concat, ih hvisits, extend]
    cases visits using List.reverseRecOn with
    | nil => exact ite_self _
    | append_singleton visits u =>
      have hgap : v.ms ≤ u.ms + WINDOW_SECS * 1000 := by
        refine hlast u.ms ?_ v.ms (Option.mem_some_self _)
        rw [List.map_append, List.map_singleton, List.getLast?_concat]
        exact Option.mem_some_self _
      rw [lastSecs_concat, if_neg]
      rw [Visit.secs, Visit.secs]
      have hwindow : WINDOW_SECS = 60 := rfl
      omega

/-- What is recorded, from the times. -/
lemma recorded_times : recorded visits
    = ((pairs (visits.map Visit.ms)).filter fun p => p.1 / 1000 ≠ 0).map
      fun p => (p.2 - p.1 / 1000 * 1000) % 2 ^ 32 := by
  rw [pairs_map, List.filter_map, List.map_map]
  rfl

/-- A recorded interval is too long by what the earlier request was past its second. -/
lemma interval_eq {p : Nat × Nat} (hle : p.1 ≤ p.2) (hgap : p.2 ≤ p.1 + WINDOW_SECS * 1000) :
    (p.2 - p.1 / 1000 * 1000) % 2 ^ 32 = (p.2 - p.1) + p.1 % 1000 := by
  have hwindow : WINDOW_SECS = 60 := rfl
  omega

/-- The last items of a list contain what few items follow. -/
lemma mem_rtake {α : Type} {xs ys : List α} {x : α} {n : Nat} (h : ys.length < n) :
    x ∈ (xs ++ x :: ys).rtake n := by
  have hle : (xs ++ x :: ys).length - n ≤ xs.length := by
    rw [List.length_append, List.length_cons]
    omega
  rw [List.rtake, List.drop_append_of_le_length hle]
  exact List.mem_append_right _ (.head _)

/-- The pairs of a sorted list, cut where the recorded ones begin. -/
lemma pairs_split (hsorted : times.Pairwise (· ≤ ·)) :
    ∃ before after, pairs times = before ++ after ∧ (∀ p ∈ before, p.1 / 1000 = 0)
      ∧ (∀ p ∈ after, p.1 / 1000 ≠ 0)
      ∧ (pairs times).filter (fun p => p.1 / 1000 ≠ 0) = after := by
  have hfst : ((pairs times).map Prod.fst).Pairwise (· ≤ ·) := by
    rw [map_fst_pairs]
    exact hsorted.sublist (List.dropLast_sublist _)
  have hmono : (pairs times).Pairwise fun p q => p.1 / 1000 ≠ 0 → q.1 / 1000 ≠ 0 := by
    refine (List.pairwise_map.mp hfst).imp fun hle hp => ?_
    have hdiv := Nat.div_le_div_right (c := 1000) hle
    omega
  obtain ⟨before, after, hsplit, hbefore, hafter⟩ := exists_split hmono
  refine ⟨before, after, hsplit, fun p hp => not_not.mp (hbefore p hp), hafter, ?_⟩
  rw [hsplit]
  exact filter_cut (fun p hp hd => hbefore p hp (of_decide_eq_true hd)) fun p hp =>
    decide_eq_true (hafter p hp)

/-- If the last pairs all begin on full seconds other than second 0, none of them is cut off. -/
lemma cut_of_full {before after : List (Nat × Nat)} {n : Nat}
    (hbefore : ∀ p ∈ before, p.1 / 1000 = 0)
    (hfull : ∀ u ∈ ((before ++ after).rtake n).map Prod.fst, 1000 ∣ u ∧ 0 < u) :
    before = [] ∨ n ≤ after.length := by
  by_contra hnot
  rw [not_or, Nat.not_le] at hnot
  obtain ⟨hne, hshort⟩ := hnot
  -- the last pair that was not recorded would be among the last ones
  cases before using List.reverseRecOn with
  | nil => exact hne rfl
  | append_singleton before p =>
    have hp : p ∈ (before ++ [p] ++ after).rtake n := by
      rw [List.append_assoc]
      exact mem_rtake hshort
    have hzero := hbefore p (List.mem_append_right _ (.head _))
    have hpos := hfull p.1 (List.mem_map_of_mem hp)
    omega

/-- The intervals of a steady client are the real ones iff the requests before came on full seconds. -/
lemma recorded_iff (hsorted : times.Pairwise (· ≤ ·)) (hsteady : Steady times) (n : Nat) :
    (((pairs times).filter fun p => p.1 / 1000 ≠ 0).map
        fun p => (p.2 - p.1 / 1000 * 1000) % 2 ^ 32).rtake n = (differences times).rtake n
      ↔ ∀ u ∈ times.dropLast.rtake n, 1000 ∣ u ∧ 0 < u := by
  obtain ⟨before, after, hsplit, hbefore, hafter, hfilter⟩ := pairs_split hsorted
  have hinterval : ∀ p ∈ pairs times,
      (p.2 - p.1 / 1000 * 1000) % 2 ^ 32 = (p.2 - p.1) + p.1 % 1000 := by
    intro p hp
    have hle := forall_pairs.mpr hsorted.isChain p hp
    have hgap := forall_pairs.mpr hsteady p hp
    exact interval_eq hle hgap
  rw [hfilter, ← map_rtake, differences, ← map_rtake, ← map_fst_pairs, ← map_rtake]
  have hlast : before = [] ∨ n ≤ after.length → (pairs times).rtake n = after.rtake n := by
    rintro (hnil | hlong)
    · rw [hsplit, hnil, List.nil_append]
    · rw [hsplit, rtake_append hlong]
  have hmem : ∀ p ∈ after.rtake n, p ∈ pairs times := by
    intro p hp
    rw [hsplit]
    exact List.mem_append_right _ (mem_of_mem_rtake hp)
  constructor
  · intro heq u hu
    have hlen := congrArg List.length heq
    rw [List.length_map, List.length_map, length_rtake, length_rtake, hsplit, List.length_append] at hlen
    have hcut : before = [] ∨ n ≤ after.length := by
      rcases Nat.eq_zero_or_pos before.length with hzero | hpos
      · exact .inl (List.length_eq_zero_iff.mp hzero)
      · exact .inr (by omega)
    rw [hlast hcut] at heq hu
    obtain ⟨p, hp, rfl⟩ := List.mem_map.mp hu
    have hsame := List.map_inj_left.mp heq p hp
    rw [hinterval p (hmem p hp)] at hsame
    have hrecorded := hafter p (mem_of_mem_rtake hp)
    omega
  · intro hfull
    have hcut : before = [] ∨ n ≤ after.length := by
      rw [hsplit] at hfull
      exact cut_of_full hbefore hfull
    rw [hlast hcut] at hfull ⊢
    refine List.map_congr_left fun p hp => ?_
    rw [hinterval p (hmem p hp)]
    have hp' := hfull p.1 (List.mem_map_of_mem hp)
    omega

/-- What is recorded of a client that sends every `d` milliseconds. -/
lemma recorded_every (hsorted : times.Pairwise (· ≤ ·)) (hsteady : Steady times)
    (hevery : times.IsChain fun u u' => u' = u + d) :
    ((pairs times).filter fun p => p.1 / 1000 ≠ 0).map (fun p => (p.2 - p.1 / 1000 * 1000) % 2 ^ 32)
        = (times.dropLast.filter (1000 ≤ ·)).map (fun u => d + u % 1000)
      ∧ (times.dropLast.filter (1000 ≤ ·)).IsChain fun u u' => u' = u + d := by
  obtain ⟨before, after, hsplit, hbefore, hafter, hfilter⟩ := pairs_split hsorted
  have hdrop : times.dropLast = before.map Prod.fst ++ after.map Prod.fst := by
    rw [← map_fst_pairs, hsplit, List.map_append]
  have hlast : times.dropLast.filter (1000 ≤ ·) = after.map Prod.fst := by
    rw [hdrop]
    refine filter_cut (fun u hu hd => ?_) fun u hu => ?_
    · obtain ⟨p, hp, rfl⟩ := List.mem_map.mp hu
      have hzero := hbefore p hp
      have hlarge := of_decide_eq_true hd
      omega
    · obtain ⟨p, hp, rfl⟩ := List.mem_map.mp hu
      have hpos := hafter p hp
      exact decide_eq_true (by omega)
  constructor
  · rw [hfilter, hlast, List.map_map]
    refine List.map_congr_left fun p hp => ?_
    have hmem : p ∈ pairs times := by
      rw [hsplit]
      exact List.mem_append_right _ hp
    have hd := forall_pairs.mpr hevery p hmem
    rw [interval_eq (forall_pairs.mpr hsorted.isChain p hmem) (forall_pairs.mpr hsteady p hmem),
      Function.comp_apply]
    omega
  · have hchain : times.dropLast.IsChain fun u u' => u' = u + d := hevery.dropLast
    rw [hdrop] at hchain
    rw [hlast]
    exact (List.isChain_append.mp hchain).2.1

/-- Full seconds apart, all requests are equally far past their seconds. -/
lemma mods_agree {firsts : List Nat} (hchain : firsts.IsChain fun u u' => u' = u + d)
    (hdvd : 1000 ∣ d) : ∀ u ∈ firsts, ∀ u' ∈ firsts, u % 1000 = u' % 1000 := by
  have hmod : (firsts.map (· % 1000)).Pairwise (· = ·) := by
    refine List.isChain_iff_pairwise.mp ((List.isChain_map _).mpr (hchain.imp fun u u' hu => ?_))
    omega
  intro u hu u' hu'
  by_contra hne
  exact hne (hmod.forall (List.mem_map_of_mem hu) (List.mem_map_of_mem hu') hne)

/-- A list of at most one element has no two. -/
lemma eq_of_length_le_one {α : Type} {xs : List α} {x y : α} (h : xs.length ≤ 1) (hx : x ∈ xs)
    (hy : y ∈ xs) : x = y := by
  cases xs with
  | nil => cases hx
  | cons z xs =>
    have hnil : xs = [] := List.length_eq_zero_iff.mp (Nat.le_zero.mp (Nat.le_of_succ_le_succ h))
    rw [hnil] at hx hy
    rw [List.mem_singleton.mp hx, List.mem_singleton.mp hy]

/-- The intervals of a client that sends every `d` milliseconds are all the same iff `d` is a number of
seconds or there is at most one. -/
lemma recorded_constant_iff (hsorted : times.Pairwise (· ≤ ·)) (hsteady : Steady times)
    (hevery : times.IsChain fun u u' => u' = u + d) {n : Nat} (hn : 2 ≤ n) :
    Constant ((((pairs times).filter fun p => p.1 / 1000 ≠ 0).map
        fun p => (p.2 - p.1 / 1000 * 1000) % 2 ^ 32).rtake n)
      ↔ 1000 ∣ d ∨ (times.dropLast.filter (1000 ≤ ·)).length ≤ 1 := by
  obtain ⟨hrecorded, hchain⟩ := recorded_every hsorted hsteady hevery
  rw [hrecorded]
  generalize times.dropLast.filter (1000 ≤ ·) = firsts at hchain ⊢
  constructor
  · intro hconstant
    -- the last two requests that an interval begins with
    cases firsts using List.reverseRecOn with
    | nil => exact .inr (Nat.zero_le 1)
    | append_singleton firsts b =>
      cases firsts using List.reverseRecOn with
      | nil => exact .inr (Nat.le_refl 1)
      | append_singleton firsts a =>
        have hb : b = a + d := by
          refine (List.isChain_append.mp hchain).2.2 a ?_ b (Option.mem_some_self b)
          rw [List.getLast?_concat]
          exact Option.mem_some_self a
        have hsame : d + a % 1000 = d + b % 1000 := by
          rw [List.map_append, List.map_append, List.append_assoc] at hconstant
          refine hconstant _ (mem_rtake ?_) _ ?_
          · exact hn
          · rw [← List.append_assoc]
            exact mem_rtake (Nat.lt_of_lt_of_le Nat.zero_lt_two hn)
        exact .inl (by omega)
  · intro h x hx y hy
    obtain ⟨u, hu, rfl⟩ := List.mem_map.mp (mem_of_mem_rtake hx)
    obtain ⟨u', hu', rfl⟩ := List.mem_map.mp (mem_of_mem_rtake hy)
    cases h with
    | inl hdvd => rw [mods_agree hchain hdvd u hu u' hu']
    | inr hone => rw [eq_of_length_le_one hone hu hu']

/-- After a request the intervals of a client that is never idle for a window are the real ones iff the
requests that they begin with came on full seconds, other than second 0. If it sends every `d`
milliseconds they are all the same iff `d` is a number of seconds or there is at most one. -/
theorem intervals_iff {seen : List (IpAddr × Visit)} (h : Clocked (seen ++ [(ip, v)]))
    (steady : Steady (timesOf ip (seen ++ [(ip, v)]))) :
    ((((after {} seen).see (ip, v)).entry ip).intervals
          = (differences (timesOf ip (seen ++ [(ip, v)]))).rtake INTERVAL_CAP
        ↔ ∀ u ∈ (timesOf ip (seen ++ [(ip, v)])).dropLast.rtake INTERVAL_CAP, 1000 ∣ u ∧ 0 < u)
      ∧ ∀ d, (timesOf ip (seen ++ [(ip, v)])).IsChain (fun u u' => u' = u + d) →
        (Constant (((after {} seen).see (ip, v)).entry ip).intervals
          ↔ 1000 ∣ d
            ∨ ((timesOf ip (seen ++ [(ip, v)])).dropLast.filter (1000 ≤ ·)).length ≤ 1) := by
  have hsorted : (timesOf ip (seen ++ [(ip, v)])).Pairwise (· ≤ ·) := h.visitsOf
  have hsession := session_eq_self steady
  have hintervals : (((after {} seen).see (ip, v)).entry ip).intervals
      = (((pairs (timesOf ip (seen ++ [(ip, v)]))).filter fun p => p.1 / 1000 ≠ 0).map
          fun p => (p.2 - p.1 / 1000 * 1000) % 2 ^ 32).rtake INTERVAL_CAP := by
    rw [(observe_session h).2, ← visitsOf_concat, track_stands.intervals, hsession, recorded_times]
    rfl
  rw [hintervals]
  exact ⟨recorded_iff hsorted steady INTERVAL_CAP,
    fun d hevery => recorded_constant_iff hsorted steady hevery (by decide)⟩

/-- A request every half second. -/
def halfSeconds : List (IpAddr × Visit) :=
  [(agentsIp, ⟨"/", "GET", "a", 1000000⟩), (agentsIp, ⟨"/", "GET", "a", 1000500⟩)]

def halfSecondsLast : Visit := ⟨"/", "GET", "a", 1001000⟩

/-- Visits at half seconds. -/
theorem halfSeconds_intervals_iff :
    (((after {} halfSeconds).see (agentsIp, halfSecondsLast)).entry agentsIp).intervals
        = (differences (timesOf agentsIp (halfSeconds ++ [(agentsIp, halfSecondsLast)]))).rtake
          INTERVAL_CAP
      ↔ ∀ u ∈ (timesOf agentsIp (halfSeconds ++ [(agentsIp, halfSecondsLast)])).dropLast.rtake
          INTERVAL_CAP, 1000 ∣ u ∧ 0 < u :=
  (intervals_iff (by unfold Clocked; decide) (by unfold Steady; decide)).1

/-- A request every half second, recorded as half a second and a second in turn. -/
theorem halfSeconds_misrecorded : ¬ ∀ (ip : IpAddr) (v : Visit) (seen : List (IpAddr × Visit)),
    Clocked (seen ++ [(ip, v)]) → Steady (timesOf ip (seen ++ [(ip, v)])) →
    (((after {} seen).see (ip, v)).entry ip).intervals
        = (differences (timesOf ip (seen ++ [(ip, v)]))).rtake INTERVAL_CAP
      ∧ ∀ d, (timesOf ip (seen ++ [(ip, v)])).IsChain (fun u u' => u' = u + d) →
        Constant (((after {} seen).see (ip, v)).entry ip).intervals := by
  intro h
  have hclock : Clocked (halfSeconds ++ [(agentsIp, halfSecondsLast)]) := by unfold Clocked; decide
  have hsteady : Steady (timesOf agentsIp (halfSeconds ++ [(agentsIp, halfSecondsLast)])) := by
    unfold Steady
    decide
  have hconstant := (h agentsIp halfSecondsLast halfSeconds hclock hsteady).2 500 (by decide)
  have hrecorded : (((after {} halfSeconds).see (agentsIp, halfSecondsLast)).entry agentsIp).intervals
      = [500, 1000] := by decide
  rw [hrecorded] at hconstant
  have hsame := hconstant 500 (.head _) 1000 (.tail _ (.head _))
  cases hsame

end Behavior

end Waf
