import Waf.Ban.Locks

/-!
# Bursts of offences

An entry counts the offences of a window that begins with its first offence: an offence more than
`windowSecs` after that one begins a new window, and so does the first one after a sweep that dropped
the entry. A `Trail` is what an entry stands for, the offences of its window themselves
(`after_keeps`). So an address is banned by an offence iff the last offences, as many as the threshold
says, all lie in its window (`burst_banned_iff`). A burst on both sides of the beginning of a window
passes.
-/

namespace Waf
open Lib

namespace Reputations

/-- The offences of the window of an entry, and the end of its ban. -/
structure Trail where
  window : List Nat := []
  banEnd : Nat := 0

/-- The time of the first offence of the window, zero when there is none. -/
def Trail.start (tr : Trail) : Nat := tr.window.headD 0

/-- The window of one more offence. -/
def Trail.next (tr : Trail) (r : Reputations) (now : Nat) : List Nat :=
  if tr.start = 0 ∨ r.windowSecs < now - tr.start then [now] else tr.window ++ [now]

def Trail.offend (tr : Trail) (r : Reputations) (now : Nat) : Trail where
  window := tr.next r now
  banEnd :=
    if r.autoBanThreshold ≤ (tr.next r now).length ∧ tr.banEnd ≤ now then
      (now + r.durationSecs) % 2 ^ 64
    else tr.banEnd

/-- A sweep forgets a window, once the ban is over. -/
def Trail.sweep (tr : Trail) (r : Reputations) (now : Nat) : Trail :=
  if tr.banEnd ≤ now ∧ r.windowSecs * 2 % 2 ^ 64 ≤ now - tr.start then {} else tr

open BanStore (Op after)

def Trail.step (r : Reputations) (ip : IpAddr) (tr : Trail) (o : Nat × Op) : Trail :=
  match o.2 with
  | .recordOffence addr => if addr = ip then tr.offend r o.1 else tr
  | .gc => tr.sweep r o.1
  | _ => tr

/-- The trail of an address after a run. -/
def trail (r : Reputations) (ip : IpAddr) (ops : List (Nat × Op)) : Trail :=
  ops.foldl (Trail.step r ip) {}

/-- The times of the offences of an address in a run. -/
def offences (ip : IpAddr) (ops : List (Nat × Op)) : List Nat :=
  ops.filterMap fun o =>
    match o.2 with
    | .recordOffence addr => if addr = ip then some o.1 else none
    | _ => none

/-- An entry counts the offences of a trail. -/
structure Keeps (r : Reputations) (ip : IpAddr) (tr : Trail) : Prop where
  hits : (r.entry ip).hits = min tr.window.length u32Max
  firstHit : (r.entry ip).firstHit = tr.start
  banUntil : (r.entry ip).banUntil = tr.banEnd

variable {r : Reputations} {st : BanStore} {ip addr : IpAddr} {tr : Trail} {now : Nat} {op : Op}
  {ops : List (Nat × Op)}

/-- The limits of a store are those of another one. -/
structure SameLimits (r r' : Reputations) : Prop where
  allow : r'.allow = r.allow
  threshold : r'.autoBanThreshold = r.autoBanThreshold
  window : r'.windowSecs = r.windowSecs
  duration : r'.durationSecs = r.durationSecs

lemma SameLimits.refl : SameLimits r r := ⟨rfl, rfl, rfl, rfl⟩

lemma SameLimits.trans {r' r'' : Reputations} (h : SameLimits r r') (h' : SameLimits r' r'') :
    SameLimits r r'' :=
  ⟨h'.allow.trans h.allow, h'.threshold.trans h.threshold, h'.window.trans h.window,
    h'.duration.trans h.duration⟩

/-- Writing entries keeps the limits. -/
lemma SameLimits.of_writes {r' : Reputations} (h : r' = r ∨ ∃ s, r' = r.setEntry ip s) :
    SameLimits r r' := by
  obtain rfl | ⟨s, rfl⟩ := h
  · exact .refl
  · exact ⟨rfl, rfl, rfl, rfl⟩

/-- The limits are set once. -/
lemma apply_limits : SameLimits st.reps (op.apply now st).reps := by
  cases op with
  | recordOffence ip => exact .of_writes recordOffence_writes
  | forceBan ip secs => exact .of_writes forceBan_writes
  | unban => exact ⟨rfl, rfl, rfl, rfl⟩
  | gc => exact ⟨rfl, rfl, rfl, rfl⟩
  | isBanned => exact .refl
  | persist => exact .refl
  | banned => exact .refl

lemma after_append {o : Nat × Op} : after st (ops ++ [o]) = o.2.apply o.1 (after st ops) :=
  List.foldl_concat ..

lemma trail_append {o : Nat × Op} :
    trail r ip (ops ++ [o]) = Trail.step r ip (trail r ip ops) o := List.foldl_concat ..

/-- No run changes the limits. -/
lemma after_limits : SameLimits st.reps (after st ops).reps := by
  induction ops using List.reverseRecOn with
  | nil => exact .refl
  | append_singleton ops o ih =>
    rw [after_append]
    exact ih.trans apply_limits

/-! ## Entries of other addresses -/

/-- The operation is about another address, or does not touch entries. -/
def Elsewhere (ip : IpAddr) : Op → Prop
  | .recordOffence addr | .forceBan addr _ | .unban addr => addr ≠ ip
  | .gc => False
  | .isBanned _ | .persist | .banned => True

/-- Writing another entry leaves the entry of an address. -/
lemma entry_of_writes {r' : Reputations} (hne : addr ≠ ip)
    (h : r' = r ∨ ∃ s, r' = r.setEntry addr s) : r'.entry ip = r.entry ip := by
  obtain rfl | ⟨s, rfl⟩ := h
  · rfl
  · exact entry_setEntry_ne hne

lemma entry_elsewhere (h : Elsewhere ip op) :
    (op.apply now st).reps.entry ip = st.reps.entry ip := by
  cases op with
  | recordOffence addr => exact entry_of_writes h recordOffence_writes
  | forceBan addr secs => exact entry_of_writes h forceBan_writes
  | unban addr =>
    show (st.reps.unban addr).entry ip = _
    rw [entry, entry, unban, HashMap.lookup_modify_ne h.symm]
  | gc => exact h.elim
  | isBanned => rfl
  | persist => rfl
  | banned => rfl

/-! ## The trail of an entry -/

/-- An entry that is dropped is as if there had been none. -/
lemma entry_gc : (r.gc now).entry ip
    = if now < (r.entry ip).banUntil ∨ now - (r.entry ip).firstHit < r.windowSecs * 2 % 2 ^ 64 then
        r.entry ip else {} := by
  have hlookup : (r.gc now).state.lookup ip = (r.state.lookup ip).filter fun s =>
      now < s.banUntil || now - s.firstHit < r.windowSecs * 2 % 2 ^ 64 := HashMap.lookup_retain
  rw [entry, hlookup, entry]
  cases r.state.lookup ip with
  | none =>
    split
    case isTrue => rfl
    case isFalse => rfl
  | some s =>
    rw [Option.filter_some, Option.getD_some]
    by_cases hkeep : now < s.banUntil ∨ now - s.firstHit < r.windowSecs * 2 % 2 ^ 64
    case pos =>
      have hdec : (decide (now < s.banUntil)
          || decide (now - s.firstHit < r.windowSecs * 2 % 2 ^ 64)) = true := by
        rw [Bool.or_eq_true, decide_eq_true_iff, decide_eq_true_iff]
        exact hkeep
      rw [if_pos hkeep, if_pos hdec]
      rfl
    case neg =>
      have hdec : ¬ (decide (now < s.banUntil)
          || decide (now - s.firstHit < r.windowSecs * 2 % 2 ^ 64)) = true := by
        rw [Bool.or_eq_true, decide_eq_true_iff, decide_eq_true_iff]
        exact hkeep
      rw [if_neg hkeep, if_neg hdec]
      rfl

/-- A sweep keeps what the trail says. -/
lemma keeps_gc (h : Keeps r ip tr) : Keeps (r.gc now) ip (tr.sweep r now) := by
  obtain ⟨hhits, hfirst, hban⟩ := h
  rw [Trail.sweep]
  by_cases hdrop : tr.banEnd ≤ now ∧ r.windowSecs * 2 % 2 ^ 64 ≤ now - tr.start
  case pos =>
    have hentry : (r.gc now).entry ip = {} := by
      rw [entry_gc, hban, hfirst, if_neg (by omega)]
    rw [if_pos hdrop]
    exact ⟨by rw [hentry]; rfl, by rw [hentry]; rfl, by rw [hentry]⟩
  case neg =>
    have hentry : (r.gc now).entry ip = r.entry ip := by
      rw [entry_gc, hban, hfirst, if_pos (by omega)]
    rw [if_neg hdrop]
    exact ⟨hentry ▸ hhits, hentry ▸ hfirst, hentry ▸ hban⟩

/-- The hits after an offence are those in its window, up to saturation. -/
lemma next_hits (h : Keeps r ip tr) :
    (r.entry ip).nextHits r.windowSecs now = min (tr.next r now).length u32Max := by
  rw [HitState.nextHits, Trail.next, h.firstHit, h.hits]
  split
  case isTrue => rfl
  case isFalse =>
    rw [List.length_append, List.length_singleton, satAdd32]
    omega

/-- The window begins with the first of them. -/
lemma offend_firstHit (h : Keeps r ip tr) :
    ((r.entry ip).offend r.windowSecs now).firstHit = (tr.next r now).headD 0 := by
  have hstart : tr.start ≠ 0 → (tr.window ++ [now]).headD 0 = tr.start := by
    intro hne
    rw [Trail.start] at hne ⊢
    cases hwin : tr.window with
    | nil => rw [hwin] at hne; exact absurd rfl hne
    | cons s window => rfl
  simp only [HitState.offend, Trail.next, h.firstHit]
  by_cases hrestart : tr.start = 0 ∨ r.windowSecs < now - tr.start
  case pos =>
    rw [if_pos hrestart, if_pos hrestart]
    rfl
  case neg =>
    rw [if_neg hrestart, if_neg hrestart, hstart fun h => hrestart (.inl h)]
    exact h.firstHit

/-- An offence of a tracked address extends its trail, and bans it if all of the last offences lie in
its window or a ban still runs. -/
lemma keeps_recordOffence {disk : Disk} (h : Keeps r ip tr) (ht : r.tracked ip = true)
    (hthreshold : r.autoBanThreshold ≤ u32Max) :
    Keeps (r.recordOffence disk ip now).2.1 ip (tr.offend r now) := by
  have hbans : r.bansNow ip now
      ↔ r.autoBanThreshold ≤ (tr.next r now).length ∧ tr.banEnd ≤ now := by
    rw [bansNow, next_hits h, h.banUntil]
    omega
  by_cases hb : r.bansNow ip now
  case pos =>
    rw [recordOffence_ban ht hb]
    refine ⟨?_, ?_, ?_⟩
    · rw [entry_setEntry, newBan, HitState.offend_hits, next_hits h, Trail.offend]
    · rw [entry_setEntry]
      exact offend_firstHit h
    · rw [entry_setEntry, Trail.offend, if_pos (hbans.mp hb)]
      rfl
  case neg =>
    rw [recordOffence_note ht hb]
    refine ⟨?_, ?_, ?_⟩
    · rw [entry_setEntry, HitState.offend_hits, next_hits h, Trail.offend]
    · rw [entry_setEntry]
      exact offend_firstHit h
    · rw [entry_setEntry, Trail.offend, if_neg fun h => hb (hbans.mpr h),
        HitState.offend_banUntil, h.banUntil]

/-- A trail depends on the limits of a store only. -/
lemma step_congr {r' : Reputations} {o : Nat × Op} (h : SameLimits r r') :
    Trail.step r' ip tr o = Trail.step r ip tr o := by
  obtain ⟨now, op⟩ := o
  have hnext : tr.next r' now = tr.next r now := by rw [Trail.next, Trail.next, h.window]
  have hoffend : tr.offend r' now = tr.offend r now := by
    rw [Trail.offend, Trail.offend, hnext, h.threshold, h.duration]
  have hsweep : tr.sweep r' now = tr.sweep r now := by rw [Trail.sweep, Trail.sweep, h.window]
  cases op with
  | recordOffence addr =>
    show (if addr = ip then tr.offend r' now else tr) = if addr = ip then tr.offend r now else tr
    rw [hoffend]
  | gc => exact hsweep
  | forceBan => rfl
  | unban => rfl
  | isBanned => rfl
  | persist => rfl
  | banned => rfl

/-- An address that is not allowed is tracked while there is room. -/
lemma tracked_of_room (houtside : inNets r.allow ip = false) (hroom : r.state.size ≤ maxEntries) :
    r.tracked ip = true := by
  refine tracked_iff.mpr ⟨houtside, ?_⟩
  rw [full, decide_eq_false (Nat.not_lt.mpr hroom), Bool.and_false]

/-- An operation that neither lifts nor forces a ban of the address. -/
def Quiet (ip : IpAddr) : Op → Prop
  | .unban addr | .forceBan addr _ => addr ≠ ip
  | _ => True

/-- An operation keeps what the trail says. -/
lemma keeps_apply (now : Nat) (op : Op) (h : Keeps st.reps ip tr) (ht : st.reps.tracked ip = true)
    (hthreshold : st.reps.autoBanThreshold ≤ u32Max) (hquiet : Quiet ip op) :
    Keeps (op.apply now st).reps ip (Trail.step st.reps ip tr (now, op)) := by
  have other : Elsewhere ip op → Trail.step st.reps ip tr (now, op) = tr →
      Keeps (op.apply now st).reps ip (Trail.step st.reps ip tr (now, op)) := by
    intro helse htrail
    have hentry : (op.apply now st).reps.entry ip = st.reps.entry ip := entry_elsewhere helse
    rw [htrail]
    exact ⟨by rw [hentry, h.hits], by rw [hentry, h.firstHit], by rw [hentry, h.banUntil]⟩
  cases op with
  | recordOffence addr =>
    by_cases e : addr = ip
    case pos =>
      subst e
      have hstep : Trail.step st.reps addr tr (now, .recordOffence addr) = tr.offend st.reps now :=
        if_pos rfl
      rw [hstep]
      exact keeps_recordOffence h ht hthreshold
    case neg => exact other e (if_neg e)
  | forceBan => exact other hquiet rfl
  | unban => exact other hquiet rfl
  | gc => exact keeps_gc h
  | isBanned => exact other trivial rfl
  | persist => exact other trivial rfl
  | banned => exact other trivial rfl

/-- An address that is not in the table has an empty trail. -/
lemma keeps_fresh (h : r.state.lookup ip = none) : Keeps r ip {} := by
  have hentry : r.entry ip = {} := by rw [entry, h, Option.getD_none]
  exact ⟨by rw [hentry]; rfl, by rw [hentry]; rfl, by rw [hentry]⟩

/-- The entry of an address after a run stands for its trail. -/
lemma after_keeps (fresh : st.reps.state.lookup ip = none)
    (outside : inNets st.reps.allow ip = false)
    (threshold : st.reps.autoBanThreshold ≤ u32Max) (quiet : ∀ o ∈ ops, Quiet ip o.2)
    (room : ∀ pre, pre <+: ops → (after st pre).reps.state.size ≤ maxEntries) :
    Keeps (after st ops).reps ip (trail st.reps ip ops) := by
  induction ops using List.reverseRecOn with
  | nil => exact keeps_fresh fresh
  | append_singleton ops o ih =>
    have hkeeps := ih (fun o' ho => quiet o' (List.mem_append_left _ ho))
      fun pre hp => room pre (hp.trans (List.prefix_append _ _))
    have hlimits : SameLimits st.reps (after st ops).reps := after_limits
    have htracked := tracked_of_room (hlimits.allow ▸ outside) (room ops (List.prefix_append _ _))
    rw [after_append, trail_append, ← step_congr hlimits]
    exact keeps_apply o.1 o.2 hkeeps htracked (hlimits.threshold ▸ threshold)
      (quiet o (List.mem_append_right _ (.head _)))

/-! ## The window of an offence -/

lemma offences_append {o : Nat × Op} :
    offences ip (ops ++ [o]) = offences ip ops ++ offences ip [o] := List.filterMap_append

/-- A window is made of the last offences, of which none is more than `windowSecs` after the first. -/
structure Trail.Recent (tr : Trail) (r : Reputations) (offs : List Nat) : Prop where
  suffix : tr.window <:+ offs
  start_le : ∀ u ∈ tr.window, tr.start ≤ u
  le_start : ∀ u ∈ tr.window, u ≤ tr.start + r.windowSecs

/-- An offence keeps the window a window of recent ones. -/
lemma recent_offend {offs : List Nat} (h : tr.Recent r offs) (hclock : ∀ u ∈ offs, u ≤ now) :
    (tr.offend r now).Recent r (offs ++ [now]) := by
  have hstart : tr.start ≠ 0 → tr.start ∈ tr.window ∧ (tr.window ++ [now]).headD 0 = tr.start := by
    intro hne
    rw [Trail.start] at hne ⊢
    cases hwin : tr.window with
    | nil => rw [hwin] at hne; exact absurd rfl hne
    | cons s window => exact ⟨.head _, rfl⟩
  by_cases hrestart : tr.start = 0 ∨ r.windowSecs < now - tr.start
  case pos =>
    have hoffend : (tr.offend r now).window = [now] := if_pos hrestart
    have hnow : (tr.offend r now).start = now := congrArg (List.headD · 0) hoffend
    refine ⟨?_, ?_, ?_⟩
    · rw [hoffend]
      exact List.suffix_append ..
    · rw [hoffend, hnow]
      exact fun u hu => (List.mem_singleton.mp hu).ge
    · rw [hoffend, hnow]
      exact fun u hu => (List.mem_singleton.mp hu).le.trans (Nat.le_add_right _ _)
  case neg =>
    have hne : tr.start ≠ 0 := fun h => hrestart (.inl h)
    have hoffend : (tr.offend r now).window = tr.window ++ [now] := if_neg hrestart
    have hsame : (tr.offend r now).start = tr.start :=
      (congrArg (List.headD · 0) hoffend).trans (hstart hne).2
    have hle : tr.start ≤ now := hclock _ (h.suffix.subset (hstart hne).1)
    refine ⟨?_, ?_, ?_⟩
    · rw [hoffend]
      obtain ⟨pre, hpre⟩ := h.suffix
      exact ⟨pre, by rw [← List.append_assoc, hpre]⟩
    · rw [hoffend, hsame]
      intro u hu
      obtain hu | hu := List.mem_append.mp hu
      · exact h.start_le u hu
      · rw [List.mem_singleton.mp hu]
        exact hle
    · rw [hoffend, hsame]
      intro u hu
      obtain hu | hu := List.mem_append.mp hu
      · exact h.le_start u hu
      · rw [List.mem_singleton.mp hu]
        omega

lemma recent_empty {offs : List Nat} : Trail.Recent {} r offs :=
  ⟨List.nil_suffix, nofun, nofun⟩

/-- Over a run the window has the recent offences. -/
lemma trail_recent (r : Reputations) (ip : IpAddr) (clock : (ops.map Prod.fst).Pairwise (· ≤ ·)) :
    (trail r ip ops).Recent r (offences ip ops)
      ∧ ∀ u ∈ offences ip ops, ∀ t, (∀ o ∈ ops, o.1 ≤ t) → u ≤ t := by
  induction ops using List.reverseRecOn with
  | nil => exact ⟨recent_empty, nofun⟩
  | append_singleton ops o ih =>
    rw [List.map_append, List.pairwise_append] at clock
    obtain ⟨hrecent, hpast⟩ := ih clock.1
    have hlast : ∀ u ∈ offences ip ops, u ≤ o.1 := fun u hu => hpast u hu o.1 fun o' ho =>
      clock.2.2 _ (List.mem_map_of_mem ho) _ (List.mem_singleton.mpr rfl)
    have hnow : ∀ t, (∀ o' ∈ ops ++ [o], o'.1 ≤ t) → o.1 ≤ t :=
      fun t ht => ht o (List.mem_append_right _ (.head _))
    have hold : ∀ u ∈ offences ip ops, ∀ t, (∀ o' ∈ ops ++ [o], o'.1 ≤ t) → u ≤ t :=
      fun u hu t ht => hpast u hu t fun o' ho => ht o' (List.mem_append_left _ ho)
    rw [trail_append, offences_append]
    -- an operation that neither counts nor sweeps leaves all as it is
    have still : offences ip [o] = [] → Trail.step r ip (trail r ip ops) o = trail r ip ops →
        (Trail.step r ip (trail r ip ops) o).Recent r (offences ip ops ++ offences ip [o])
          ∧ ∀ u ∈ offences ip ops ++ offences ip [o], ∀ t, (∀ o' ∈ ops ++ [o], o'.1 ≤ t) → u ≤ t := by
      intro hnone hstep
      rw [hnone, hstep, List.append_nil]
      exact ⟨hrecent, hold⟩
    obtain ⟨now, op⟩ := o
    cases op with
    | recordOffence addr =>
      by_cases e : addr = ip
      case pos =>
        subst e
        have hone : offences addr [(now, Op.recordOffence addr)] = [now] := by
          simp only [offences, List.filterMap_cons, if_true, List.filterMap_nil]
        have hstep : Trail.step r addr (trail r addr ops) (now, .recordOffence addr)
            = (trail r addr ops).offend r now := if_pos rfl
        rw [hone, hstep]
        refine ⟨recent_offend hrecent hlast, fun u hu => ?_⟩
        obtain hu | hu := List.mem_append.mp hu
        · exact hold u hu
        · rw [List.mem_singleton.mp hu]
          exact hnow
      case neg =>
        refine still ?_ (if_neg e)
        simp only [offences, List.filterMap_cons, if_neg e, List.filterMap_nil]
    | gc =>
      have hnone : offences ip [(now, Op.gc)] = [] := rfl
      refine ⟨?_, by rw [hnone, List.append_nil]; exact hold⟩
      rw [hnone, List.append_nil]
      show ((trail r ip ops).sweep r now).Recent r _
      rw [Trail.sweep]
      split
      case isTrue => exact recent_empty
      case isFalse => exact hrecent
    | forceBan => exact still rfl rfl
    | unban => exact still rfl rfl
    | isBanned => exact still rfl rfl
    | persist => exact still rfl rfl
    | banned => exact still rfl rfl

/-- An offence leaves its address banned iff an earlier ban still runs, or the last offences, as many
as the threshold, all lie in its window and the ban lasts. A window is made of the last offences, all
within `windowSecs` of each other. -/
theorem burst_banned_iff (fresh : st.reps.state.lookup ip = none)
    (outside : inNets st.reps.allow ip = false)
    (threshold : st.reps.autoBanThreshold ≤ u32Max) (quiet : ∀ o ∈ ops, Quiet ip o.2)
    (clock : ((ops ++ [(now, Op.recordOffence ip)]).map Prod.fst).Pairwise (· ≤ ·))
    (room : ∀ pre, pre <+: ops → (after st pre).reps.state.size ≤ maxEntries) :
    (trail st.reps ip (ops ++ [(now, Op.recordOffence ip)])).window
        <:+ offences ip (ops ++ [(now, Op.recordOffence ip)])
      ∧ (∀ u ∈ (trail st.reps ip (ops ++ [(now, Op.recordOffence ip)])).window,
        now ≤ u + st.reps.windowSecs)
      ∧ ((after st (ops ++ [(now, Op.recordOffence ip)])).reps.isBanned ip now = true
        ↔ now < (trail st.reps ip ops).banEnd
          ∨ (st.reps.autoBanThreshold
              ≤ (trail st.reps ip (ops ++ [(now, Op.recordOffence ip)])).window.length
            ∧ now < (now + st.reps.durationSecs) % 2 ^ 64)) := by
  have hkeeps := after_keeps fresh outside threshold quiet room
  have hlimits : SameLimits st.reps (after st ops).reps := after_limits
  have htracked := tracked_of_room (hlimits.allow ▸ outside) (room ops (List.prefix_refl _))
  obtain ⟨hrecent, -⟩ := trail_recent st.reps ip clock
  have hstep : trail st.reps ip (ops ++ [(now, Op.recordOffence ip)])
      = (trail st.reps ip ops).offend st.reps now := by
    rw [trail_append]
    exact if_pos rfl
  refine ⟨hrecent.suffix, fun u hu => ?_, ?_⟩
  · have hnow : now ∈ (trail st.reps ip (ops ++ [(now, Op.recordOffence ip)])).window := by
      rw [hstep, Trail.offend, Trail.next]
      split
      case isTrue => exact .head _
      case isFalse => exact List.mem_append_right _ (.head _)
    have hle := hrecent.le_start now hnow
    have hge := hrecent.start_le u hu
    omega
  · have hbanned : (after st (ops ++ [(now, Op.recordOffence ip)])).reps.isBanned ip now = true
        ↔ now < ((trail st.reps ip ops).offend st.reps now).banEnd := by
      rw [isBanned_iff, after_append, ← hstep, trail_append, ← step_congr hlimits]
      have hafter := keeps_apply now (.recordOffence ip) hkeeps htracked
        (hlimits.threshold ▸ threshold) trivial
      rw [hafter.banUntil]
    rw [hbanned, hstep]
    have hend : ((trail st.reps ip ops).offend st.reps now).banEnd
        = if st.reps.autoBanThreshold ≤ ((trail st.reps ip ops).offend st.reps now).window.length
            ∧ (trail st.reps ip ops).banEnd ≤ now then
          (now + st.reps.durationSecs) % 2 ^ 64
        else (trail st.reps ip ops).banEnd := rfl
    rw [hend]
    split
    case isTrue h => omega
    case isFalse h => omega

/-- The last `n` offences are within `w` seconds of each other. -/
def Burst (n w : Nat) (offs : List Nat) : Prop :=
  n ≤ offs.length
    ∧ ∀ u ∈ offs.drop (offs.length - n), ∀ v ∈ offs.drop (offs.length - n), v ≤ u + w

/-- A store that bans for a minute after three offences in a minute. -/
def minuteStore : BanStore where
  reps := {
    allow := []
    deny := []
    autoBanThreshold := 3
    windowSecs := 60
    durationSecs := 60
    state := ∅
    persistPath := none }
  disk _ := none

def offender : IpAddr := .v4 (.new 1 2 3 4)

/-- A first offence, and two that come within ten seconds, of which the second begins a window. -/
def straddling : List (Nat × Op) :=
  [(1000, .recordOffence offender), (1055, .recordOffence offender),
    (1065, .recordOffence offender)]

/-- Three offences within fifteen seconds, and no ban. -/
theorem straddling_passes : ¬ ∀ (st : BanStore) (ip : IpAddr) (ops : List (Nat × Op)) (now : Nat),
    st.reps.state.lookup ip = none → inNets st.reps.allow ip = false →
    1 ≤ st.reps.autoBanThreshold → 1 ≤ st.reps.windowSecs →
    (∀ o ∈ ops, Quiet ip o.2) →
    ((ops ++ [(now, Op.recordOffence ip)]).map Prod.fst).Pairwise (· ≤ ·) →
    (∀ pre, pre <+: ops → (after st pre).reps.state.size ≤ maxEntries) →
    Burst st.reps.autoBanThreshold st.reps.windowSecs
      (offences ip (ops ++ [(now, Op.recordOffence ip)])) →
    (after st (ops ++ [(now, Op.recordOffence ip)])).reps.isBanned ip now = true := by
  intro h
  have room : ∀ pre ∈ straddling.inits, (after minuteStore pre).reps.state.size ≤ maxEntries := by
    decide
  have quiet : ∀ o ∈ straddling, Quiet offender o.2 := by
    intro o ho
    obtain rfl | rfl | rfl : o = _ ∨ o = _ ∨ o = _ := by simpa [straddling] using ho
    all_goals exact trivial
  have hbanned := h minuteStore offender straddling 1070 rfl rfl (by decide) (by decide) quiet
    (by decide) (fun pre hp => room pre ((List.mem_inits _ _).mpr hp)) ⟨by decide, by decide⟩
  have hnot : (after minuteStore (straddling ++ [(1070, Op.recordOffence offender)])).reps.isBanned
      offender 1070 = false := by decide
  exact Bool.noConfusion (hnot.symm.trans hbanned)

/-- Two offences of one window. -/
def twoOffences : List (Nat × Op) :=
  [(1000, .recordOffence offender), (1010, .recordOffence offender)]

/-- Three offences within a minute. -/
theorem third_offence_banned_iff :
    (after minuteStore (twoOffences ++ [(1020, Op.recordOffence offender)])).reps.isBanned
        offender 1020 = true
      ↔ 1020 < (trail minuteStore.reps offender twoOffences).banEnd
        ∨ (minuteStore.reps.autoBanThreshold ≤ (trail minuteStore.reps offender
            (twoOffences ++ [(1020, Op.recordOffence offender)])).window.length
          ∧ 1020 < (1020 + minuteStore.reps.durationSecs) % 2 ^ 64) := by
  have room : ∀ pre ∈ twoOffences.inits, (after minuteStore pre).reps.state.size ≤ maxEntries := by
    decide
  have quiet : ∀ o ∈ twoOffences, Quiet offender o.2 := by
    intro o ho
    obtain rfl | rfl : o = _ ∨ o = _ := by simpa [twoOffences] using ho
    all_goals exact trivial
  exact (burst_banned_iff rfl rfl (by decide) quiet (by decide)
    fun pre hp => room pre ((List.mem_inits _ _).mpr hp)).2.2

end Reputations

end Waf
