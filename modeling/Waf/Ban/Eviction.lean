import Waf.Ban.Bursts

/-!
# Evictions of the ban table

`Reputations::gc` drops the entries that are not banned and whose first hit is at least two windows
ago. Such an entry answers every later call as a fresh one does: its ban is over, and the next offence
starts a new window in either. `Alike` relates the tables of a run with sweeps and of the run without;
no call tells them apart (`replies_alike`).

The two windows are computed in 64 bits. From `2 ^ 63` on the product would wrap, so that a sweep drops
entries whose window still runs (`gc_unobservable_iff`). The integers of a configuration file are below
that, so no configuration that is loaded comes there (`gc_unobservable`).
-/

namespace Waf
open Lib

namespace Reputations

/-- A call whose result is seen. -/
inductive Query where
  | recordOffence (ip : IpAddr)
  | forceBan (ip : IpAddr) (secs : Nat)
  | unban (ip : IpAddr)
  | isBanned (ip : IpAddr)
  | classify (ip : IpAddr)

/-- The result of a call. -/
inductive Reply where
  | done
  | flag (b : Bool)
  | reputation (c : Reputation)
  deriving DecidableEq

def Query.reply (now : Nat) (st : BanStore) : Query → Reply × BanStore
  | recordOffence ip =>
    let (banned, r, disk) := st.reps.recordOffence st.disk ip now
    (.flag banned, ⟨r, disk⟩)
  | forceBan ip secs =>
    let (banned, r, disk) := st.reps.forceBan st.disk ip secs now
    (.flag banned, ⟨r, disk⟩)
  | unban ip => (.done, ⟨st.reps.unban ip, st.disk⟩)
  | isBanned ip => (.flag (st.reps.isBanned ip now), st)
  | classify ip => (.reputation (st.reps.classify ip now), st)

inductive Event where
  | query (q : Query)
  | gc

/-- The results of the calls of a run. -/
def replies (st : BanStore) : List (Nat × Event) → List Reply
  | [] => []
  | (now, .query q) :: es => (q.reply now st).1 :: replies (q.reply now st).2 es
  | (now, .gc) :: es => replies ⟨st.reps.gc now, st.disk⟩ es

def Event.isQuery : Event → Bool
  | query _ => true
  | gc => false

/-- A run without its sweeps. -/
def unswept (es : List (Nat × Event)) : List (Nat × Event) := es.filter fun e => e.2.isQuery

/-- The table stays below its size limit. -/
def Roomy (st : BanStore) : List (Nat × Event) → Prop
  | [] => st.reps.state.size ≤ maxEntries
  | (now, .query q) :: es => st.reps.state.size ≤ maxEntries ∧ Roomy (q.reply now st).2 es
  | (now, .gc) :: es => st.reps.state.size ≤ maxEntries ∧ Roomy ⟨st.reps.gc now, st.disk⟩ es

/-! ## Entries that answer alike -/

/-- The next offence starts a new window. -/
def Stale (s : HitState) (windowSecs clock : Nat) : Prop :=
  s.firstHit = 0 ∨ windowSecs < clock - s.firstHit

/-- The bans are the same, or both are over. -/
def LikeBan (s s' : HitState) (clock : Nat) : Prop :=
  s.banUntil = s'.banUntil ∨ (s.banUntil ≤ clock ∧ s'.banUntil ≤ clock)

/-- The windows are the same, or the next offence starts a new one in both. -/
def LikeHits (s s' : HitState) (windowSecs clock : Nat) : Prop :=
  (s.hits = s'.hits ∧ s.firstHit = s'.firstHit)
    ∨ (Stale s windowSecs clock ∧ Stale s' windowSecs clock)

variable {r r' : Reputations} {st st' : BanStore} {ip addr : IpAddr} {s s' : HitState}
  {es : List (Nat × Event)} {w secs clock now : Nat}

lemma Stale.mono (h : Stale s w clock) (hnow : clock ≤ now) : Stale s w now := by
  rcases h with h | h
  · exact .inl h
  · exact .inr (by omega)

lemma LikeBan.mono (h : LikeBan s s' clock) (hnow : clock ≤ now) : LikeBan s s' now :=
  h.imp_right fun ⟨hs, hs'⟩ => ⟨hs.trans hnow, hs'.trans hnow⟩

lemma LikeHits.mono (h : LikeHits s s' w clock) (hnow : clock ≤ now) : LikeHits s s' w now :=
  h.imp_right fun ⟨hs, hs'⟩ => ⟨hs.mono hnow, hs'.mono hnow⟩

/-- Of bans that are alike both are over or none. -/
lemma LikeBan.over_iff (h : LikeBan s s' clock) (hnow : clock ≤ now) :
    s.banUntil ≤ now ↔ s'.banUntil ≤ now := by
  rcases h with h | ⟨hs, hs'⟩
  · rw [h]
  · exact iff_of_true (hs.trans hnow) (hs'.trans hnow)

/-- The next offence of a stale entry is the first of a window. -/
lemma offend_stale (h : Stale s w now) : s.offend w now = ⟨1, now, s.banUntil⟩ := by
  have hrestart : s.firstHit = 0 ∨ w < now - s.firstHit := h
  rw [HitState.offend, if_pos hrestart]
  rfl

/-- Windows that answer alike are the same after one more offence. -/
lemma LikeHits.offend (h : LikeHits s s' w clock) (hnow : clock ≤ now) :
    (s.offend w now).hits = (s'.offend w now).hits
      ∧ (s.offend w now).firstHit = (s'.offend w now).firstHit := by
  rcases h with ⟨hhits, hfirst⟩ | ⟨hs, hs'⟩
  · rw [HitState.offend, HitState.offend, hfirst]
    split
    case isTrue => exact ⟨rfl, rfl⟩
    case isFalse => exact ⟨by rw [hhits], hfirst⟩
  · rw [offend_stale (hs.mono hnow), offend_stale (hs'.mono hnow)]
    exact ⟨rfl, rfl⟩

/-! ## Tables that answer alike -/

/-- The second table is the first one but for entries that a sweep has dropped. Hits do not count
for addresses on the allow list, and neither when every offence is one too many. -/
structure Alike (r r' : Reputations) (clock : Nat) : Prop where
  limits : SameLimits r r'
  deny : r'.deny = r.deny
  ban : ∀ ip, LikeBan (r.entry ip) (r'.entry ip) clock
  hits : ∀ ip, inNets r.allow ip = true ∨ r.autoBanThreshold ≤ 1
    ∨ LikeHits (r.entry ip) (r'.entry ip) r.windowSecs clock
  known : ∀ ip, r'.state.containsKey ip = true → r.state.containsKey ip = true

lemma Alike.refl : Alike r r 0 :=
  ⟨.refl, rfl, fun _ => .inl rfl, fun _ => .inr (.inr (.inl ⟨rfl, rfl⟩)), fun _ => id⟩

lemma Alike.mono (h : Alike r r' clock) (hnow : clock ≤ now) : Alike r r' now :=
  ⟨h.limits, h.deny, fun ip => (h.ban ip).mono hnow,
    fun ip => (h.hits ip).imp_right (Or.imp_right fun hh => hh.mono hnow), h.known⟩

/-- Setting an entry adds its address. -/
lemma containsKey_setEntry : (r.setEntry addr s).state.containsKey ip
    = (decide (ip = addr) || r.state.containsKey ip) := by
  rw [HashMap.containsKey, setEntry, HashMap.lookup_insert]
  split
  case isTrue h =>
    rw [decide_eq_true h]
    rfl
  case isFalse h =>
    rw [decide_eq_false h, Bool.false_or]
    rfl

/-- Entries that answer alike are written to both tables. -/
lemma Alike.setEntry (h : Alike r r' clock) (hban : LikeBan s s' clock)
    (hhits : inNets r.allow ip = true ∨ r.autoBanThreshold ≤ 1
      ∨ LikeHits s s' r.windowSecs clock) :
    Alike (r.setEntry ip s) (r'.setEntry ip s') clock := by
  have key : ∀ addr, addr ≠ ip → (r.setEntry ip s).entry addr = r.entry addr
      ∧ (r'.setEntry ip s').entry addr = r'.entry addr :=
    fun addr hne => ⟨entry_setEntry_ne hne.symm, entry_setEntry_ne hne.symm⟩
  refine ⟨⟨h.limits.allow, h.limits.threshold, h.limits.window, h.limits.duration⟩, h.deny,
    ?_, ?_, ?_⟩
  · intro addr
    by_cases hne : addr = ip
    case pos =>
      subst hne
      rw [entry_setEntry, entry_setEntry]
      exact hban
    case neg =>
      rw [(key addr hne).1, (key addr hne).2]
      exact h.ban addr
  · intro addr
    by_cases hne : addr = ip
    case pos =>
      subst hne
      rw [entry_setEntry, entry_setEntry]
      exact hhits
    case neg =>
      rw [(key addr hne).1, (key addr hne).2]
      exact h.hits addr
  · intro addr hknown
    rw [containsKey_setEntry, Bool.or_eq_true] at hknown ⊢
    exact hknown.imp_right (h.known addr)

/-- The table with evictions is no larger. -/
lemma Alike.size_le (h : Alike r r' clock) : r'.state.size ≤ r.state.size := by
  have hsub : r'.state.keys ⊆ r.state.keys := by
    intro ip hip
    have hknown := h.known ip (AList.lookup_isSome.mpr (AList.mem_keys.mpr hip))
    exact AList.mem_keys.mp (AList.lookup_isSome.mp hknown)
  have hlen := (List.subperm_of_subset r'.state.keys_nodup hsub).length_le
  have hsize : ∀ m : HashMap IpAddr HitState, m.keys.length = m.size := fun m => List.length_map _
  rwa [hsize, hsize] at hlen

/-- Below the size limit both tables track the same addresses. -/
lemma Alike.tracked (h : Alike r r' clock) (ip : IpAddr) (room : r.state.size ≤ maxEntries) :
    r'.tracked ip = r.tracked ip := by
  have hopen : ∀ {r : Reputations}, r.state.size ≤ maxEntries → r.tracked ip = !inNets r.allow ip := by
    intro r hroom
    rw [Reputations.tracked, full, decide_eq_false (Nat.not_lt.mpr hroom), Bool.and_false,
      Bool.not_false, Bool.and_true]
  rw [hopen room, hopen (h.size_le.trans room), h.limits.allow]

/-- An offence of an address that is not on the allow list bans it in both runs or in none. -/
lemma Alike.bansNow_iff (h : Alike r r' clock) (hnow : clock ≤ now)
    (houtside : inNets r.allow ip = false) : r'.bansNow ip now ↔ r.bansNow ip now := by
  rw [bansNow, bansNow, h.limits.threshold, h.limits.window, (h.ban ip).over_iff hnow,
    ← HitState.offend_hits, ← HitState.offend_hits]
  refine and_congr_left fun _ => ?_
  rcases h.hits ip with hallow | hone | hhits
  · rw [houtside] at hallow
    cases hallow
  · have hpos : ∀ s : HitState, r.autoBanThreshold ≤ (s.offend r.windowSecs now).hits := by
      intro s
      refine hone.trans ?_
      simp only [HitState.offend, satAdd32, u32Max]
      omega
    exact iff_of_true (hpos _) (hpos _)
  · rw [(hhits.offend hnow).1]

/-- Tables that are alike answer an offence alike, and stay so. -/
lemma Alike.recordOffence (h : Alike r r' clock) (hnow : clock ≤ now)
    (room : r.state.size ≤ maxEntries) (ip : IpAddr) (disk disk' : Disk) :
    (r'.recordOffence disk' ip now).1 = (r.recordOffence disk ip now).1
      ∧ Alike (r.recordOffence disk ip now).2.1 (r'.recordOffence disk' ip now).2.1 now := by
  have ht := h.tracked ip room
  cases htracked : r.tracked ip with
  | false =>
    rw [recordOffence_untracked htracked, recordOffence_untracked (ht.trans htracked)]
    exact ⟨rfl, h.mono hnow⟩
  | true =>
    have hlikehits : inNets r.allow ip = true ∨ r.autoBanThreshold ≤ 1
        ∨ (((r.entry ip).offend r.windowSecs now).hits = ((r'.entry ip).offend r.windowSecs now).hits
          ∧ ((r.entry ip).offend r.windowSecs now).firstHit
            = ((r'.entry ip).offend r.windowSecs now).firstHit) :=
      (h.hits ip).imp_right (Or.imp_right fun hh => hh.offend hnow)
    have hbans := h.bansNow_iff hnow (tracked_iff.mp htracked).1
    by_cases hb : r.bansNow ip now
    case pos =>
      rw [recordOffence_ban htracked hb, recordOffence_ban (ht.trans htracked) (hbans.mpr hb)]
      refine ⟨rfl, (h.mono hnow).setEntry (.inl ?_) ?_⟩
      · rw [newBan, newBan, h.limits.duration]
      · rw [newBan, newBan, h.limits.window]
        exact hlikehits.imp_right (Or.imp_right Or.inl)
    case neg =>
      rw [recordOffence_note htracked hb,
        recordOffence_note (ht.trans htracked) (fun hb' => hb (hbans.mp hb')), h.limits.window]
      refine ⟨rfl, (h.mono hnow).setEntry ?_ (hlikehits.imp_right (Or.imp_right Or.inl))⟩
      rw [LikeBan, HitState.offend_banUntil, HitState.offend_banUntil]
      exact (h.ban ip).mono hnow

/-- A forced ban leaves entries alike: bans that are over are extended to the same end, or not beyond
now. -/
lemma Alike.forced (h : Alike r r' clock) (ip : IpAddr) (secs : Nat) (hnow : clock ≤ now) :
    LikeBan (r.forced ip secs now) (r'.forced ip secs now) now
      ∧ (inNets r.allow ip = true ∨ r.autoBanThreshold ≤ 1
        ∨ LikeHits (r.forced ip secs now) (r'.forced ip secs now) r.windowSecs now) := by
  have hend : ∀ r : Reputations, (r.forced ip secs now).banUntil
      = max (r.entry ip).banUntil ((now + secs) % 2 ^ 64) := by
    intro r
    simp only [Reputations.forced]
    split
    case isTrue hlt => exact (Nat.max_eq_right (Nat.le_of_lt hlt)).symm
    case isFalse hle => exact (Nat.max_eq_left (Nat.le_of_not_lt hle)).symm
  have hfirst : ∀ r : Reputations, (r.forced ip secs now).firstHit = (r.entry ip).firstHit := by
    intro r
    simp only [Reputations.forced]
    split
    case isTrue => rfl
    case isFalse => rfl
  have hhits : ∀ r : Reputations, (r.forced ip secs now).hits
      = satAdd32 (r.entry ip).hits r.autoBanThreshold := by
    intro r
    simp only [Reputations.forced]
    split
    case isTrue => rfl
    case isFalse => rfl
  constructor
  · rw [LikeBan, hend, hend]
    rcases (h.ban ip).mono hnow with heq | ⟨hs, hs'⟩
    · exact .inl (by rw [heq])
    · omega
  · refine (h.hits ip).imp_right (Or.imp_right fun hh => ?_)
    rcases hh.mono hnow with ⟨heq, hfirst'⟩ | ⟨hs, hs'⟩
    · refine .inl ⟨?_, ?_⟩
      · rw [hhits, hhits, heq, h.limits.threshold]
      · rw [hfirst, hfirst, hfirst']
    · refine .inr ⟨?_, ?_⟩
      · rw [Stale, hfirst]
        exact hs
      · rw [Stale, hfirst]
        exact hs'

lemma Alike.forceBan (h : Alike r r' clock) (hnow : clock ≤ now)
    (room : r.state.size ≤ maxEntries) (ip : IpAddr) (secs : Nat) (disk disk' : Disk) :
    (r'.forceBan disk' ip secs now).1 = (r.forceBan disk ip secs now).1
      ∧ Alike (r.forceBan disk ip secs now).2.1 (r'.forceBan disk' ip secs now).2.1 now := by
  have ht := h.tracked ip room
  cases htracked : r.tracked ip with
  | false =>
    rw [forceBan_untracked htracked, forceBan_untracked (ht.trans htracked)]
    exact ⟨rfl, h.mono hnow⟩
  | true =>
    rw [forceBan_tracked htracked, forceBan_tracked (ht.trans htracked)]
    have hforced := h.forced ip secs hnow
    exact ⟨rfl, (h.mono hnow).setEntry hforced.1 hforced.2⟩

/-- An unban changes the entry of its own address. -/
lemma entry_unban : (r.unban addr).entry ip
    = if ip = addr then { r.entry ip with banUntil := 0, hits := 0 } else r.entry ip := by
  rw [entry, entry, unban]
  by_cases h : ip = addr
  case pos =>
    subst h
    rw [if_pos rfl, HashMap.lookup_modify]
    cases r.state.lookup ip with
    | some s => rfl
    | none => rfl
  case neg => rw [if_neg h, HashMap.lookup_modify_ne h]

/-- It adds no address and removes none. -/
lemma containsKey_unban : (r.unban addr).state.containsKey ip = r.state.containsKey ip := by
  rw [HashMap.containsKey, HashMap.containsKey, unban]
  by_cases h : ip = addr
  case pos =>
    subst h
    rw [HashMap.lookup_modify, Option.isSome_map]
  case neg => rw [HashMap.lookup_modify_ne h]

/-- Tables stay alike after an unban. -/
lemma Alike.unban (h : Alike r r' clock) : Alike (r.unban addr) (r'.unban addr) clock := by
  refine ⟨⟨h.limits.allow, h.limits.threshold, h.limits.window, h.limits.duration⟩, h.deny,
    ?_, ?_, ?_⟩
  · intro ip
    rw [entry_unban, entry_unban]
    split
    case isTrue => exact .inl rfl
    case isFalse => exact h.ban ip
  · intro ip
    rw [entry_unban, entry_unban]
    split
    case isTrue =>
      refine (h.hits ip).imp_right (Or.imp_right fun hh => ?_)
      exact hh.imp (fun heq => ⟨rfl, heq.2⟩) id
    case isFalse => exact h.hits ip
  · intro ip hknown
    rw [containsKey_unban] at hknown ⊢
    exact h.known ip hknown

/-- Tables that are alike ban the same addresses. -/
lemma Alike.isBanned (h : Alike r r' clock) (hnow : clock ≤ now) :
    r'.isBanned ip now = r.isBanned ip now := by
  rw [Bool.eq_iff_iff, isBanned_iff, isBanned_iff, ← Nat.not_le, ← Nat.not_le,
    (h.ban ip).over_iff hnow]

/-- They classify all addresses alike. -/
lemma Alike.classify (h : Alike r r' clock) (hnow : clock ≤ now) :
    r'.classify ip now = r.classify ip now := by
  rw [Reputations.classify, Reputations.classify, h.limits.allow, h.deny, h.isBanned hnow]

/-- No call tells the tables apart. -/
lemma Alike.reply (h : Alike st.reps st'.reps clock) (hnow : clock ≤ now)
    (room : st.reps.state.size ≤ maxEntries) (q : Query) :
    (q.reply now st').1 = (q.reply now st).1
      ∧ Alike (q.reply now st).2.reps (q.reply now st').2.reps now := by
  cases q with
  | recordOffence ip =>
    obtain ⟨hres, hlike⟩ := h.recordOffence hnow room ip st.disk st'.disk
    exact ⟨congrArg Reply.flag hres, hlike⟩
  | forceBan ip secs =>
    obtain ⟨hres, hlike⟩ := h.forceBan hnow room ip secs st.disk st'.disk
    exact ⟨congrArg Reply.flag hres, hlike⟩
  | unban ip => exact ⟨rfl, (h.mono hnow).unban⟩
  | isBanned ip => exact ⟨congrArg Reply.flag (h.isBanned hnow), h.mono hnow⟩
  | classify ip => exact ⟨congrArg Reply.reputation (h.classify hnow), h.mono hnow⟩

/-- What a sweep takes for old: two windows, in 64 bits. -/
def sweepSecs (r : Reputations) : Nat := r.windowSecs * 2 % 2 ^ 64

/-- Two windows are longer than one, or the hits never matter. -/
def SweepSafe (r : Reputations) : Prop :=
  r.windowSecs < r.sweepSecs ∨ r.autoBanThreshold ≤ 1 ∨ ∀ ip, inNets r.allow ip = true

lemma SweepSafe.congr (h : SweepSafe r) (hlimits : SameLimits r r') : SweepSafe r' := by
  rw [SweepSafe, sweepSecs] at h ⊢
  rwa [hlimits.window, hlimits.threshold, hlimits.allow]

/-- A sweep of the one table: where hits count, an evicted window has run out. -/
lemma Alike.sweep (h : Alike r r' clock) (hnow : clock ≤ now) (hsafe : SweepSafe r) :
    Alike r (r'.gc now) now := by
  have hm := h.mono hnow
  have hgc : ∀ ip, (r'.gc now).entry ip = if now < (r'.entry ip).banUntil
      ∨ now - (r'.entry ip).firstHit < r'.windowSecs * 2 % 2 ^ 64 then r'.entry ip else {} :=
    fun _ => entry_gc
  refine ⟨⟨h.limits.allow, h.limits.threshold, h.limits.window, h.limits.duration⟩, h.deny,
    ?_, ?_, ?_⟩
  · intro ip
    rw [hgc]
    split
    case isTrue => exact hm.ban ip
    case isFalse hold =>
      have hover : (r'.entry ip).banUntil ≤ now := by omega
      exact .inr ⟨((hm.ban ip).over_iff (Nat.le_refl now)).mpr hover, Nat.zero_le now⟩
  · intro ip
    rw [hgc]
    split
    case isTrue => exact hm.hits ip
    case isFalse hold =>
      rcases hsafe with hsecs | hone | hall
      · refine (hm.hits ip).imp_right (Or.imp_right fun hh => .inr ⟨?_, .inl rfl⟩)
        have hstale : Stale (r'.entry ip) r.windowSecs now := by
          rw [sweepSecs, ← h.limits.window] at hsecs
          rw [← h.limits.window]
          exact .inr (by omega)
        rcases hh with ⟨-, hfirst⟩ | ⟨hs, -⟩
        · rw [Stale, hfirst]
          exact hstale
        · exact hs
      · exact .inr (.inl hone)
      · exact .inl (hall ip)
  · intro ip hknown
    refine h.known ip ?_
    rw [HashMap.containsKey] at hknown ⊢
    have hlookup : (r'.gc now).state.lookup ip = (r'.state.lookup ip).filter _ := HashMap.lookup_retain
    rw [hlookup] at hknown
    cases hentry : r'.state.lookup ip with
    | some s => rfl
    | none =>
      rw [hentry] at hknown
      cases hknown

/-! ## Runs -/

/-- No query changes the limits. -/
lemma Query.reply_limits (q : Query) : SameLimits st.reps (q.reply now st).2.reps := by
  cases q with
  | recordOffence ip => exact .of_writes recordOffence_writes
  | forceBan ip secs => exact .of_writes forceBan_writes
  | unban ip => exact ⟨rfl, rfl, rfl, rfl⟩
  | isBanned ip => exact .refl
  | classify ip => exact .refl

/-- The calls of a run with sweeps have the results of the run without. -/
lemma replies_alike (hlike : Alike st.reps st'.reps clock) (hsafe : SweepSafe st.reps)
    (clocks : (es.map Prod.fst).Pairwise (· ≤ ·)) (later : ∀ e ∈ es, clock ≤ e.1)
    (room : Roomy st (unswept es)) : replies st' es = replies st (unswept es) := by
  induction es generalizing st st' clock with
  | nil => rfl
  | cons e es ih =>
    obtain ⟨now, event⟩ := e
    have hnow : clock ≤ now := later _ (.head _)
    obtain ⟨hfirst, hclocks⟩ := List.pairwise_cons.mp clocks
    have hlater : ∀ e ∈ es, now ≤ e.1 := fun e he => hfirst e.1 (List.mem_map_of_mem he)
    cases event with
    | query q =>
      obtain ⟨hroom, hrest⟩ := room
      obtain ⟨hres, hnext⟩ := hlike.reply hnow hroom q
      show (q.reply now st').1 :: replies (q.reply now st').2 es
        = (q.reply now st).1 :: replies (q.reply now st).2 (unswept es)
      rw [hres, ih hnext (hsafe.congr q.reply_limits) hclocks hlater hrest]
    | gc => exact ih (hlike.sweep hnow hsafe) hsafe hclocks hlater room

/-- Sweeps change no result of a run whose table stays below its size limit. -/
def Unobservable (st : BanStore) : Prop :=
  ∀ es : List (Nat × Event), (es.map Prod.fst).Pairwise (· ≤ ·) →
    (∀ e ∈ es, 0 < e.1 ∧ e.1 < 2 ^ 64) → Roomy st (unswept es) →
    replies st es = replies st (unswept es)

/-- With safe limits the sweeps cannot be observed. -/
lemma unobservable_of_safe (h : SweepSafe st.reps) : Unobservable st :=
  fun _ clocks _ room => replies_alike .refl h clocks (fun _ _ => Nat.zero_le _) room

/-! ## Windows that a sweep cuts short -/

/-- The entry of an address counts `n` offences, all of the first second, and is the only one. -/
structure Counts (r : Reputations) (ip : IpAddr) (n : Nat) (st : BanStore) : Prop where
  limits : SameLimits r st.reps
  entry : st.reps.entry ip = ⟨n, min n 1, 0⟩
  only : ∀ addr, st.reps.state.containsKey addr = true → addr = ip

/-- A table of one address has room. -/
lemma room_of_only (h : ∀ addr, r.state.containsKey addr = true → addr = ip) :
    r.state.size ≤ maxEntries := by
  have hsub : r.state.keys ⊆ [ip] := by
    intro addr haddr
    have hknown := h addr (AList.lookup_isSome.mpr (AList.mem_keys.mpr haddr))
    exact List.mem_singleton.mpr hknown
  have hlen := (List.subperm_of_subset r.state.keys_nodup hsub).length_le
  have hsize : r.state.keys.length = r.state.size := List.length_map _
  rw [hsize, List.length_singleton] at hlen
  exact hlen.trans (by decide)

/-- It stays one when the entry of that address is set. -/
lemma only_setEntry (h : ∀ addr, r.state.containsKey addr = true → addr = ip) :
    ∀ addr, (r.setEntry ip s).state.containsKey addr = true → addr = ip := by
  intro addr hknown
  rw [containsKey_setEntry, Bool.or_eq_true, decide_eq_true_iff] at hknown
  exact hknown.elim id (h addr)

/-- A table that counts one address has room. -/
lemma Counts.room {n : Nat} (h : Counts r ip n st) : st.reps.state.size ≤ maxEntries :=
  room_of_only h.only

/-- Below the threshold an offence of the first second is counted. -/
lemma Counts.offend {n : Nat} (h : Counts r ip n st) (houtside : inNets r.allow ip = false)
    (hbelow : n + 1 < r.autoBanThreshold) (hfits : r.autoBanThreshold ≤ u32Max) :
    ((Query.recordOffence ip).reply 1 st).1 = .flag false
      ∧ Counts r ip (n + 1) ((Query.recordOffence ip).reply 1 st).2 := by
  have htracked := tracked_of_room (h.limits.allow ▸ houtside) h.room
  have hoffend : (st.reps.entry ip).offend st.reps.windowSecs 1 = ⟨n + 1, 1, 0⟩ := by
    rw [h.entry, HitState.offend]
    cases n with
    | zero => rfl
    | succ n =>
      have hkept : ¬ (min (n + 1) 1 = 0 ∨ st.reps.windowSecs < 1 - min (n + 1) 1) := by omega
      have hadd : satAdd32 (n + 1) 1 = n + 1 + 1 := by
        rw [satAdd32]
        omega
      rw [if_neg hkept, hadd, Nat.min_eq_right (by omega)]
  have hnot : ¬ st.reps.bansNow ip 1 := by
    rw [bansNow, ← HitState.offend_hits, hoffend, h.limits.threshold]
    exact fun hb => absurd hb.1 (Nat.not_le.mpr hbelow)
  have hreply : (Query.recordOffence ip).reply 1 st
      = (.flag false, ⟨st.reps.setEntry ip ⟨n + 1, 1, 0⟩, st.disk⟩) := by
    rw [Query.reply, recordOffence_note htracked hnot, hoffend]
  rw [hreply]
  refine ⟨rfl, ⟨h.limits.allow, h.limits.threshold, h.limits.window, h.limits.duration⟩, ?_, ?_⟩
  · rw [entry_setEntry, Nat.min_eq_right (by omega)]
  · exact only_setEntry h.only

/-- `n` offences of the first second. -/
def offenceRun (ip : IpAddr) (n : Nat) : List (Nat × Event) :=
  List.replicate n (1, .query (.recordOffence ip))

/-- Offences below the threshold have no result but their count. -/
lemma Counts.run {k : Nat} (n : Nat) (h : Counts r ip k st) (houtside : inNets r.allow ip = false)
    (hbelow : k + n < r.autoBanThreshold) (hfits : r.autoBanThreshold ≤ u32Max) :
    ∃ st', Counts r ip (k + n) st' ∧ ∀ es,
      replies st (offenceRun ip n ++ es) = List.replicate n (.flag false) ++ replies st' es
        ∧ (Roomy st' es → Roomy st (offenceRun ip n ++ es)) := by
  induction n generalizing st k with
  | zero => exact ⟨st, h, fun es => ⟨rfl, id⟩⟩
  | succ n ih =>
    obtain ⟨hreply, hcounts⟩ := h.offend houtside (by omega) hfits
    obtain ⟨st', hst', hrun⟩ := ih hcounts (by omega)
    refine ⟨st', ?_, fun es => ?_⟩
    · have hsum : k + 1 + n = k + (n + 1) := by omega
      exact hsum ▸ hst'
    · obtain ⟨hreplies, hroom⟩ := hrun es
      constructor
      · show ((Query.recordOffence ip).reply 1 st).1 :: replies _ (offenceRun ip n ++ es) = _
        rw [hreply, hreplies]
        rfl
      · exact fun hr => ⟨h.room, hroom hr⟩

/-- The offence at the threshold bans, as long as the window runs. -/
lemma Counts.bans {n : Nat} (h : Counts r ip n st) (now : Nat) (houtside : inNets r.allow ip = false)
    (hlast : n + 1 = r.autoBanThreshold) (hpos : 0 < n) (hfits : r.autoBanThreshold ≤ u32Max)
    (hwindow : now ≤ r.windowSecs + 1) :
    ((Query.recordOffence ip).reply now st).1 = .flag true := by
  have htracked := tracked_of_room (h.limits.allow ▸ houtside) h.room
  have hkept : ¬ (min n 1 = 0 ∨ st.reps.windowSecs < now - min n 1) := by
    rw [h.limits.window]
    omega
  have hadd : satAdd32 n 1 = n + 1 := by
    rw [satAdd32]
    omega
  have hbans : st.reps.bansNow ip now := by
    rw [bansNow, HitState.nextHits, h.entry, if_neg hkept, hadd, h.limits.threshold]
    exact ⟨hlast.ge, Nat.zero_le now⟩
  rw [Query.reply, recordOffence_ban htracked hbans]

/-- After a sweep that forgets the window it does not. -/
lemma Counts.forgives {n : Nat} (h : Counts r ip n st) (now : Nat) (hmore : 1 < r.autoBanThreshold)
    (hcut : r.sweepSecs ≤ now - min n 1) :
    ((Query.recordOffence ip).reply now ⟨st.reps.gc now, st.disk⟩).1 = .flag false := by
  have hentry : (st.reps.gc now).entry ip = {} := by
    rw [entry_gc, h.entry, h.limits.window, if_neg]
    rintro (hb | hrecent)
    · exact absurd hb (Nat.not_lt_zero now)
    · exact absurd hrecent (Nat.not_lt.mpr hcut)
  cases htracked : (st.reps.gc now).tracked ip with
  | false => rw [Query.reply, recordOffence_untracked htracked]
  | true =>
    have hnot : ¬ (st.reps.gc now).bansNow ip now := by
      rw [bansNow, hentry]
      show ¬ (st.reps.autoBanThreshold ≤ 1 ∧ 0 ≤ now)
      rw [h.limits.threshold]
      exact fun hb => absurd hb.1 (Nat.not_le.mpr hmore)
    rw [Query.reply, recordOffence_note htracked hnot]

/-- All offences but the last one of a ban, and the last one after a sweep. -/
def cutShort (r : Reputations) (ip : IpAddr) : List (Nat × Event) :=
  offenceRun ip (r.autoBanThreshold - 1)
    ++ [(1 + r.sweepSecs, .gc), (1 + r.sweepSecs, .query (.recordOffence ip))]

/-- The times of the run do not decrease. -/
lemma cutShort_clocks : ((cutShort r ip).map Prod.fst).Pairwise (· ≤ ·) := by
  rw [cutShort, offenceRun, List.map_append, List.map_replicate]
  refine List.pairwise_append.mpr ⟨List.pairwise_replicate.mpr (.inr (Nat.le_refl 1)), ?_, ?_⟩
  · exact List.pairwise_pair.mpr (Nat.le_refl _)
  · intro u hu v hv
    rw [List.eq_of_mem_replicate hu]
    simp only [List.map_cons, List.map_nil, List.mem_cons, List.not_mem_nil, or_false,
      or_self] at hv
    omega

/-- They are positive and in range. -/
lemma cutShort_times : ∀ e ∈ cutShort r ip, 0 < e.1 ∧ e.1 < 2 ^ 64 := by
  intro e he
  rw [cutShort, List.mem_append] at he
  rcases he with he | he
  · rw [List.eq_of_mem_replicate he]
    exact ⟨Nat.one_pos, Nat.one_lt_two_pow (by decide)⟩
  · have htime : e.1 = 1 + r.sweepSecs := by
      simp only [List.mem_cons, List.not_mem_nil, or_false] at he
      rcases he with rfl | rfl
      · rfl
      · rfl
    rw [htime, sweepSecs]
    omega

/-- Without its sweep the run is one of enough offences. -/
lemma unswept_cutShort : unswept (cutShort r ip) = offenceRun ip (r.autoBanThreshold - 1)
    ++ [(1 + r.sweepSecs, .query (.recordOffence ip))] := by
  rw [unswept, cutShort, List.filter_append]
  congr 1
  exact List.filter_eq_self.mpr fun e he => by rw [List.eq_of_mem_replicate he]; rfl

/-- A new table counts nothing. -/
lemma counts_fresh (hfresh : st.reps.state = ∅) : Counts st.reps ip 0 st := by
  have hlookup : ∀ addr, st.reps.state.lookup addr = none := by
    intro addr
    rw [hfresh]
    rfl
  refine ⟨.refl, ?_, fun addr hknown => ?_⟩
  · rw [entry, hlookup]
    rfl
  · rw [HashMap.containsKey, hlookup] at hknown
    cases hknown

/-- There is room for one more offence of the address. -/
lemma Counts.room_offend {n : Nat} (h : Counts r ip n st) (now : Nat) :
    Roomy st [(now, .query (.recordOffence ip))] := by
  refine ⟨h.room, ?_⟩
  show (st.reps.recordOffence st.disk ip now).2.1.state.size ≤ maxEntries
  rcases recordOffence_writes (r := st.reps) with hsame | ⟨s, hset⟩
  · rw [hsame]
    exact h.room
  · rw [hset]
    exact room_of_only (only_setEntry h.only)

/-- The last offence of such a run bans without the sweep, and does not with it. -/
lemma observable_of_unsafe (hfresh : st.reps.state = ∅) (hlossy : ¬ SweepSafe st.reps)
    (hwindow : st.reps.windowSecs < 2 ^ 64) (hfits : st.reps.autoBanThreshold ≤ u32Max) :
    ¬ Unobservable st := by
  rw [SweepSafe, not_or, not_or, not_forall] at hlossy
  obtain ⟨hcut, hmore, ip, hlisted⟩ := hlossy
  have houtside : inNets st.reps.allow ip = false := Bool.eq_false_iff.mpr hlisted
  obtain ⟨st', hst', hrun⟩ :=
    (counts_fresh hfresh).run (st.reps.autoBanThreshold - 1) houtside (by omega) hfits
  have hpos : 0 < 0 + (st.reps.autoBanThreshold - 1) := by omega
  have hbans := hst'.bans (1 + st.reps.sweepSecs) houtside (by omega) hpos hfits (by omega)
  have hforgives := hst'.forgives (1 + st.reps.sweepSecs) (by omega) (by omega)
  have hroom : Roomy st (unswept (cutShort st.reps ip)) := by
    rw [unswept_cutShort]
    exact (hrun _).2 (hst'.room_offend _)
  intro hunobservable
  have heq := hunobservable (cutShort st.reps ip) cutShort_clocks cutShort_times hroom
  rw [unswept_cutShort, (hrun _).1, cutShort, (hrun _).1] at heq
  have hhead : ((Query.recordOffence ip).reply (1 + st.reps.sweepSecs)
        ⟨st'.reps.gc (1 + st.reps.sweepSecs), st'.disk⟩).1
      = ((Query.recordOffence ip).reply (1 + st.reps.sweepSecs) st').1 :=
    (List.cons.inj (List.append_cancel_left heq)).1
  rw [hbans, hforgives] at hhead
  cases hhead

/-! ## Every configuration -/

/-- The limits are those of the configuration. -/
lemma limits_of_new {crates : Crates} {cfg : ReputationCfg} (h : Reputations.new crates cfg = some r) :
    r.autoBanThreshold = cfg.autoBanThresholdHits ∧ r.windowSecs = cfg.autoBanWindowSecs
      ∧ r.state = ∅ := by
  simp only [Reputations.new, Option.bind_eq_bind, Option.bind_eq_some_iff] at h
  obtain ⟨allow, -, deny, -, hr⟩ := h
  cases hr
  exact ⟨rfl, rfl, rfl⟩

/-- Sweeps of a new ban table are unobservable iff two windows fit in 64 bits, or every offence bans,
or no address can be banned. Then they are unobservable from any table with these limits on. -/
theorem gc_unobservable_iff (crates : Crates) (cfg : ReputationCfg)
    (built : Reputations.new crates cfg = some r) (disk : Disk)
    (window : 1 ≤ cfg.autoBanWindowSecs) (window_fits : cfg.autoBanWindowSecs < 2 ^ 64)
    (threshold_fits : cfg.autoBanThresholdHits ≤ u32Max) :
    (Unobservable ⟨r, disk⟩ ↔ cfg.autoBanWindowSecs < 2 ^ 63 ∨ cfg.autoBanThresholdHits ≤ 1
        ∨ ∀ ip, inNets r.allow ip = true)
      ∧ (cfg.autoBanWindowSecs < 2 ^ 63 ∨ cfg.autoBanThresholdHits ≤ 1
          ∨ (∀ ip, inNets r.allow ip = true) →
        ∀ st : BanStore, SameLimits r st.reps → Unobservable st) := by
  obtain ⟨hthreshold, hwindow, hfresh⟩ := limits_of_new built
  have hsafe : SweepSafe r ↔ cfg.autoBanWindowSecs < 2 ^ 63 ∨ cfg.autoBanThresholdHits ≤ 1
      ∨ ∀ ip, inNets r.allow ip = true := by
    rw [SweepSafe, sweepSecs, hthreshold, hwindow]
    refine or_congr_left ?_
    omega
  have hall : SweepSafe r → ∀ st : BanStore, SameLimits r st.reps → Unobservable st :=
    fun hs st hlimits => unobservable_of_safe (hs.congr hlimits)
  rw [← hsafe]
  refine ⟨⟨fun hunobservable => ?_, fun hs => hall hs ⟨r, disk⟩ .refl⟩, hall⟩
  by_contra hlossy
  exact observable_of_unsafe hfresh hlossy (hwindow ▸ window_fits) (hthreshold ▸ threshold_fits)
    hunobservable

/-- A window of `2 ^ 63` seconds and a ban for two offences. -/
def endlessStore : BanStore := ⟨⟨[], [], 2, 2 ^ 63, 3600, ∅, none⟩, fun _ => none⟩

/-- Two offences of one second, with a sweep between them. -/
def sweptPair : List (Nat × Event) :=
  [(1, .query (.recordOffence offender)), (1, .gc), (1, .query (.recordOffence offender))]

-- the sweep drops the entry, so that the second offence is the first of a window
example : replies endlessStore sweptPair = [.flag false, .flag false]
    ∧ replies endlessStore (unswept sweptPair) = [.flag false, .flag true] := by decide

/-- No sweep is observable, of a new ban table or of any other with its limits. A configuration file
gives a window below `2 ^ 63`. -/
theorem gc_unobservable (crates : Crates) (cfg : ReputationCfg)
    (built : Reputations.new crates cfg = some r) (window : 1 ≤ cfg.autoBanWindowSecs)
    (loaded : cfg.autoBanWindowSecs < 2 ^ 63) (threshold_fits : cfg.autoBanThresholdHits ≤ u32Max)
    (st : BanStore) (limits : SameLimits r st.reps) : Unobservable st := by
  have hfits : cfg.autoBanWindowSecs < 2 ^ 64 := loaded.trans (Nat.pow_lt_pow_right (by decide) (by decide))
  exact (gc_unobservable_iff crates cfg built st.disk window hfits threshold_fits).2 (.inl loaded) st
    limits

/-- The default configuration, with an entry in the table whose ban is over. -/
theorem default_gc_unobservable :
    Unobservable ⟨⟨[], [], 5, 60, 3600,
      (∅ : HashMap IpAddr HitState).insert offender ⟨5, 1000, 4600⟩, none⟩, fun _ => none⟩ :=
  gc_unobservable idleCrates {} rfl (by decide) (by decide) (by decide) _ ⟨rfl, rfl, rfl, rfl⟩

end Reputations

end Waf
