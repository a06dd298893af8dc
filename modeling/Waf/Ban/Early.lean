import Waf.Ban.Bursts

/-!
# Bans that come too early

The hits of an entry are offences of its address, made since the window of the entry began and since
the last unban (`Counts`); a forced ban counts as many as the threshold. The exception is an entry that
a restart has read from the ban file: it begins a window with the hits it had when it was written.

A store with a ban file never returns from a call that installs a ban, since the call waits for its own
guard (`recordOffence_returns`); a store without one has read no entries. So no offence returns that it
installed a ban before there are enough of them (`not_early`). Were the flush to return, it would in
windows that begin with a restart, and `not_early_iff` says in which.
-/

namespace Waf
open Lib

namespace Reputations
open BanStore (Op)

/-- An operation of the store, or a fresh store that reads the ban file. -/
inductive Act where
  | op (o : Op)
  | restart

/-- A fresh store with the limits of another one. -/
def fresh (r : Reputations) : Reputations := { r with state := ∅, persistPath := none }

def Act.apply (path : Str) (now : Nat) (st : BanStore) : Act → BanStore
  | .op o => o.apply now st
  | .restart => ⟨st.reps.fresh.bindPersistFile st.disk path now, st.disk⟩

/-- The store after an action with its locks. An operation that waits for its own guard has written its
entry by then, and no file. -/
def Act.applyLocked {n : Nat} (shardOf : IpAddr → Fin n) (path : Str) (now : Nat) (st : BanStore) :
    Act → BanStore
  | .op o =>
    match o.call shardOf now ⟨st, []⟩ with
    | .ok (_, t) => t.data
    | .error _ => ⟨(o.apply now st).reps, st.disk⟩
  | .restart => ⟨st.reps.fresh.bindPersistFile st.disk path now, st.disk⟩

/-- An offence begins a window of an entry. -/
def beginsWindow (r : Reputations) (ip : IpAddr) (now : Nat) : Prop :=
  (r.entry ip).firstHit = 0 ∨ r.windowSecs < now - (r.entry ip).firstHit

instance {r : Reputations} {ip : IpAddr} {now : Nat} : Decidable (r.beginsWindow ip now) :=
  inferInstanceAs (Decidable (_ ∨ _))

/-- A store, the offences of an address since its last unban with their number, and whether the window
of its entry began with a restart. -/
structure Watched where
  store : BanStore
  past : List (Nat × Nat) := []
  loaded : Bool := false

namespace Watched

/-- The offences, and whether the window began with a restart, after an action. -/
def note (ip : IpAddr) (w : Watched) (now : Nat) (store : BanStore) : Act → Watched
  | .op (.recordOffence addr) =>
    if addr = ip then
      ⟨store, w.past ++ [(now, 1)],
        w.loaded && !(w.store.reps.tracked ip && decide (w.store.reps.beginsWindow ip now))⟩
    else ⟨store, w.past, w.loaded⟩
  | .op (.forceBan addr _) =>
    if addr = ip then ⟨store, w.past ++ [(now, w.store.reps.autoBanThreshold)], w.loaded⟩
    else ⟨store, w.past, w.loaded⟩
  | .op (.unban addr) => if addr = ip then ⟨store, [], false⟩ else ⟨store, w.past, w.loaded⟩
  | .op _ => ⟨store, w.past, w.loaded⟩
  | .restart => ⟨store, w.past, (store.reps.state.lookup ip).isSome⟩

def step (path : Str) (ip : IpAddr) (w : Watched) (a : Nat × Act) : Watched :=
  w.note ip a.1 (a.2.apply path a.1 w.store) a.2

def run (path : Str) (ip : IpAddr) (w : Watched) (acts : List (Nat × Act)) : Watched :=
  acts.foldl (step path ip) w

section
variable {n : Nat} (shardOf : IpAddr → Fin n)

def stepLocked (path : Str) (ip : IpAddr) (w : Watched) (a : Nat × Act) : Watched :=
  w.note ip a.1 (a.2.applyLocked shardOf path a.1 w.store) a.2

/-- A run with its locks. After a call that waits for its own guard the others go on, as if that guard
did not keep them waiting. -/
def runLocked (path : Str) (ip : IpAddr) (w : Watched) (acts : List (Nat × Act)) : Watched :=
  acts.foldl (stepLocked shardOf path ip) w

end

/-- The number of offences from a time on. -/
def since (w : Watched) (t : Nat) : Nat := ((w.past.filter fun o => t ≤ o.1).map Prod.snd).sum

/-- The number of offences that are at most `windowSecs` old, with one more. -/
def recent (w : Watched) (now : Nat) : Nat := w.since (now - w.store.reps.windowSecs) + 1

/-- The hits of the entry are offences of its window. -/
structure Counts (ip : IpAddr) (w : Watched) (clock : Nat) : Prop where
  hits : w.loaded = false → (w.store.reps.entry ip).firstHit ≠ 0 →
    (w.store.reps.entry ip).hits ≤ w.since (w.store.reps.entry ip).firstHit
  firstHit : (w.store.reps.entry ip).firstHit ≤ clock

/-- An offence that installs a ban is one of enough. -/
def Due (ip : IpAddr) (w : Watched) (now : Nat) : Prop :=
  (w.store.reps.recordOffence w.store.disk ip now).1 = true →
    w.store.reps.autoBanThreshold ≤ w.recent now

/-- In a window that began with a restart, a ban still runs, the hits stay below the threshold, or
there are enough offences. -/
def Settled (ip : IpAddr) (w : Watched) (now : Nat) : Prop :=
  w.loaded = true → w.store.reps.tracked ip = true → ¬ w.store.reps.beginsWindow ip now →
    now < (w.store.reps.entry ip).banUntil
      ∨ satAdd32 (w.store.reps.entry ip).hits 1 < w.store.reps.autoBanThreshold
      ∨ w.store.reps.autoBanThreshold ≤ w.recent now

variable {path : Str} {ip addr : IpAddr} {w : Watched} {now clock t : Nat} {op : Op} {a : Act}
  {acts : List (Nat × Act)}

/-- A ban is installed iff the address is tracked and the entry says so. -/
lemma recordOffence_fst {r : Reputations} {disk : Disk} :
    (r.recordOffence disk ip now).1 = true ↔ r.tracked ip = true ∧ r.bansNow ip now := by
  cases ht : r.tracked ip with
  | false =>
    rw [recordOffence_untracked ht]
    exact iff_of_false Bool.false_ne_true fun h => Bool.false_ne_true h.1
  | true =>
    by_cases hb : r.bansNow ip now
    case pos =>
      rw [recordOffence_ban ht hb]
      exact iff_of_true rfl ⟨rfl, hb⟩
    case neg =>
      rw [recordOffence_note ht hb]
      exact iff_of_false Bool.false_ne_true fun h => hb h.2

/-- The hits start anew with a window. -/
lemma nextHits_eq {r : Reputations} : (r.entry ip).nextHits r.windowSecs now
    = if r.beginsWindow ip now then 1 else satAdd32 (r.entry ip).hits 1 := rfl

lemma firstHit_offend {s : HitState} {windowSecs : Nat} : (s.offend windowSecs now).firstHit
    = if s.firstHit = 0 ∨ windowSecs < now - s.firstHit then now else s.firstHit := by
  by_cases h : s.firstHit = 0 ∨ windowSecs < now - s.firstHit
  case pos => simp only [HitState.offend, if_pos h]
  case neg => simp only [HitState.offend, if_neg h]

/-- Fewer offences are counted since a later time. -/
lemma since_anti {t' : Nat} (h : t' ≤ t) : w.since t ≤ w.since t' := by
  unfold since
  induction w.past with
  | nil => exact le_rfl
  | cons o past ih =>
    rw [List.filter_cons, List.filter_cons]
    split
    case isTrue ht =>
      have ht' : decide (t' ≤ o.1) = true := decide_eq_true (h.trans (of_decide_eq_true ht))
      rw [if_pos ht', List.map_cons, List.map_cons, List.sum_cons, List.sum_cons]
      exact Nat.add_le_add_left ih _
    case isFalse =>
      split
      case isTrue =>
        rw [List.map_cons, List.sum_cons]
        exact ih.trans (Nat.le_add_left _ _)
      case isFalse => exact ih

/-- An offence counts for the times up to its own. -/
lemma since_append {store : BanStore} {past : List (Nat × Nat)} {loaded : Bool} {n : Nat}
    (ht : t ≤ now) : since ⟨store, past ++ [(now, n)], loaded⟩ t
      = ((past.filter fun o => t ≤ o.1).map Prod.snd).sum + n := by
  rw [since, List.filter_append, List.map_append, List.sum_append]
  have hlast : [(now, n)].filter (fun o => decide (t ≤ o.1)) = [(now, n)] :=
    List.filter_eq_self.mpr fun o ho => by rw [List.mem_singleton.mp ho]; exact decide_eq_true ht
  rw [hlast]
  rfl

lemma satAdd32_le {a b : Nat} : satAdd32 a b ≤ a + b := Nat.min_le_left ..

/-- Bans are due iff those in windows that began with a restart are settled. -/
lemma due_iff (h : Counts ip w clock) : w.Due ip now ↔ w.Settled ip now := by
  constructor
  · intro hdue _ htracked hbegins
    by_cases hruns : now < (w.store.reps.entry ip).banUntil
    case pos => exact .inl hruns
    case neg =>
      by_cases hbelow : satAdd32 (w.store.reps.entry ip).hits 1 < w.store.reps.autoBanThreshold
      case pos => exact .inr (.inl hbelow)
      case neg =>
        refine .inr (.inr (hdue (recordOffence_fst.mpr ⟨htracked, ?_, Nat.not_lt.mp hruns⟩)))
        rw [nextHits_eq, if_neg hbegins]
        exact Nat.not_lt.mp hbelow
  · intro hsettled htrue
    obtain ⟨htracked, hhits, hover⟩ := recordOffence_fst.mp htrue
    rw [nextHits_eq] at hhits
    by_cases hbegins : w.store.reps.beginsWindow ip now
    case pos =>
      rw [if_pos hbegins] at hhits
      exact hhits.trans (Nat.le_add_left _ _)
    case neg =>
      rw [if_neg hbegins] at hhits
      cases hloaded : w.loaded with
      | true =>
        obtain hruns | hbelow | henough := hsettled hloaded htracked hbegins
        · exact absurd hover (Nat.not_le.mpr hruns)
        · exact absurd hhits (Nat.not_le.mpr hbelow)
        · exact henough
      | false =>
        obtain ⟨hfirst, hlive⟩ := not_or.mp hbegins
        have hcounts := h.hits hloaded hfirst
        have hsince : w.since (w.store.reps.entry ip).firstHit
            ≤ w.since (now - w.store.reps.windowSecs) := since_anti (by omega)
        exact hhits.trans (satAdd32_le.trans (Nat.add_le_add_right (hcounts.trans hsince) 1))

/-! ## One action -/

/-- Operations on other addresses keep the count. -/
lemma counts_elsewhere (op : Op) (h : Counts ip w clock) (hnow : clock ≤ now)
    (helse : Elsewhere ip op) :
    Counts ip ⟨op.apply now w.store, w.past, w.loaded⟩ now := by
  have hentry : (op.apply now w.store).reps.entry ip = w.store.reps.entry ip :=
    entry_elsewhere helse
  refine ⟨?_, ?_⟩
  · show _ → ((op.apply now w.store).reps.entry ip).firstHit ≠ 0
      → ((op.apply now w.store).reps.entry ip).hits
        ≤ w.since ((op.apply now w.store).reps.entry ip).firstHit
    rw [hentry]
    exact h.hits
  · show ((op.apply now w.store).reps.entry ip).firstHit ≤ now
    rw [hentry]
    exact h.firstHit.trans hnow

/-- An offence is counted in the window of the entry. -/
lemma counts_recordOffence (h : Counts ip w clock) (hnow : clock ≤ now) :
    Counts ip (w.step path ip (now, .op (.recordOffence ip))) now := by
  have hstep : w.step path ip (now, .op (.recordOffence ip))
      = ⟨⟨(w.store.reps.recordOffence w.store.disk ip now).2.1,
          (w.store.reps.recordOffence w.store.disk ip now).2.2⟩, w.past ++ [(now, 1)],
        w.loaded && !(w.store.reps.tracked ip && decide (w.store.reps.beginsWindow ip now))⟩ :=
    if_pos rfl
  rw [hstep]
  have hle := h.firstHit.trans hnow
  cases ht : w.store.reps.tracked ip with
  | false =>
    rw [recordOffence_untracked ht]
    refine ⟨fun hloaded hfirst => ?_, hle⟩
    rw [Bool.false_and, Bool.not_false, Bool.and_true] at hloaded
    rw [since_append hle]
    exact (h.hits hloaded hfirst).trans (Nat.le_add_right _ _)
  | true =>
    -- what the writer leaves in the entry
    have hentry : ∀ s, s.hits = ((w.store.reps.entry ip).offend w.store.reps.windowSecs now).hits →
        s.firstHit = ((w.store.reps.entry ip).offend w.store.reps.windowSecs now).firstHit →
        ∀ disk, Counts ip ⟨⟨w.store.reps.setEntry ip s, disk⟩, w.past ++ [(now, 1)],
          w.loaded && !(true && decide (w.store.reps.beginsWindow ip now))⟩ now := by
      intro s hs hf disk
      rw [HitState.offend_hits, nextHits_eq] at hs
      have hfirst : s.firstHit
          = if w.store.reps.beginsWindow ip now then now else (w.store.reps.entry ip).firstHit := by
        rw [hf, firstHit_offend]
        rfl
      refine ⟨?_, ?_⟩
      · show _ → ((w.store.reps.setEntry ip s).entry ip).firstHit ≠ 0 →
          ((w.store.reps.setEntry ip s).entry ip).hits ≤ _
        rw [entry_setEntry, hs]
        intro hloaded hne
        -- a new window starts the count afresh, an old one goes on
        by_cases hbegins : w.store.reps.beginsWindow ip now
        case pos =>
          rw [if_pos hbegins] at hfirst ⊢
          rw [hfirst, since_append le_rfl]
          exact Nat.le_add_left _ _
        case neg =>
          rw [if_neg hbegins] at hfirst ⊢
          rw [decide_eq_false hbegins, Bool.and_false, Bool.not_false, Bool.and_true] at hloaded
          rw [hfirst] at hne ⊢
          rw [since_append hle]
          exact satAdd32_le.trans (Nat.add_le_add_right (h.hits hloaded hne) 1)
      · show ((w.store.reps.setEntry ip s).entry ip).firstHit ≤ now
        rw [entry_setEntry, hfirst]
        split
        case isTrue => exact le_rfl
        case isFalse => exact hle
    by_cases hb : w.store.reps.bansNow ip now
    case pos =>
      rw [recordOffence_ban ht hb]
      exact hentry (w.store.reps.newBan ip now) rfl rfl _
    case neg =>
      rw [recordOffence_note ht hb]
      exact hentry _ rfl rfl _

/-- A forced ban counts as many as the threshold. -/
lemma counts_forceBan {secs : Nat} (h : Counts ip w clock) (hnow : clock ≤ now) :
    Counts ip (w.step path ip (now, .op (.forceBan ip secs))) now := by
  have hstep : w.step path ip (now, .op (.forceBan ip secs))
      = ⟨⟨(w.store.reps.forceBan w.store.disk ip secs now).2.1,
          (w.store.reps.forceBan w.store.disk ip secs now).2.2⟩,
        w.past ++ [(now, w.store.reps.autoBanThreshold)], w.loaded⟩ := if_pos rfl
  have hle := h.firstHit.trans hnow
  have hfirst : (w.store.reps.forced ip secs now).firstHit = (w.store.reps.entry ip).firstHit := by
    simp only [forced]
    split
    case isTrue => rfl
    case isFalse => rfl
  have hhits : (w.store.reps.forced ip secs now).hits
      = satAdd32 (w.store.reps.entry ip).hits w.store.reps.autoBanThreshold := by
    simp only [forced]
    split
    case isTrue => rfl
    case isFalse => rfl
  rw [hstep]
  cases ht : w.store.reps.tracked ip with
  | false =>
    rw [forceBan_untracked ht]
    refine ⟨fun hloaded hne => ?_, hle⟩
    rw [since_append hle]
    exact (h.hits hloaded hne).trans (Nat.le_add_right _ _)
  | true =>
    rw [forceBan_tracked ht]
    refine ⟨?_, ?_⟩
    · show _ → ((w.store.reps.setEntry ip _).entry ip).firstHit ≠ 0 →
        ((w.store.reps.setEntry ip _).entry ip).hits ≤ _
      rw [entry_setEntry, hfirst, hhits]
      intro hloaded hne
      rw [since_append hle]
      exact satAdd32_le.trans (Nat.add_le_add_right (h.hits hloaded hne) _)
    · show ((w.store.reps.setEntry ip _).entry ip).firstHit ≤ now
      rw [entry_setEntry, hfirst]
      exact hle

/-- An unban forgets the hits of an entry, not the beginning of its window. -/
lemma entry_unban {r : Reputations} : ((r.unban ip).entry ip).hits = 0
    ∧ ((r.unban ip).entry ip).firstHit = (r.entry ip).firstHit := by
  rw [entry, entry, unban, HashMap.lookup_modify]
  cases r.state.lookup ip with
  | none => exact ⟨rfl, rfl⟩
  | some s => exact ⟨rfl, rfl⟩

lemma counts_unban (h : Counts ip w clock) (hnow : clock ≤ now) :
    Counts ip (w.step path ip (now, .op (.unban ip))) now := by
  have hstep : w.step path ip (now, .op (.unban ip))
      = ⟨⟨w.store.reps.unban ip, w.store.disk⟩, [], false⟩ := if_pos rfl
  obtain ⟨hhits, hfirst⟩ : ((w.store.reps.unban ip).entry ip).hits = 0
      ∧ ((w.store.reps.unban ip).entry ip).firstHit = (w.store.reps.entry ip).firstHit := entry_unban
  rw [hstep]
  refine ⟨fun _ _ => ?_, ?_⟩
  · exact hhits.trans_le (Nat.zero_le _)
  · exact hfirst.trans_le (h.firstHit.trans hnow)

/-- A sweep keeps an entry or begins with none. -/
lemma counts_gc (h : Counts ip w clock) (hnow : clock ≤ now) :
    Counts ip (w.step path ip (now, .op .gc)) now := by
  show Counts ip ⟨⟨w.store.reps.gc now, w.store.disk⟩, w.past, w.loaded⟩ now
  refine ⟨?_, ?_⟩
  · show _ → ((w.store.reps.gc now).entry ip).firstHit ≠ 0 →
      ((w.store.reps.gc now).entry ip).hits ≤ w.since ((w.store.reps.gc now).entry ip).firstHit
    rw [entry_gc]
    split
    case isTrue => exact h.hits
    case isFalse => exact fun _ hne => absurd rfl hne
  · show ((w.store.reps.gc now).entry ip).firstHit ≤ now
    rw [entry_gc]
    split
    case isTrue => exact h.firstHit.trans hnow
    case isFalse => exact Nat.zero_le now

/-- What is read from a ban file begins its window at the time of reading. -/
lemma firstHit_load {file : List PersistedBan} {state : HashMap IpAddr HitState} {s : HitState}
    (hstate : ∀ s, state.lookup ip = some s → s.firstHit = now)
    (hs : (file.foldl (load now) state).lookup ip = some s) : s.firstHit = now := by
  induction file generalizing state with
  | nil => exact hstate s hs
  | cons b file ih =>
    refine ih (fun s' hs' => ?_) hs
    rw [load] at hs'
    split at hs'
    case isTrue =>
      by_cases e : ip = b.ip
      case pos =>
        rw [e, AList.lookup_insert] at hs'
        obtain rfl := Option.some.inj hs'
        rfl
      case neg =>
        rw [AList.lookup_insert_ne e] at hs'
        exact hstate s' hs'
    case isFalse => exact hstate s' hs'

/-- A window that began with a restart begins at its time. -/
lemma firstHit_restart {r : Reputations} {disk : Disk} {s : HitState}
    (hs : (r.fresh.bindPersistFile disk path now).state.lookup ip = some s) : s.firstHit = now := by
  have hnone : ∀ s, r.fresh.state.lookup ip = some s → s.firstHit = now := nofun
  rw [bindPersistFile] at hs
  cases hd : disk path with
  | none =>
    rw [hd] at hs
    exact hnone s hs
  | some file =>
    rw [hd] at hs
    exact firstHit_load hnone hs

/-- A restart keeps the count, which says nothing of an entry that it has read. -/
lemma counts_restart : Counts ip (w.step path ip (now, .restart)) now := by
  have hstep : w.step path ip (now, .restart)
      = ⟨⟨w.store.reps.fresh.bindPersistFile w.store.disk path now, w.store.disk⟩, w.past,
        ((w.store.reps.fresh.bindPersistFile w.store.disk path now).state.lookup ip).isSome⟩ := rfl
  rw [hstep]
  cases hentry : (w.store.reps.fresh.bindPersistFile w.store.disk path now).state.lookup ip with
  | none =>
    have hfirst : ((w.store.reps.fresh.bindPersistFile w.store.disk path now).entry ip).firstHit
        = 0 := by
      rw [entry, hentry]
      rfl
    exact ⟨fun _ hne => absurd hfirst hne, hfirst.trans_le (Nat.zero_le now)⟩
  | some s =>
    have hfirst : ((w.store.reps.fresh.bindPersistFile w.store.disk path now).entry ip).firstHit
        = now := by
      rw [entry, hentry]
      exact firstHit_restart hentry
    exact ⟨fun hloaded => Bool.noConfusion hloaded, hfirst.le⟩

/-- Every action keeps the count. -/
lemma counts_step (h : Counts ip w clock) (hnow : clock ≤ now) :
    Counts ip (w.step path ip (now, a)) now := by
  cases a with
  | restart => exact counts_restart
  | op op =>
    cases op with
    | recordOffence addr =>
      by_cases e : addr = ip
      case pos => exact e ▸ counts_recordOffence (e ▸ h) hnow
      case neg =>
        have hstep : w.step path ip (now, .op (.recordOffence addr))
            = ⟨Op.apply now w.store (.recordOffence addr), w.past, w.loaded⟩ := if_neg e
        rw [hstep]
        exact counts_elsewhere _ h hnow e
    | forceBan addr secs =>
      by_cases e : addr = ip
      case pos => exact e ▸ counts_forceBan (e ▸ h) hnow
      case neg =>
        have hstep : w.step path ip (now, .op (.forceBan addr secs))
            = ⟨Op.apply now w.store (.forceBan addr secs), w.past, w.loaded⟩ := if_neg e
        rw [hstep]
        exact counts_elsewhere _ h hnow e
    | unban addr =>
      by_cases e : addr = ip
      case pos => exact e ▸ counts_unban (e ▸ h) hnow
      case neg =>
        have hstep : w.step path ip (now, .op (.unban addr))
            = ⟨Op.apply now w.store (.unban addr), w.past, w.loaded⟩ := if_neg e
        rw [hstep]
        exact counts_elsewhere _ h hnow e
    | gc => exact counts_gc h hnow
    | isBanned addr => exact counts_elsewhere (.isBanned addr) h hnow trivial
    | persist => exact counts_elsewhere .persist h hnow trivial
    | banned => exact counts_elsewhere .banned h hnow trivial

/-! ## Runs -/

/-- What steps that count keep in a run. -/
lemma counts_foldl {step : Watched → Nat × Act → Watched}
    (hstep : ∀ {w clock a}, Counts ip w clock → clock ≤ a.1 → Counts ip (step w a) a.1)
    (empty : w.store.reps.state = ∅) (clock : (acts.map Prod.fst).Pairwise (· ≤ ·)) :
    ∃ last, Counts ip (acts.foldl step w) last ∧ ∀ t, (∀ b ∈ acts, b.1 ≤ t) → last ≤ t := by
  induction acts using List.reverseRecOn with
  | nil =>
    have hentry : w.store.reps.entry ip = {} := by rw [entry, empty]; rfl
    have hfirst : (w.store.reps.entry ip).firstHit = 0 := by rw [hentry]
    exact ⟨0, ⟨fun _ hne => absurd hfirst hne, hfirst.le⟩, fun t _ => Nat.zero_le t⟩
  | append_singleton acts b ih =>
    rw [List.map_append, List.pairwise_append] at clock
    obtain ⟨last, hcounts, hlast⟩ := ih clock.1
    have hnow : last ≤ b.1 := hlast b.1 fun b' hb =>
      clock.2.2 _ (List.mem_map_of_mem hb) _ (List.mem_singleton.mpr rfl)
    rw [List.foldl_concat]
    exact ⟨b.1, hstep hcounts hnow, fun t ht => ht b (List.mem_append_right _ (.head _))⟩

lemma counts_run (empty : w.store.reps.state = ∅) (clock : (acts.map Prod.fst).Pairwise (· ≤ ·)) :
    ∃ last, Counts ip (w.run path ip acts) last ∧ ∀ t, (∀ b ∈ acts, b.1 ≤ t) → last ≤ t :=
  counts_foldl counts_step empty clock

/-! ## Runs with locks -/

section
variable {n : Nat} {shardOf : IpAddr → Fin n} {st : BanStore}

/-- A call that returns that it installed a ban had no file to flush to. -/
lemma recordOffence_returns {t : Thread (Lock n) BanStore}
    (h : BanStore.recordOffence shardOf ip now ⟨st, []⟩ = .ok (true, t)) :
    st.reps.persistPath = none ∧ (st.reps.recordOffence st.disk ip now).1 = true := by
  rw [BanStore.recordOffence_path] at h
  split at h
  case isTrue hb =>
    refine ⟨?_, recordOffence_fst.mpr hb⟩
    by_contra hbound
    have hstuck : BanStore.flush shardOf (shardOf ip) now
        ⟨⟨st.reps.setEntry ip (st.reps.newBan ip now), st.disk⟩, [(.shard (shardOf ip), .exclusive)]⟩
          = .error (.shard (shardOf ip)) :=
      BanStore.flush_stuck (Option.isSome_iff_ne_none.mpr hbound)
    rw [hstuck] at h
    cases h
  case isFalse hb =>
    have hfst : (st.reps.recordOffence st.disk ip now).1 = true :=
      congrArg Prod.fst (Except.ok.inj h)
    exact absurd (recordOffence_fst.mp hfst) hb

/-- With or without its locks, an action leaves the same store in memory. -/
lemma applyLocked_reps : (a.applyLocked shardOf path now st).reps = (a.apply path now st).reps := by
  cases a with
  | restart => rfl
  | op o =>
    rw [Act.applyLocked]
    by_cases hf : o.Flushes now st
    case pos =>
      obtain ⟨i, hi⟩ : ∃ i, o.call shardOf now ⟨st, []⟩ = .error (.shard i) := Op.call_stuck hf
      rw [hi]
      rfl
    case neg =>
      rw [Op.call_run hf]
      rfl

/-- What is noted depends on the store in memory alone. -/
lemma note_eq {st' : BanStore} (h : st'.reps = st.reps) :
    w.note ip now st' a = { w.note ip now st a with store := st' } := by
  cases a with
  | restart => rw [note, note, h]
  | op o =>
    cases o with
    | recordOffence addr =>
      rw [note, note]
      split
      case isTrue => rfl
      case isFalse => rfl
    | forceBan addr secs =>
      rw [note, note]
      split
      case isTrue => rfl
      case isFalse => rfl
    | unban addr =>
      rw [note, note]
      split
      case isTrue => rfl
      case isFalse => rfl
    | isBanned | gc | persist | banned => rfl

/-- Noting an action changes nothing else. -/
lemma note_store : (w.note ip now st a).store = st := by
  cases a with
  | restart => rfl
  | op o =>
    cases o with
    | recordOffence addr => exact (apply_ite store ..).trans (ite_self st)
    | forceBan addr secs => exact (apply_ite store ..).trans (ite_self st)
    | unban addr => exact (apply_ite store ..).trans (ite_self st)
    | isBanned | gc | persist | banned => rfl

/-- An action with its locks keeps the count. -/
lemma counts_stepLocked {b : Nat × Act} (h : Counts ip w clock) (hnow : clock ≤ b.1) :
    Counts ip (w.stepLocked shardOf path ip b) b.1 := by
  have hreps : (b.2.applyLocked shardOf path b.1 w.store).reps = (w.step path ip b).store.reps := by
    rw [step, note_store]
    exact applyLocked_reps
  have hcounts : Counts ip (w.step path ip b) b.1 := counts_step h hnow
  have hstep : w.stepLocked shardOf path ip b
      = { w.step path ip b with store := b.2.applyLocked shardOf path b.1 w.store } :=
    note_eq applyLocked_reps
  rw [hstep]
  refine ⟨?_, ?_⟩
  · show _ → ((b.2.applyLocked shardOf path b.1 w.store).reps.entry ip).firstHit ≠ 0 →
      ((b.2.applyLocked shardOf path b.1 w.store).reps.entry ip).hits
        ≤ since (w.step path ip b) ((b.2.applyLocked shardOf path b.1 w.store).reps.entry ip).firstHit
    rw [hreps]
    exact hcounts.hits
  · show ((b.2.applyLocked shardOf path b.1 w.store).reps.entry ip).firstHit ≤ b.1
    rw [hreps]
    exact hcounts.firstHit

/-- A store without a ban file has read no entries. -/
def Unfiled (w : Watched) : Prop := w.store.reps.persistPath = none → w.loaded = false

/-- Only a restart binds a ban file. -/
lemma persistPath_apply {o : Op} :
    (o.apply now st).reps.persistPath = st.reps.persistPath := by
  have hset : ∀ {r : Reputations} {addr : IpAddr}, (r = st.reps ∨ ∃ s, r = st.reps.setEntry addr s) →
      r.persistPath = st.reps.persistPath := by
    rintro r addr (rfl | ⟨s, rfl⟩)
    · rfl
    · rfl
  cases o with
  | recordOffence => exact hset recordOffence_writes
  | forceBan => exact hset forceBan_writes
  | unban | gc | persist | isBanned | banned => rfl

/-- No operation makes an entry one that was read from a file. -/
lemma loaded_note {o : Op} (h : w.loaded = false) : (w.note ip now st (.op o)).loaded = false := by
  cases o with
  | recordOffence addr =>
    rw [note]
    split
    case isTrue =>
      show (w.loaded && _) = false
      rw [h, Bool.false_and]
    case isFalse => exact h
  | forceBan addr secs =>
    rw [note]
    split
    case isTrue => exact h
    case isFalse => exact h
  | unban addr =>
    rw [note]
    split
    case isTrue => rfl
    case isFalse => exact h
  | isBanned | gc | persist | banned => exact h

/-- A store that has read entries has a ban file. -/
lemma unfiled_stepLocked {b : Nat × Act} (h : Unfiled w) :
    Unfiled (w.stepLocked shardOf path ip b) := by
  obtain ⟨now, a⟩ := b
  intro hpath
  rw [stepLocked, note_store, applyLocked_reps] at hpath
  cases a with
  | restart => cases hpath
  | op o => exact loaded_note (h (persistPath_apply.symm.trans hpath))

lemma unfiled_runLocked (h : Unfiled w) : Unfiled (w.runLocked shardOf path ip acts) := by
  induction acts using List.reverseRecOn with
  | nil => exact h
  | append_singleton acts b ih =>
    rw [runLocked, List.foldl_concat]
    exact unfiled_stepLocked ih

end

/-- No one is banned early: in every run from an empty table, a call of `record_offence` that returns
`true` is one of enough offences since the last unban and in the last window. -/
theorem not_early {n : Nat} (shardOf : IpAddr → Fin n) (path : Str) (ip : IpAddr) (st : BanStore)
    (empty : st.reps.state = ∅) (clock : (acts.map Prod.fst).Pairwise (· ≤ ·)) :
    ∀ pre now t, pre ++ [(now, .op (.recordOffence ip))] <+: acts →
      BanStore.recordOffence shardOf ip now ⟨(runLocked shardOf path ip ⟨st, [], false⟩ pre).store, []⟩
          = .ok (true, t) →
        (runLocked shardOf path ip ⟨st, [], false⟩ pre).store.reps.autoBanThreshold
          ≤ (runLocked shardOf path ip ⟨st, [], false⟩ pre).recent now := by
  intro pre now t hp hreturns
  have hpre : pre <+: acts := (List.prefix_append _ _).trans hp
  have hrun : ∃ last, Counts ip (runLocked shardOf path ip ⟨st, [], false⟩ pre) last ∧ _ :=
    counts_foldl counts_stepLocked empty (clock.sublist (hpre.sublist.map Prod.fst))
  obtain ⟨last, hcounts, -⟩ := hrun
  obtain ⟨hpath, hbanned⟩ := recordOffence_returns hreturns
  -- without a ban file the entry was not read from one
  have hloaded : (runLocked shardOf path ip ⟨st, [], false⟩ pre).loaded = false :=
    unfiled_runLocked (fun _ => rfl) hpath
  have hdue : Due ip (runLocked shardOf path ip ⟨st, [], false⟩ pre) now :=
    (due_iff hcounts).mpr fun h => absurd (hloaded.symm.trans h) Bool.false_ne_true
  exact hdue hbanned

/-- An offence that an unban forgets, and three more with a sweep in between. -/
def forgiven : List (Nat × Act) :=
  [(1000, .op (.recordOffence offender)), (1001, .op (.unban offender)),
    (1002, .op (.recordOffence offender)), (1003, .op .gc), (1004, .op (.recordOffence offender)),
    (1005, .op (.recordOffence offender))]

/-- All addresses in the first of sixty-four shards. -/
def firstShard (_ : IpAddr) : Fin 64 := 0

/-- The state before the last of them. -/
def lastForgiven : Watched :=
  runLocked firstShard "bans.json" offender ⟨minuteStore, [], false⟩ (forgiven.take 5)

/-- The last offence returns that it installed a ban. -/
theorem third_not_early :
    ∃ t, BanStore.recordOffence firstShard offender 1005 ⟨lastForgiven.store, []⟩ = .ok (true, t)
      ∧ lastForgiven.store.reps.autoBanThreshold ≤ lastForgiven.recent 1005 := by
  have hbans : (BanStore.recordOffence firstShard offender 1005
      ⟨lastForgiven.store, []⟩).toOption.map Prod.fst = some true := by decide +kernel
  have hlast : forgiven.take 5 ++ [(1005, Act.op (.recordOffence offender))] <+: forgiven :=
    List.prefix_refl forgiven
  have hclock : (forgiven.map Prod.fst).Pairwise (· ≤ ·) := by decide
  cases hcall : BanStore.recordOffence firstShard offender 1005 ⟨lastForgiven.store, []⟩ with
  | error i =>
    rw [hcall] at hbans
    cases hbans
  | ok r =>
    obtain ⟨banned, t⟩ := r
    rw [hcall] at hbans
    obtain rfl : banned = true := Option.some.inj hbans
    refine ⟨t, rfl, ?_⟩
    unfold lastForgiven at hcall ⊢
    exact not_early firstShard "bans.json" offender minuteStore rfl hclock (forgiven.take 5) 1005 t
      hlast hcall

/-! ## Runs without -/

/-- In a run that starts with an empty table, bans are installed for enough offences iff those are
settled that are in windows that began with a restart. -/
theorem not_early_iff (empty : w.store.reps.state = ∅)
    (clock : (acts.map Prod.fst).Pairwise (· ≤ ·)) :
    (∀ pre now, pre ++ [(now, .op (.recordOffence ip))] <+: acts → (w.run path ip pre).Due ip now)
      ↔ ∀ pre now, pre ++ [(now, .op (.recordOffence ip))] <+: acts →
        (w.run path ip pre).Settled ip now := by
  have key : ∀ pre now, pre ++ [(now, Act.op (.recordOffence ip))] <+: acts →
      ((w.run path ip pre).Due ip now ↔ (w.run path ip pre).Settled ip now) := by
    intro pre now hp
    have hpre : pre <+: acts := (List.prefix_append _ _).trans hp
    have hrun : ∃ last, Counts ip (w.run path ip pre) last ∧ _ :=
      counts_run empty (clock.sublist (hpre.sublist.map Prod.fst))
    obtain ⟨last, hcounts, -⟩ := hrun
    exact due_iff hcounts
  exact forall_congr' fun pre => forall_congr' fun now => forall_congr' fun hp => key pre now hp

/-- A store with a ban file, that bans for a minute after three offences in a minute. -/
def filedStore : BanStore := ⟨{ minuteStore.reps with persistPath := some "bans.json" }, fun _ => none⟩

/-- Three offences, and a restart while the ban still runs. -/
def restarted : List (Nat × Act) :=
  [(1000, .op (.recordOffence offender)), (1001, .op (.recordOffence offender)),
    (1002, .op (.recordOffence offender)), (1050, .restart)]

/-- An offence after the ban installs a new one, although it is alone in the last minute. -/
lemma restarted_not_due :
    ¬ (run "bans.json" offender ⟨filedStore, [], false⟩ restarted).Due offender 1070 := by
  intro hdue
  have hbanned : ((run "bans.json" offender ⟨filedStore, [], false⟩ restarted).store.reps.recordOffence
      (run "bans.json" offender ⟨filedStore, [], false⟩ restarted).store.disk offender 1070).1
        = true := by decide
  have hfew : (run "bans.json" offender ⟨filedStore, [], false⟩ restarted).recent 1070 = 1 := by
    decide
  have hthree : (run "bans.json" offender ⟨filedStore, [], false⟩
      restarted).store.reps.autoBanThreshold = 3 := by decide
  have henough := hdue hbanned
  rw [hfew, hthree] at henough
  exact absurd henough (by decide)

/-- In the run with this offence not all are settled. -/
theorem restarted_unsettled :
    ¬ ∀ pre now, pre ++ [(now, .op (.recordOffence offender))]
        <+: restarted ++ [(1070, .op (.recordOffence offender))] →
      (run "bans.json" offender ⟨filedStore, [], false⟩ pre).Settled offender now := by
  intro hsettled
  have hdue := (not_early_iff rfl (by decide)).mpr hsettled
  exact restarted_not_due (hdue restarted 1070 (List.prefix_refl _))

end Watched

end Reputations

end Waf
