import Waf.Ban.Reputation

/-!
# A ban holds

What keeps an address banned until a time `T`: an entry that says so in the table, and a ban file that
says so under the path of the store (`Held`). Every operation of the store but `unban` of the address
keeps both as long as the clock has not reached `T`: the writers of bans only ever extend a running
ban, the sweep spares it, a flush writes it, and a fresh store that reads the file has it again.
-/

namespace Waf
open Lib

namespace Reputations

/-- The ban file says that the address is banned until `T`. -/
def FileHolds (disk : Disk) (path : Str) (ip : IpAddr) (T : Nat) : Prop :=
  ∃ file, disk path = some (some file) ∧ (∃ b ∈ file, b.ip = ip)
    ∧ ∀ b ∈ file, b.ip = ip → T ≤ b.banUntil

/-- The address is banned until `T`, in the table and on disk. -/
structure Held (r : Reputations) (disk : Disk) (path : Str) (ip : IpAddr) (T : Nat) : Prop where
  notAllowed : inNets r.allow ip = false
  entry : ∃ s, r.state.lookup ip = some s ∧ T ≤ s.banUntil
  bound : r.persistPath = some path
  file : FileHolds disk path ip T

variable {r : Reputations} {disk : Disk} {path : Str} {ip ip' : IpAddr} {T now secs : Nat}

/-- A ban that holds is in the table. -/
lemma Held.le_entry (h : Held r disk path ip T) : T ≤ (r.entry ip).banUntil := by
  obtain ⟨s, hs, hT⟩ := h.entry
  rw [entry_of_lookup hs]
  exact hT

/-- A held address is banned. -/
lemma Held.isBanned (h : Held r disk path ip T) (hnow : now < T) : r.isBanned ip now = true :=
  isBanned_iff.mpr (lt_of_lt_of_le hnow h.le_entry)

/-! ## Flushing -/

/-- A flush writes the running ban of an address, and nothing else about it. -/
lemma fileHolds_persist {s} (hpath : r.persistPath = some path)
    (hs : r.state.lookup ip = some s) (hT : T ≤ s.banUntil) (hnow : now < T) :
    FileHolds (r.persist disk now) path ip T := by
  refine ⟨r.dump now, ?_, ⟨⟨ip, s.banUntil, s.hits⟩, ?_, rfl⟩, ?_⟩
  · simp only [persist, hpath]
    exact if_pos trivial
  · refine List.mem_filterMap.mpr ⟨(ip, s), HashMap.mem_toPairs.mpr hs, ?_⟩
    rw [if_pos (lt_of_lt_of_le hnow hT)]
  · rintro b hb rfl
    obtain ⟨⟨ip', s'⟩, hmem, hb⟩ := List.mem_filterMap.mp hb
    rw [HashMap.mem_toPairs] at hmem
    split at hb
    case isTrue =>
      obtain rfl := Option.some.inj hb
      rw [hs] at hmem
      obtain rfl := Option.some.inj hmem
      exact hT
    case isFalse => cases hb

/-- A table that still has the ban, flushed. -/
lemma held_flushed {s} (ha : inNets r.allow ip = false) (hpath : r.persistPath = some path)
    (hs : r.state.lookup ip = some s) (hT : T ≤ s.banUntil) (hnow : now < T) :
    Held r (r.persist disk now) path ip T :=
  ⟨ha, ⟨s, hs, hT⟩, hpath, fileHolds_persist hpath hs hT hnow⟩

/-- Saving keeps it. -/
lemma Held.persist (h : Held r disk path ip T) (hnow : now < T) :
    Held r (r.persist disk now) path ip T := by
  obtain ⟨s, hs, hT⟩ := h.entry
  exact held_flushed h.notAllowed h.bound hs hT hnow

/-! ## Writing entries -/

/-- Writing an entry keeps the ban in the table if it does not shorten it. -/
lemma Held.setEntry_entry {s} (h : Held r disk path ip T)
    (hs : ip' = ip → (r.entry ip).banUntil ≤ s.banUntil) :
    ∃ s', (r.setEntry ip' s).state.lookup ip = some s' ∧ T ≤ s'.banUntil := by
  by_cases e : ip' = ip
  case pos =>
    subst e
    exact ⟨s, lookup_setEntry, h.le_entry.trans (hs rfl)⟩
  case neg =>
    obtain ⟨s', hs', hT⟩ := h.entry
    refine ⟨s', ?_, hT⟩
    rw [← hs']
    exact AList.lookup_insert_ne fun e' => e e'.symm

lemma Held.setEntry {s} (h : Held r disk path ip T)
    (hs : ip' = ip → (r.entry ip).banUntil ≤ s.banUntil) :
    Held (r.setEntry ip' s) disk path ip T :=
  ⟨h.notAllowed, h.setEntry_entry hs, h.bound, h.file⟩

/-- An offence, of any address, keeps a running ban. -/
lemma Held.recordOffence (h : Held r disk path ip T) (hnow : now < T) :
    Held (r.recordOffence disk ip' now).2.1 (r.recordOffence disk ip' now).2.2 path ip T := by
  cases ht : r.tracked ip' with
  | false =>
    rw [recordOffence_untracked ht]
    exact h
  | true =>
    by_cases hb : r.bansNow ip' now
    case pos =>
      rw [recordOffence_ban ht hb]
      refine (h.setEntry fun e => ?_).persist hnow
      -- a running ban is not replaced
      subst e
      exact absurd (lt_of_lt_of_le hnow h.le_entry) (not_lt.mpr hb.2)
    case neg =>
      rw [recordOffence_note ht hb]
      refine h.setEntry fun e => ?_
      rw [e, HitState.offend_banUntil]

/-- A forced ban only extends a ban. -/
lemma le_forced : (r.entry ip).banUntil ≤ (r.forced ip secs now).banUntil := by
  simp only [forced]
  split
  case isTrue h => exact h.le
  case isFalse => exact le_rfl

lemma Held.forceBan (h : Held r disk path ip T) (hnow : now < T) :
    Held (r.forceBan disk ip' secs now).2.1 (r.forceBan disk ip' secs now).2.2 path ip T := by
  cases ht : r.tracked ip' with
  | false =>
    rw [forceBan_untracked ht]
    exact h
  | true =>
    rw [forceBan_tracked ht]
    refine (h.setEntry fun e => ?_).persist hnow
    subst e
    exact le_forced

lemma Held.unban (h : Held r disk path ip T) (hne : ip' ≠ ip) :
    Held (r.unban ip') disk path ip T := by
  obtain ⟨s, hs, hT⟩ := h.entry
  refine ⟨h.notAllowed, ⟨s, ?_, hT⟩, h.bound, h.file⟩
  rw [← hs]
  exact HashMap.lookup_modify_ne hne.symm

/-- The sweep spares running bans. -/
lemma Held.gc (h : Held r disk path ip T) (hnow : now < T) : Held (r.gc now) disk path ip T := by
  obtain ⟨s, hs, hT⟩ := h.entry
  refine ⟨h.notAllowed, ⟨s, ?_, hT⟩, h.bound, h.file⟩
  have hkeep : (decide (now < s.banUntil)
      || decide (now - s.firstHit < r.windowSecs * 2 % 2 ^ 64)) = true := by
    rw [decide_eq_true (lt_of_lt_of_le hnow hT), Bool.true_or]
  simp only [Reputations.gc, HashMap.lookup_retain, hs, Option.filter_some, hkeep]
  rfl

/-! ## Starting again -/

/-- Loading a ban of the file keeps a ban that is already loaded. -/
lemma load_keeps {state : HashMap IpAddr HitState} {b : PersistedBan}
    (hb : b.ip = ip → T ≤ b.banUntil)
    (h : ∃ s, state.lookup ip = some s ∧ T ≤ s.banUntil) :
    ∃ s, (load now state b).lookup ip = some s ∧ T ≤ s.banUntil := by
  obtain ⟨s, hs, hT⟩ := h
  unfold load
  split
  case isTrue =>
    by_cases e : b.ip = ip
    case pos =>
      subst e
      exact ⟨_, AList.lookup_insert _, hb rfl⟩
    case neg =>
      refine ⟨s, ?_, hT⟩
      rw [← hs]
      exact AList.lookup_insert_ne fun e' => e e'.symm
  case isFalse => exact ⟨s, hs, hT⟩

/-- Loading a file that has the ban puts it in the table. -/
lemma load_finds {file : List PersistedBan} {state : HashMap IpAddr HitState} (hnow : now < T)
    (hall : ∀ b ∈ file, b.ip = ip → T ≤ b.banUntil)
    (h : (∃ b ∈ file, b.ip = ip) ∨ ∃ s, state.lookup ip = some s ∧ T ≤ s.banUntil) :
    ∃ s, (file.foldl (load now) state).lookup ip = some s ∧ T ≤ s.banUntil := by
  induction file generalizing state with
  | nil =>
    rcases h with ⟨b, hb, -⟩ | h
    · cases hb
    · exact h
  | cons b file ih =>
    refine ih (fun b' hb' => hall b' (.tail _ hb')) ?_
    rcases h with ⟨b', hb', e⟩ | h
    · rcases List.mem_cons.mp hb' with rfl | hb'
      · have hb := hall b' (.head _) e
        refine .inr ⟨⟨b'.hits, now, b'.banUntil⟩, ?_, hb⟩
        rw [load, if_pos (lt_of_lt_of_le hnow hb), e]
        exact AList.lookup_insert _
      · exact .inl ⟨b', hb', e⟩
    · exact .inr (load_keeps (hall b (.head _)) h)

/-- A fresh store that reads the file has the ban. -/
lemma held_restart (ha : inNets r.allow ip = false) (hnow : now < T)
    (hf : FileHolds disk path ip T) :
    Held (r.bindPersistFile disk path now) disk path ip T := by
  obtain ⟨file, hfile, hmem, hall⟩ := id hf
  refine ⟨ha, ?_, rfl, hf⟩
  have hstate : (r.bindPersistFile disk path now).state = file.foldl (load now) r.state := by
    simp only [bindPersistFile, hfile]
    rfl
  rw [hstate]
  exact load_finds hnow hall (.inl hmem)

/-! ## What stays -/

/-- The lists and the path of a store are set once. -/
lemma static_of_writes {r' : Reputations} (h : r' = r ∨ ∃ s, r' = r.setEntry ip s) :
    r'.allow = r.allow ∧ r'.persistPath = r.persistPath := by
  obtain rfl | ⟨s, rfl⟩ := h
  · exact ⟨rfl, rfl⟩
  · exact ⟨rfl, rfl⟩

/-- An offence changes neither the allow list nor the file that is bound. -/
lemma recordOffence_static : (r.recordOffence disk ip now).2.1.allow = r.allow
    ∧ (r.recordOffence disk ip now).2.1.persistPath = r.persistPath :=
  static_of_writes recordOffence_writes

lemma forceBan_static : (r.forceBan disk ip secs now).2.1.allow = r.allow
    ∧ (r.forceBan disk ip secs now).2.1.persistPath = r.persistPath :=
  static_of_writes forceBan_writes

/-! ## Installing a ban -/

/-- An offence that returns true leaves a ban that holds. -/
lemma held_of_recordOffence (hpath : r.persistPath = some path)
    (h : (r.recordOffence disk ip now).1 = true)
    (hT : now < ((r.recordOffence disk ip now).2.1.entry ip).banUntil) :
    Held (r.recordOffence disk ip now).2.1 (r.recordOffence disk ip now).2.2 path ip
      ((r.recordOffence disk ip now).2.1.entry ip).banUntil := by
  cases ht : r.tracked ip with
  | false =>
    rw [recordOffence_untracked ht] at h
    cases h
  | true =>
    by_cases hb : r.bansNow ip now
    case pos =>
      rw [recordOffence_ban ht hb] at hT ⊢
      exact held_flushed (tracked_iff.mp ht).1 hpath lookup_setEntry
        (congrArg _ entry_setEntry).le hT
    case neg =>
      rw [recordOffence_note ht hb] at h
      cases h

/-- So does a forced ban that returns true. -/
lemma held_of_forceBan (hpath : r.persistPath = some path)
    (h : (r.forceBan disk ip secs now).1 = true)
    (hT : now < ((r.forceBan disk ip secs now).2.1.entry ip).banUntil) :
    Held (r.forceBan disk ip secs now).2.1 (r.forceBan disk ip secs now).2.2 path ip
      ((r.forceBan disk ip secs now).2.1.entry ip).banUntil := by
  cases ht : r.tracked ip with
  | false =>
    rw [forceBan_untracked ht] at h
    cases h
  | true =>
    rw [forceBan_tracked ht] at hT ⊢
    exact held_flushed (tracked_iff.mp ht).1 hpath lookup_setEntry
      (congrArg _ entry_setEntry).le hT

/-- An offence that returns false leaves the ban of the address as it was. -/
lemma recordOffence_false (h : (r.recordOffence disk ip now).1 = false) :
    ((r.recordOffence disk ip now).2.1.entry ip).banUntil = (r.entry ip).banUntil := by
  cases ht : r.tracked ip with
  | false => rw [recordOffence_untracked ht]
  | true =>
    by_cases hb : r.bansNow ip now
    case pos =>
      rw [recordOffence_ban ht hb] at h
      cases h
    case neg =>
      rw [recordOffence_note ht hb]
      rw [entry_setEntry, HitState.offend_banUntil]

/-- A forced ban that returns false changes nothing. -/
lemma forceBan_false (h : (r.forceBan disk ip secs now).1 = false) :
    (r.forceBan disk ip secs now).2.1 = r := by
  cases ht : r.tracked ip with
  | false => rw [forceBan_untracked ht]
  | true =>
    rw [forceBan_tracked ht] at h
    cases h

end Reputations

end Waf
