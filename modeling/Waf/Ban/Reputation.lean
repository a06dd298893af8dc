import Waf.Lib.HashMap
import Waf.Config

/-!
# The ban store

Model of `reputation.rs`: the static allow and deny lists, the table of offenders with the two
writers of bans, `record_offence` and `force_ban`, and the ban file. The clock is an argument. The
file system is a map from paths to ban files, and a ban file is what `serde_json` reads from it.
Writes to the file system succeed; `persist` replaces the file in one step.
-/

namespace Waf
open Lib

inductive Reputation where
  | allow
  | deny
  | unknown
  deriving DecidableEq

structure HitState where
  hits : Nat := 0
  firstHit : Nat := 0
  banUntil : Nat := 0
  deriving DecidableEq

/-- An offence on an entry: the window restarts when it has run out, and the hit is counted. -/
def HitState.offend (s : HitState) (windowSecs now : Nat) : HitState :=
  let s := if s.firstHit = 0 ∨ windowSecs < now - s.firstHit then
    { s with firstHit := now, hits := 0 } else s
  { s with hits := satAdd32 s.hits 1 }

/-- The hits of an entry after one more offence. -/
def HitState.nextHits (s : HitState) (windowSecs now : Nat) : Nat :=
  if s.firstHit = 0 ∨ windowSecs < now - s.firstHit then 1 else satAdd32 s.hits 1

/-- The hits after an offence. -/
@[simp] lemma HitState.offend_hits {s : HitState} {windowSecs now} :
    (s.offend windowSecs now).hits = s.nextHits windowSecs now := by
  simp only [offend, nextHits]
  split <;> simp [satAdd32, u32Max]

/-- An offence alone does not move the ban. -/
@[simp] lemma HitState.offend_banUntil {s : HitState} {windowSecs now} :
    (s.offend windowSecs now).banUntil = s.banUntil := by
  simp only [offend]
  split <;> rfl

structure PersistedBan where
  ip : IpAddr
  banUntil : Nat
  hits : Nat
  deriving DecidableEq

/-- The bans in a file, `none` for a text that does not parse. -/
abbrev BanFile := Option (List PersistedBan)

/-- The file system: the ban file at a path, if the path exists. -/
abbrev Disk := Str → Option BanFile

structure Reputations where
  allow : List IpNet
  deny : List IpNet
  autoBanThreshold : Nat
  windowSecs : Nat
  durationSecs : Nat
  state : HashMap IpAddr HitState
  persistPath : Option Str

namespace Reputations

def new (crates : Crates) (cfg : ReputationCfg) : Option Reputations := do
  let allow ← cfg.allowCidrs.mapM (parseNet crates.ipNet)
  let deny ← cfg.denyCidrs.mapM (parseNet crates.ipNet)
  return {
    allow := allow
    deny := deny
    autoBanThreshold := cfg.autoBanThresholdHits
    windowSecs := cfg.autoBanWindowSecs
    durationSecs := cfg.autoBanDurationSecs
    state := ∅
    persistPath := none }

/-- Load one ban of a file. -/
def load (now : Nat) (state : HashMap IpAddr HitState) (b : PersistedBan) :
    HashMap IpAddr HitState :=
  if now < b.banUntil then state.insert b.ip ⟨b.hits, now, b.banUntil⟩ else state

def bindPersistFile (r : Reputations) (disk : Disk) (path : Str) (now : Nat) : Reputations :=
  let state :=
    match disk path with
    | some file => (file.getD []).foldl (load now) r.state
    | none => r.state
  { r with state := state, persistPath := some path }

/-- The bans that `persist` writes. -/
def dump (r : Reputations) (now : Nat) : List PersistedBan :=
  r.state.toPairs.filterMap fun e =>
    if now < e.2.banUntil then some ⟨e.1, e.2.banUntil, e.2.hits⟩ else none

def persist (r : Reputations) (disk : Disk) (now : Nat) : Disk :=
  match r.persistPath with
  | none => disk
  | some path => fun p => if p = path then some (some (r.dump now)) else disk p

def isBanned (r : Reputations) (ip : IpAddr) (now : Nat) : Bool :=
  match r.state.lookup ip with
  | some s => now < s.banUntil
  | none => false

def classify (r : Reputations) (ip : IpAddr) (now : Nat) : Reputation :=
  if inNets r.allow ip then .allow
  else if inNets r.deny ip then .deny
  else if r.isBanned ip now then .deny
  else .unknown

/-- The number of entries past which the table takes no new ones. -/
def maxEntries : Nat := 150000

/-- Is the table too full to track a new address? -/
def full (r : Reputations) (ip : IpAddr) : Bool :=
  !r.state.containsKey ip && maxEntries < r.state.size

/-- The entry of an address, a fresh one when there is none. -/
def entry (r : Reputations) (ip : IpAddr) : HitState := (r.state.lookup ip).getD {}

/-- Write the entry of an address. -/
def setEntry (r : Reputations) (ip : IpAddr) (s : HitState) : Reputations :=
  { r with state := r.state.insert ip s }

def recordOffence (r : Reputations) (disk : Disk) (ip : IpAddr) (now : Nat) :
    Bool × Reputations × Disk :=
  if inNets r.allow ip then (false, r, disk)
  else if r.full ip then (false, r, disk)
  else
    let s := (r.entry ip).offend r.windowSecs now
    if r.autoBanThreshold ≤ s.hits ∧ s.banUntil ≤ now then
      let s := { s with banUntil := (now + r.durationSecs) % 2 ^ 64 }
      let r := r.setEntry ip s
      (true, r, r.persist disk now)
    else (false, r.setEntry ip s, disk)

/-- The entry of an address after a forced ban: the ban is only ever extended. -/
def forced (r : Reputations) (ip : IpAddr) (secs now : Nat) : HitState :=
  let s := r.entry ip
  let banEnd := (now + secs) % 2 ^ 64
  let s := if s.banUntil < banEnd then { s with banUntil := banEnd } else s
  { s with hits := satAdd32 s.hits r.autoBanThreshold }

def forceBan (r : Reputations) (disk : Disk) (ip : IpAddr) (secs now : Nat) :
    Bool × Reputations × Disk :=
  if inNets r.allow ip then (false, r, disk)
  else if r.full ip then (false, r, disk)
  else
    let r := r.setEntry ip (r.forced ip secs now)
    (true, r, r.persist disk now)

def unban (r : Reputations) (ip : IpAddr) : Reputations :=
  { r with state := r.state.modify ip fun s => { s with banUntil := 0, hits := 0 } }

def gc (r : Reputations) (now : Nat) : Reputations :=
  { r with state := r.state.retain fun _ s =>
      now < s.banUntil || now - s.firstHit < r.windowSecs * 2 % 2 ^ 64 }

def banned (r : Reputations) (now : Nat) : List (IpAddr × Nat) :=
  r.state.toPairs.filterMap fun e =>
    if now < e.2.banUntil then some (e.1, e.2.banUntil - now) else none

/-! ## What the two writers of bans do -/

/-- Does the store keep an entry for the address? -/
def tracked (r : Reputations) (ip : IpAddr) : Bool := !inNets r.allow ip && !r.full ip

/-- Would an offence of the address at `now` install a ban? -/
def bansNow (r : Reputations) (ip : IpAddr) (now : Nat) : Prop :=
  r.autoBanThreshold ≤ (r.entry ip).nextHits r.windowSecs now ∧ (r.entry ip).banUntil ≤ now

instance {r : Reputations} {ip now} : Decidable (r.bansNow ip now) :=
  inferInstanceAs (Decidable (_ ∧ _))

variable {r : Reputations} {disk : Disk} {ip : IpAddr} {secs now : Nat}

/-- An address is tracked iff it is not allowed and the table has room for it. -/
lemma tracked_iff : r.tracked ip = true ↔ inNets r.allow ip = false ∧ r.full ip = false := by
  simp [tracked]

/-- An entry that was set is found. -/
@[simp] lemma lookup_setEntry {s : HitState} :
    (r.setEntry ip s).state.lookup ip = some s :=
  AList.lookup_insert _

/-- Both writers pass over an address that is not tracked. -/
lemma ite_untracked {α : Type} {a b : α} (h : r.tracked ip = false) :
    (if inNets r.allow ip then a else if r.full ip then a else b) = a := by
  split
  case isTrue => rfl
  case isFalse ha =>
    have hf : r.full ip = true := by simpa [tracked, ha] using h
    rw [if_pos hf]

/-- A tracked address passes both checks. -/
lemma ite_tracked {α : Type} {a b : α} (h : r.tracked ip = true) :
    (if inNets r.allow ip then a else if r.full ip then a else b) = b := by
  obtain ⟨ha, hf⟩ := tracked_iff.mp h
  rw [ha, hf, if_neg Bool.false_ne_true, if_neg Bool.false_ne_true]

/-- Nothing happens to an address that is not tracked. -/
lemma recordOffence_untracked (h : r.tracked ip = false) :
    r.recordOffence disk ip now = (false, r, disk) := ite_untracked h

/-- The entry of an address after the offence that installs a ban. -/
def newBan (r : Reputations) (ip : IpAddr) (now : Nat) : HitState :=
  { (r.entry ip).offend r.windowSecs now with banUntil := (now + r.durationSecs) % 2 ^ 64 }

/-- An offence that installs a ban flushes the store. -/
lemma recordOffence_ban (h : r.tracked ip = true) (hb : r.bansNow ip now) :
    r.recordOffence disk ip now = (true, r.setEntry ip (r.newBan ip now),
      (r.setEntry ip (r.newBan ip now)).persist disk now) := by
  have hreached : r.autoBanThreshold ≤ ((r.entry ip).offend r.windowSecs now).hits
      ∧ ((r.entry ip).offend r.windowSecs now).banUntil ≤ now := by simpa [bansNow] using hb
  exact (ite_tracked h).trans (if_pos hreached)

/-- Any other offence is noted in the entry. -/
lemma recordOffence_note (h : r.tracked ip = true) (hb : ¬ r.bansNow ip now) :
    r.recordOffence disk ip now
      = (false, r.setEntry ip ((r.entry ip).offend r.windowSecs now), disk) := by
  have hbelow : ¬ (r.autoBanThreshold ≤ ((r.entry ip).offend r.windowSecs now).hits
      ∧ ((r.entry ip).offend r.windowSecs now).banUntil ≤ now) := by simpa [bansNow] using hb
  exact (ite_tracked h).trans (if_neg hbelow)

lemma forceBan_untracked (h : r.tracked ip = false) :
    r.forceBan disk ip secs now = (false, r, disk) := ite_untracked h

/-- A forced ban of a tracked address flushes the store. -/
lemma forceBan_tracked (h : r.tracked ip = true) :
    r.forceBan disk ip secs now = (true, r.setEntry ip (r.forced ip secs now),
      (r.setEntry ip (r.forced ip secs now)).persist disk now) := ite_tracked h

/-- Both writers of bans write the entry of their address, if any. -/
lemma recordOffence_writes : (r.recordOffence disk ip now).2.1 = r
    ∨ ∃ s, (r.recordOffence disk ip now).2.1 = r.setEntry ip s := by
  cases ht : r.tracked ip with
  | false =>
    rw [recordOffence_untracked ht]
    exact .inl rfl
  | true =>
    by_cases hb : r.bansNow ip now
    case pos =>
      rw [recordOffence_ban ht hb]
      exact .inr ⟨_, rfl⟩
    case neg =>
      rw [recordOffence_note ht hb]
      exact .inr ⟨_, rfl⟩

/-- A forced ban writes one entry, or nothing. -/
lemma forceBan_writes : (r.forceBan disk ip secs now).2.1 = r
    ∨ ∃ s, (r.forceBan disk ip secs now).2.1 = r.setEntry ip s := by
  cases ht : r.tracked ip with
  | false =>
    rw [forceBan_untracked ht]
    exact .inl rfl
  | true =>
    rw [forceBan_tracked ht]
    exact .inr ⟨_, rfl⟩

/-- The entry of an address is the one in the table. -/
lemma entry_of_lookup {s} (h : r.state.lookup ip = some s) : r.entry ip = s := by
  rw [entry, h, Option.getD_some]

/-- It is the one that was set last. -/
lemma entry_setEntry {s : HitState} : (r.setEntry ip s).entry ip = s :=
  entry_of_lookup lookup_setEntry

lemma entry_setEntry_ne {addr : IpAddr} {s : HitState} (h : addr ≠ ip) :
    (r.setEntry addr s).entry ip = r.entry ip := by
  rw [entry, entry, setEntry, AList.lookup_insert_ne h.symm]

/-! ## Who is banned -/

/-- An address is banned while the ban of its entry runs. -/
lemma isBanned_iff : r.isBanned ip now = true ↔ now < (r.entry ip).banUntil := by
  unfold isBanned entry
  cases r.state.lookup ip with
  | none => exact ⟨nofun, nofun⟩
  | some s => exact decide_eq_true_iff

/-- An unban lifts the ban of its address alone. -/
lemma isBanned_unban {addr : IpAddr} :
    (r.unban addr).isBanned ip now = (r.isBanned ip now && decide (addr ≠ ip)) := by
  unfold isBanned unban
  by_cases e : addr = ip
  case pos =>
    subst e
    simp only [HashMap.lookup_modify, ne_eq, not_true_eq_false, decide_false, Bool.and_false]
    cases r.state.lookup addr with
    | none => rfl
    | some s => exact decide_eq_false (Nat.not_lt_zero now)
  case neg =>
    simp only [HashMap.lookup_modify_ne fun e' => e e'.symm, ne_eq, e, not_false_eq_true, decide_true,
      Bool.and_true]

/-- Loading a ban bans its address if the ban still runs. -/
lemma isBanned_load {b : PersistedBan} :
    { r with state := load now r.state b }.isBanned ip now = true
      ↔ (b.ip = ip ∧ now < b.banUntil) ∨ r.isBanned ip now = true := by
  simp only [isBanned_iff, entry, load]
  split
  case isTrue hrun =>
    by_cases e : b.ip = ip
    case pos =>
      subst e
      rw [AList.lookup_insert]
      exact ⟨fun _ => .inl ⟨rfl, hrun⟩, fun _ => hrun⟩
    case neg =>
      rw [AList.lookup_insert_ne fun e' => e e'.symm]
      exact ⟨.inr, fun h => h.resolve_left fun h' => e h'.1⟩
  case isFalse hrun => exact ⟨.inr, fun h => h.resolve_left fun h' => hrun h'.2⟩

/-- What is banned after a file has been read. -/
lemma isBanned_foldl {file : List PersistedBan} :
    { r with state := file.foldl (load now) r.state }.isBanned ip now = true
      ↔ (∃ b ∈ file, b.ip = ip ∧ now < b.banUntil) ∨ r.isBanned ip now = true := by
  induction file generalizing r with
  | nil => exact ⟨.inr, fun h => h.resolve_left fun ⟨_, hb, _⟩ => nomatch hb⟩
  | cons b file ih =>
    have hcons := @ih { r with state := load now r.state b }
    rw [isBanned_load] at hcons
    refine hcons.trans ?_
    simp only [List.mem_cons, exists_eq_or_imp, or_assoc]
    exact or_left_comm

/-- Binding a ban file adds the bans in it that still run. -/
lemma isBanned_bind {path : Str} : (r.bindPersistFile disk path now).isBanned ip now = true
    ↔ (∃ file, disk path = some (some file) ∧ ∃ b ∈ file, b.ip = ip ∧ now < b.banUntil)
      ∨ r.isBanned ip now = true := by
  rw [bindPersistFile]
  cases hd : disk path with
  | none => exact ⟨.inr, fun h => h.resolve_left fun ⟨_, hf, _⟩ => nomatch hf⟩
  | some content =>
    cases content with
    | none => exact ⟨.inr, fun h => h.resolve_left fun ⟨_, hf, _⟩ => nomatch hf⟩
    | some file =>
      have hfile : (∃ f, some (some file) = some (some f) ∧ ∃ b ∈ f, b.ip = ip ∧ now < b.banUntil)
          ↔ ∃ b ∈ file, b.ip = ip ∧ now < b.banUntil :=
        ⟨fun ⟨_, hf, h⟩ => by cases hf; exact h, fun h => ⟨file, rfl, h⟩⟩
      rw [hfile]
      exact isBanned_foldl

end Reputations

end Waf
