import Waf.Admin.Restart
import Waf.Lib.Publish

/-!
# Concurrent saving

`Runtime::persist` and `Reputations::persist` as the three steps that they consist of, called by the
handlers of the dashboard, `AutoUamService`, the sweep and the workers of the proxy at once. Both
take their snapshot before they write, all writers of a file share its `.json.tmp`, and a rename that
fails is ignored, so they are instances of `Lib.Publish`: the file that is left over is the snapshot
of the call that wrote last.
-/

namespace Waf
open Lib Lib.Publish

/-! ## The two files -/

namespace Runtime

/-- The snapshot of `Runtime::persist`. -/
def take (_ : Unit) (rt : Runtime) : PersistedRuntime := rt.saved

end Runtime

namespace Reputations

/-- The snapshot of `Reputations::persist`, at time `now`. -/
def take (now : Nat) (r : Reputations) : List PersistedBan := r.dump now

end Reputations

variable {ι : Type} [DecidableEq ι]

/-! ## What is left in the files -/

/-- When all calls have returned, each file is up to date iff the call that wrote it last had taken
its snapshot after the last update. -/
theorem saved_upToDate_iff {ι' : Type} [DecidableEq ι'] {rt : Runtime}
    {tmp target : Option PersistedRuntime} {es : List (Publish.Event ι Unit Runtime)}
    {s : State ι Runtime PersistedRuntime} {r : Reputations}
    {tmp' target' : Option (List PersistedBan)} {es' : List (Publish.Event ι' Nat Reputations)}
    {s' : State ι' Reputations (List PersistedBan)}
    (hrun : Run Runtime.take (.start rt tmp target) es s) (hdone : s.Done)
    (hrun' : Run Reputations.take (.start r tmp' target') es' s') (hdone' : s'.Done) :
    (s.UpToDate ↔ LastWriteFresh es) ∧ (s'.UpToDate ↔ LastWriteFresh es') :=
  ⟨hrun.upToDate_iff hdone, hrun'.upToDate_iff hdone'⟩

/-- The settings of the example. -/
def savedRuntime : Runtime := Runtime.fromConfig Engine.sampleCfg "token"

/-- A handler that sets the level. -/
def setLevel (level : Nat) (rt : Runtime) : Runtime := { rt with uamLevel := level }

/-- The first handler takes its snapshot, the second one saves a newer level, and then the first one
writes. -/
def lateWrite : List (Publish.Event Bool Unit Runtime) :=
  [.update false (setLevel 1), .snap false (), .update true (setLevel 2), .snap true (),
    .write true, .rename true, .write false, .rename false]

/-- Two handlers that save a level at once, of which the second one writes last. The first one's rename
publishes what the second has written. -/
def crossedSaves : List (Publish.Event Bool Unit Runtime) :=
  [.update false (setLevel 1), .snap false (), .update true (setLevel 2), .write false, .snap true (),
    .write true, .rename false, .rename true]

/-- The sweep of the bans and a worker that bans an address, of which the sweep writes last. -/
def crossedBans : List (Publish.Event Bool Nat Reputations) :=
  [.update false fun r => r.gc 1700000000, .snap false 1700000000,
    .update true fun r => (r.forceBan (fun _ => none) (.v4 (.new 1 2 3 4)) 60 1700000000).2.1,
    .snap true 1700000000, .write true, .write false, .rename true, .rename false]

/-- The settings are up to date in the end, and the bans are not. -/
theorem saved_upToDate_iff_witness :
    ∃ (s : State Bool Runtime PersistedRuntime) (s' : State Bool Reputations (List PersistedBan)),
      s.Done ∧ s'.Done ∧ (s.UpToDate ↔ LastWriteFresh crossedSaves)
        ∧ (s'.UpToDate ↔ LastWriteFresh crossedBans)
        ∧ LastWriteFresh crossedSaves ∧ ¬ LastWriteFresh crossedBans := by
  have saved : ∃ s, Run Runtime.take (.start savedRuntime none none) crossedSaves s ∧ s.Done := by
    refine ⟨_, .step (.step (.step (.step (.step (.step (.step (.step .start (.update (.inl rfl)))
      (.snap rfl)) (.update (.inl rfl))) (.write rfl)) (.snap rfl)) (.write rfl)) (.rename rfl))
      (.rename rfl), ?_⟩
    intro i
    cases i with
    | false => exact .inr rfl
    | true => exact .inr rfl
  have swept : ∃ s, Run Reputations.take (.start Engine.sampleEngine.reputations none none)
      crossedBans s ∧ s.Done := by
    refine ⟨_, .step (.step (.step (.step (.step (.step (.step (.step .start (.update (.inl rfl)))
      (.snap rfl)) (.update (.inl rfl))) (.snap rfl)) (.write rfl)) (.write rfl)) (.rename rfl))
      (.rename rfl), ?_⟩
    intro i
    cases i with
    | false => exact .inr rfl
    | true => exact .inr rfl
  have fresh : LastWriteFresh crossedSaves := ⟨true, rfl, by decide⟩
  have stale : ¬ LastWriteFresh crossedBans := by
    rintro ⟨i, hi, hlast⟩
    obtain rfl : i = false := (Option.some.inj hi).symm
    have hupdate := hlast (.update true fun r =>
      (r.forceBan (fun _ => none) (.v4 (.new 1 2 3 4)) 60 1700000000).2.1) (.tail _ (.head _))
    cases hupdate
  obtain ⟨s, hrun, hdone⟩ := saved
  obtain ⟨s', hrun', hdone'⟩ := swept
  obtain ⟨hsettings, hbans⟩ := saved_upToDate_iff hrun hdone hrun' hdone'
  exact ⟨s, s', hdone, hdone', hsettings, hbans, fresh, stale⟩

/-- The second handler has returned and so has the first, but the file has the older level. -/
theorem late_write_wins :
    ∃ s, Run Runtime.take (.start savedRuntime none none) lateWrite s ∧ s.Done
      ∧ s.mem.uamLevel = 2 ∧ (s.target.bind fun c => c.value.uamLevel) = some 1
      ∧ ¬ s.UpToDate := by
  refine ⟨_, .step (.step (.step (.step (.step (.step (.step (.step .start (.update (.inl rfl)))
    (.snap rfl)) (.update (.inl rfl))) (.snap rfl)) (.write rfl)) (.rename rfl)) (.write rfl))
    (.rename rfl), ?_, rfl, rfl, ?_⟩
  · intro i
    cases i with
    | false => exact .inr rfl
    | true => exact .inr rfl
  · rintro ⟨v, hv⟩
    have htaken : some 1 = some 2 := congrArg Copy.taken (Option.some.inj hv)
    cases htaken

/-- A restart from a file that is up to date brings the settings back as they are, the country codes
up to ASCII case. -/
theorem upToDate_restores {crates : Crates} {json : List UInt8 → Except Str Patch} {cfg : Config}
    {rt : Runtime} {tmp target : Option PersistedRuntime} {es : List (Publish.Event ι Unit Runtime)}
    {s : State ι Runtime PersistedRuntime} {path : Str} {disk : RuntimeDisk} {nanos pid : Nat}
    {thread : Str} (hrun : Run Runtime.take (.start rt tmp target) es s) (hup : s.UpToDate)
    (hmem : Runtime.Reachable crates json cfg s.mem) (hnets : s.mem.NetsRead crates)
    (hpath : s.mem.persistPath = some path)
    (hdisk : disk path = s.target.map fun c => some c.value) :
    ((Runtime.fromConfig cfg (generateToken crates nanos pid thread)).bindPersistFile crates disk
        path)
      = some { s.mem with blockedCountries := s.mem.blockedCountries.map toAsciiUpper } := by
  obtain ⟨c, _, htarget, hvalue⟩ := hrun.upToDate_value hup
  have hfile : disk path = some (some s.mem.saved) := by
    rw [hdisk, htarget, Option.map_some, hvalue]
    rfl
  have happly := @Runtime.apply_saved crates s.mem
    (Runtime.fromConfig cfg (generateToken crates nanos pid thread)) hmem.valid hnets rfl
  rw [Runtime.bindPersistFile, hfile]
  simp only [happly, ← hpath]

end Waf
