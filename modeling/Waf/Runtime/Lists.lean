import Waf.Runtime.Persisted

/-!
# The lists of the dashboard

A network on a list is an address with a prefix length, and the address keeps the bits behind the
prefix. `contains` does not look at these bits, but equality does, and the lists are edited by equality.
So a network stays on a list that is spelled in another way than the one that is removed
(`forgotten_iff`).
-/

namespace Waf
open Lib

/-- The networks contain the same addresses. -/
def IpNet.SameRange (n m : IpNet) : Prop := ∀ ip, n.contains ip = m.contains ip

namespace IpNet

variable {n m k : IpNet}

lemma SameRange.refl : n.SameRange n := fun _ => rfl

lemma SameRange.symm (h : n.SameRange m) : m.SameRange n := fun ip => (h ip).symm

lemma SameRange.trans (h : n.SameRange m) (h' : m.SameRange k) : n.SameRange k :=
  fun ip => (h ip).trans (h' ip)

/-- Networks that agree on the bits of the prefix contain the same addresses. -/
lemma sameRange_v4 {a b : Ipv4Addr} {len : Nat} {ha hb}
    (h : a.toBits / 2 ^ (32 - len) = b.toBits / 2 ^ (32 - len)) :
    SameRange ⟨.v4 a, len, ha⟩ ⟨.v4 b, len, hb⟩ := by
  intro ip
  cases ip with
  | v4 c =>
    show (a.toBits / 2 ^ (32 - len) == _) = (b.toBits / 2 ^ (32 - len) == _)
    rw [h]
  | v6 c => rfl

end IpNet

namespace Runtime

/-- No network of a list contains the addresses of the network, so that an address is on the list only
for another one. -/
structure Forgotten (nets : List IpNet) (n : IpNet) : Prop where
  absent : ∀ m ∈ nets, ¬ m.SameRange n
  others : ∀ ip, inNets nets ip = true → ∃ m ∈ nets, ¬ m.SameRange n ∧ m.contains ip = true

variable {crates : Crates} {rt rt₁ rt₂ : Runtime} {disk disk₁ disk₂ : RuntimeDisk} {c c' : Str}
  {n n' m : IpNet} {nets : List IpNet}

/-- A range is forgotten iff no network has it. -/
lemma forgotten_iff_absent : Forgotten nets n ↔ ∀ m ∈ nets, ¬ m.SameRange n := by
  refine ⟨fun h => h.absent, fun h => ⟨h, fun ip hip => ?_⟩⟩
  obtain ⟨m, hm, hcontains⟩ := List.any_eq_true.mp hip
  exact ⟨m, hm, h m hm, hcontains⟩

lemma mem_addNet : m ∈ addNet nets n ↔ m ∈ nets ∨ m = n := by
  rw [addNet]
  split
  case isTrue hmem =>
    refine (or_iff_left_of_imp ?_).symm
    rintro rfl
    exact hmem
  case isFalse => rw [List.mem_append, List.mem_singleton]

lemma mem_removeNet : m ∈ removeNet nets n ↔ m ∈ nets ∧ m ≠ n := by
  rw [removeNet, List.mem_filter, decide_eq_true_iff]

/-- A network that is added and removed is forgotten iff it is removed as it was added, and all
entries with its addresses are spelled so. -/
lemma forgotten_edits (hsame : n.SameRange n') :
    Forgotten (removeNet (addNet nets n) n') n ↔
      n = n' ∧ ∀ m ∈ nets, m.SameRange n → m = n := by
  rw [forgotten_iff_absent]
  constructor
  · intro habsent
    have hspelled : ∀ m, m ∈ nets ∨ m = n → m.SameRange n → m = n' := by
      intro m hm hrange
      by_contra hne
      exact habsent m (mem_removeNet.mpr ⟨mem_addNet.mpr hm, hne⟩) hrange
    have hn : n = n' := hspelled n (.inr rfl) .refl
    exact ⟨hn, fun m hm hrange => (hspelled m (.inl hm) hrange).trans hn.symm⟩
  · rintro ⟨rfl, hspelled⟩ m hm hrange
    obtain ⟨hadded, hne⟩ := mem_removeNet.mp hm
    obtain hold | rfl := mem_addNet.mp hadded
    · exact hne (hspelled m hold hrange)
    · exact hne rfl

/-- What an edit of a list makes of the settings. -/
lemma editNet_eq {edit : IpNet → Runtime} (hc : parseNet crates.ipNet c = some n)
    (h : editNet crates edit disk c = some (rt₁, disk₁)) : rt₁ = edit n := by
  rw [editNet, hc, Option.map_some] at h
  exact (congrArg Prod.fst (Option.some.inj h)).symm

/-- After a network has been added to a list and removed again, the list has forgotten its addresses
iff both texts and all entries of the list that contain the same addresses stand for the same
network. -/
theorem forgotten_iff (hc : parseNet crates.ipNet c = some n)
    (hc' : parseNet crates.ipNet c' = some n') (hsame : n.SameRange n') :
    (rt.addDeny crates disk c = some (rt₁, disk₁) →
      rt₁.removeDeny crates disk₁ c' = some (rt₂, disk₂) →
      (Forgotten rt₂.deny n ↔ n = n' ∧ ∀ m ∈ rt.deny, m.SameRange n → m = n)) ∧
    (rt.addAllow crates disk c = some (rt₁, disk₁) →
      rt₁.removeAllow crates disk₁ c' = some (rt₂, disk₂) →
      (Forgotten rt₂.allow n ↔ n = n' ∧ ∀ m ∈ rt.allow, m.SameRange n → m = n)) := by
  constructor
  · intro hadd hremove
    obtain rfl := editNet_eq hc hadd
    obtain rfl := editNet_eq hc' hremove
    exact forgotten_edits hsame
  · intro hadd hremove
    obtain rfl := editNet_eq hc hadd
    obtain rfl := editNet_eq hc' hremove
    exact forgotten_edits hsame

/-- Crates that read networks, with all bits of the address. -/
def netCrates : Crates :=
  { idleCrates with
    ipNet := fun s => do
      let (addr, len) ← splitOnce '/' s
      IpNet.new (← IpAddr.parse addr) (← parseNat 256 len) }

/-- Settings with empty lists. -/
def bareRuntime : Runtime := { challengeThreshold := 50, blockThreshold := 100 }

/-- A network with bits behind the prefix. -/
def tenFive : IpNet := ⟨.v4 (.new 10 0 0 5), 8, by decide⟩

/-- The same network without them. -/
def ten : IpNet := ⟨.v4 (.new 10 0 0 0), 8, by decide⟩

/-- The first text is read with its host bits. -/
lemma parse_tenFive : parseNet netCrates.ipNet "10.0.0.5/8" = some tenFive := by decide

/-- The second one has none. -/
lemma parse_ten : parseNet netCrates.ipNet "10.0.0.0/8" = some ten := by decide

/-- Both are the same range. -/
lemma tenFive_sameRange : tenFive.SameRange ten := IpNet.sameRange_v4 (by decide)

/-- A text that can be read is added. -/
lemma addDeny_eq (hc : parseNet crates.ipNet c = some n) : rt.addDeny crates disk c =
    some ({ rt with deny := addNet rt.deny n }, persist { rt with deny := addNet rt.deny n } disk) := by
  rw [addDeny, editNet, hc, Option.map_some]

/-- It is removed. -/
lemma removeDeny_eq (hc : parseNet crates.ipNet c = some n) : rt.removeDeny crates disk c =
    some ({ rt with deny := removeNet rt.deny n },
      persist { rt with deny := removeNet rt.deny n } disk) := by
  rw [removeDeny, editNet, hc, Option.map_some]

/-- The two calls succeed one after the other. -/
lemma tenFive_edits : ∃ rt₁ disk₁ rt₂ disk₂,
    bareRuntime.addDeny netCrates (fun _ => none) "10.0.0.5/8" = some (rt₁, disk₁) ∧
      rt₁.removeDeny netCrates disk₁ "10.0.0.0/8" = some (rt₂, disk₂) ∧
      rt₂.deny = removeNet (addNet [] tenFive) ten :=
  ⟨_, _, _, _, addDeny_eq parse_tenFive, removeDeny_eq parse_ten, rfl⟩

/-- A network that is added with bits behind the prefix is not removed without them. -/
theorem tenFive_stays : ∃ rt₁ disk₁ rt₂ disk₂,
    bareRuntime.addDeny netCrates (fun _ => none) "10.0.0.5/8" = some (rt₁, disk₁) ∧
      rt₁.removeDeny netCrates disk₁ "10.0.0.0/8" = some (rt₂, disk₂) ∧
      tenFive.SameRange ten ∧ ¬ Forgotten rt₂.deny tenFive := by
  obtain ⟨rt₁, disk₁, rt₂, disk₂, hadd, hremove, hdeny⟩ := tenFive_edits
  refine ⟨rt₁, disk₁, rt₂, disk₂, hadd, hremove, tenFive_sameRange, fun h => ?_⟩
  refine h.absent tenFive ?_ .refl
  rw [hdeny]
  decide

/-- An address with host bits, and its network. -/
theorem tenFive_forgotten_iff : ∃ rt₁ disk₁ rt₂ disk₂,
    bareRuntime.addDeny netCrates (fun _ => none) "10.0.0.5/8" = some (rt₁, disk₁) ∧
      rt₁.removeDeny netCrates disk₁ "10.0.0.0/8" = some (rt₂, disk₂) ∧
      (Forgotten rt₂.deny tenFive ↔
        tenFive = ten ∧ ∀ m ∈ bareRuntime.deny, m.SameRange tenFive → m = tenFive) := by
  obtain ⟨rt₁, disk₁, rt₂, disk₂, hadd, hremove, -⟩ := tenFive_edits
  exact ⟨rt₁, disk₁, rt₂, disk₂, hadd, hremove,
    (forgotten_iff parse_tenFive parse_ten tenFive_sameRange).1 hadd hremove⟩

end Runtime

end Waf
