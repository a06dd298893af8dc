import Waf.Lib.Newest
import Waf.Events

/-!
# Queries of the event store

SQLite compares the times of events as signed integers, to which the bounds of a query are cast. The cast
keeps the order on either side of `2 ^ 63`, and turns a range across it around.
-/

namespace Waf
open Lib

/-- A `u64` cast to `i64`. -/
def asI64 (n : Nat) : Int := if n < 2 ^ 63 then n else n - 2 ^ 64

/-- Is the event in the range, as SQLite compares it? -/
def signedIn (sinceMs untilMs : Nat) (e : Event) : Bool :=
  asI64 sinceMs ≤ asI64 e.tsMs ∧ asI64 e.tsMs ≤ asI64 untilMs

/-- What `query_readonly` may return for the rows of a store: rows of one time come in any order. -/
def QueryReadonly (rows : List Event) (sinceMs untilMs limit : Nat) (out : List Event) : Prop :=
  Newest (fun e => asI64 e.tsMs) (signedIn sinceMs untilMs) (min limit 5000) rows out

variable {sinceMs untilMs : Nat} {e : Event}

/-- The cast keeps the order on either side of `2 ^ 63`. -/
lemma asI64_le_iff {m n : Nat} (hside : m < 2 ^ 63 ↔ n < 2 ^ 63) :
    asI64 m ≤ asI64 n ↔ m ≤ n := by
  rw [asI64, asI64]
  by_cases h : m < 2 ^ 63
  case pos =>
    rw [if_pos h, if_pos (hside.mp h)]
    exact Int.ofNat_le
  case neg =>
    rw [if_neg h, if_neg (fun hn' => h (hside.mpr hn'))]
    omega

/-- A range on one side of `2 ^ 63` has the same events when signed. -/
lemma signedIn_eq (hle : sinceMs ≤ untilMs) (hu : untilMs < 2 ^ 64) (he : e.tsMs < 2 ^ 64)
    (hside : ¬ (sinceMs < 2 ^ 63 ∧ 2 ^ 63 ≤ untilMs)) :
    signedIn sinceMs untilMs e = decide (sinceMs ≤ e.tsMs ∧ e.tsMs ≤ untilMs) := by
  rw [signedIn]
  refine decide_eq_decide.mpr ?_
  simp only [asI64]
  split_ifs <;> omega

/-- A range across `2 ^ 63` has no events when signed. -/
lemma signedIn_across (hs : sinceMs < 2 ^ 63) (hu : 2 ^ 63 ≤ untilMs) (hu' : untilMs < 2 ^ 64) :
    signedIn sinceMs untilMs e = false := by
  rw [signedIn]
  refine decide_eq_false ?_
  rw [asI64, if_pos hs]
  have hneg : asI64 untilMs < 0 := by
    rw [asI64, if_neg (Nat.not_lt.mpr hu)]
    omega
  omega

end Waf
