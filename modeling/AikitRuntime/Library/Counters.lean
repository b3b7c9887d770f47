import Mathlib.Logic.Basic
import Mathlib.Algebra.Ring.Nat

/-!
# Counters of a fixed width

`u64` counters as natural numbers: `checkedAdd` has no value where the sum does not fit, and
`saturatingAdd` stops at the largest value. A saturating sum that is below the largest value is
the sum.
-/

namespace AikitRuntime.Library

/-- `u64::MAX`. -/
def u64Max : Nat := 2 ^ 64 - 1

/-- `u32::MAX`. -/
def u32Max : Nat := 2 ^ 32 - 1

/-- `i64::MAX`. -/
def i64Max : Nat := 2 ^ 63 - 1

/-- `n.checked_add(m)` on `u64`. -/
def checkedAdd (n m : Nat) : Option Nat := if n + m ≤ u64Max then some (n + m) else none

/-- `n.saturating_add(m)` on `u64`. -/
def saturatingAdd (n m : Nat) : Nat := min (n + m) u64Max

/-- `n.saturating_add(m)` on `u32`. -/
def saturatingAdd32 (n m : Nat) : Nat := min (n + m) u32Max

/-- `n as u32`. -/
def asU32 (n : Nat) : Nat := n % 2 ^ 32

theorem checkedAdd_eq_some {n m k : Nat} : checkedAdd n m = some k ↔ n + m = k ∧ k ≤ u64Max := by
  unfold checkedAdd
  split
  · next h =>
    rw [Option.some.injEq]
    exact ⟨fun heq => ⟨heq, heq ▸ h⟩, fun heq => heq.1⟩
  · next h => exact ⟨nofun, fun ⟨heq, hle⟩ => absurd (heq ▸ hle) h⟩

theorem saturatingAdd_of_lt {n m : Nat} (h : saturatingAdd n m < u64Max) :
    saturatingAdd n m = n + m := by
  unfold saturatingAdd at h ⊢
  omega

/-- A saturating sum of a list, from the left. -/
theorem foldl_saturatingAdd (xs : List Nat) (n : Nat) (hn : n ≤ u64Max) :
    xs.foldl saturatingAdd n = min (n + xs.sum) u64Max := by
  induction xs generalizing n with
  | nil => exact (Nat.min_eq_left hn).symm
  | cons x xs ih =>
    have hle : saturatingAdd n x ≤ u64Max := Nat.min_le_right ..
    rw [List.foldl_cons, ih _ hle, List.sum_cons]
    unfold saturatingAdd
    omega

end AikitRuntime.Library
