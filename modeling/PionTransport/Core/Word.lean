import Mathlib.Algebra.Group.Int.Defs
import Mathlib.Algebra.Group.Nat.Defs
import Mathlib.Data.Int.Order.Basic
import Mathlib.Tactic.Push

/-!
# Conversions between machine words

Signed 64-bit values are integers kept in the signed range by `int64`, which is
also the conversion of an unsigned word and the wraparound of a signed result.
Unsigned words are naturals. Arithmetic that leaves the range and returns to it
is exact, which is what the two absorption rules are for.
-/

namespace PionTransport.Core

/-- The signed 64-bit value congruent to an integer. -/
def int64 (x : Int) : Int := x.bmod (2 ^ 64)

/-- The unsigned 64-bit value congruent to an integer. -/
def uint64 (x : Int) : Nat := (x % 2 ^ 64).toNat

theorem int64_eq {x : Int} (hlo : -2 ^ 63 ≤ x) (hhi : x < 2 ^ 63) : int64 x = x := by
  unfold int64
  apply Int.bmod_eq_of_le <;> omega

theorem int64_sub_int64 (x y : Int) : int64 (x - int64 y) = int64 (x - y) := by
  unfold int64
  simp

theorem int64_add_int64 (x y : Int) : int64 (x + int64 y) = int64 (x + y) := by
  unfold int64
  simp

theorem int64_uint64 (x : Int) : int64 (uint64 x) = int64 x := by
  unfold int64 uint64
  rw [Int.toNat_of_nonneg (Int.emod_nonneg x (by decide))]
  exact Int.emod_bmod x (2 ^ 64)

theorem uint64_eq {x : Nat} (h : x < 2 ^ 64) : uint64 x = x := by
  unfold uint64
  omega

/-- A word above the signed range converts to a negative value. -/
theorem int64_neg {x : Nat} (hlo : 2 ^ 63 ≤ x) (hhi : x < 2 ^ 64) :
    int64 x = (x : Int) - 2 ^ 64 := by
  have h : int64 x = int64 ((x : Int) - 2 ^ 64) := by
    unfold int64
    exact (Int.sub_bmod_right x (2 ^ 64)).symm
  rw [h, int64_eq] <;> omega

end PionTransport.Core
