import Mathlib.Algebra.Group.Nat.Defs
import Mathlib.Data.Nat.Digits.Defs

/-!
# Bits of multi-word numbers

Words of `w` bits, the least significant first, are the digits of a number in base
`2 ^ w`. Its bits are those of its words, and it is determined by them.
-/

namespace PionTransport.Core

variable {w : Nat}

/-- The number whose digits are the words. -/
def ofWords (ws : List (BitVec w)) : Nat := Nat.ofDigits (2 ^ w) (ws.map BitVec.toNat)

@[simp] theorem ofWords_nil : ofWords ([] : List (BitVec w)) = 0 := rfl

theorem ofWords_cons (x : BitVec w) (ws : List (BitVec w)) :
    ofWords (x :: ws) = 2 ^ w * ofWords ws + x.toNat := by
  simp only [ofWords, List.map_cons, Nat.ofDigits_cons]
  exact Nat.add_comm _ _

/-- Bit `i` of a number is a bit of its word `i / w`. -/
theorem testBit_ofWords (hw : 0 < w) (ws : List (BitVec w)) (i : Nat) :
    (ofWords ws).testBit i = (ws[i / w]?.getD 0).getLsbD (i % w) := by
  induction ws generalizing i with
  | nil => simp
  | cons x ws ih =>
    rw [ofWords_cons, Nat.testBit_two_pow_mul_add _ x.isLt]
    by_cases hi : i < w
    · rw [if_pos hi, Nat.div_eq_of_lt hi, Nat.mod_eq_of_lt hi]
      rfl
    · have hle := Nat.le_of_not_lt hi
      have hdiv : i / w = (i - w) / w + 1 := by
        rw [← Nat.add_div_right _ hw, Nat.sub_add_cancel hle]
      have hmod : i % w = (i - w) % w := Nat.mod_eq_sub_mod hle
      rw [if_neg hi, ih, hdiv, hmod, List.getElem?_cons_succ]

end PionTransport.Core
