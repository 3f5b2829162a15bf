import Mathlib.Data.Int.Order.Basic
import Mathlib.Tactic.Push

/-!
# Sliding bit windows

A window remembers, for the last `width` positions up to a moving head, which
of them were seen: bit `i` stands for the position `i` behind the head. Moving
the head shifts the bits, and a shift that leaves the window altogether may be
cut to the width. The set of seen positions is arbitrary, so the same two rules
serve counters that wrap, once their positions are unwrapped.
-/

namespace PionTransport.Core

/-- Bit `i` of the window is set exactly when position `head - i` was seen. -/
def Tracks (width : Nat) (bit : Nat → Bool) (head : Int) (seen : Int → Prop) : Prop :=
  ∀ i : Nat, i < width → (bit i = true ↔ seen (head - i))

variable {width : Nat} {bit bit' : Nat → Bool} {head : Int} {seen : Int → Prop}

/-- An empty window tracks an empty set. -/
theorem tracks_empty (hbit : ∀ i, bit i = false) (head : Int) :
    Tracks width bit head fun _ => False := by
  intro i _
  simp only [hbit i, Bool.false_eq_true]

/-- Tracking only depends on the seen set. -/
theorem Tracks.congr {seen' : Int → Prop} (h : Tracks width bit head seen)
    (hs : ∀ p, seen p ↔ seen' p) : Tracks width bit head seen' := by
  intro i hi
  rw [h i hi, hs]

/-- Setting the bit `d` behind the head records that position. -/
theorem Tracks.mark (h : Tracks width bit head seen) {d : Nat}
    (hbit : ∀ i, i < width → bit' i = (bit i || decide (i = d))) :
    Tracks width bit' head fun p => seen p ∨ p = head - d := by
  intro i hi
  rw [hbit i hi, Bool.or_eq_true, decide_eq_true_eq, h i hi]
  exact or_congr_right (by omega)

/-- Moving the head forward shifts the window; a longer shift than the window clears it. -/
theorem Tracks.shift (h : Tracks width bit head seen) (hseen : ∀ p, seen p → p ≤ head) {k : Nat}
    (hbit : ∀ i, i < width →
      bit' i = (decide (min k width ≤ i) && bit (i - min k width))) :
    Tracks width bit' (head + k) seen := by
  intro i hi
  rw [hbit i hi, Bool.and_eq_true, decide_eq_true_eq]
  by_cases hk : k ≤ i
  · have hmin : min k width = k := by omega
    rw [hmin, h (i - k) (by omega)]
    have hpos : head - ((i - k : Nat) : Int) = head + k - i := by omega
    rw [hpos]
    exact ⟨And.right, fun hs => ⟨hk, hs⟩⟩
  · constructor
    · rintro ⟨hle, -⟩
      omega
    · intro hs
      have hle := hseen _ hs
      omega

end PionTransport.Core
