import PionTransport.Replay.Wrapped

/-!
# The direction of the wrapped distance

The distance of the wrapping detector is meant to take the shorter way round the
circle of `maxSeq + 1` numbers. Its two comparisons are not symmetric: a number
that is exactly `maxSeq / 2` above the head, without passing zero, is taken the
long way. Everywhere else the distance is the short one, and then it depends
only on the residue of the difference.
-/

namespace PionTransport.Replay

open WrappedSlidingWindowDetector

variable {maxSeq head seq head' seq' : Nat}

/-- The number stands where the comparison with the truncated half goes the wrong way. -/
def FarAhead (maxSeq head seq : Nat) : Prop := seq = head + maxSeq / 2

instance : Decidable (FarAhead maxSeq head seq) := by
  unfold FarAhead
  infer_instance

/-- The residue of a difference that is less than a lap. -/
theorem emod_lap {x : Int} (hlow : -(maxSeq : Int) ≤ x) (hhigh : x ≤ maxSeq) :
    x % (maxSeq + 1) = if 0 ≤ x then x else x + (maxSeq + 1) := by
  split
  next h => exact Int.emod_eq_of_lt h (by omega)
  next h =>
    rw [← Int.add_emod_right]
    exact Int.emod_eq_of_lt (by omega) (by omega)

/-- The distance is the short one, except for a number far ahead. -/
theorem wrapDistance_short_iff (hsmall : 2 ≤ maxSeq) (hhead : head ≤ maxSeq)
    (hseq : seq ≤ maxSeq) :
    2 * (wrapDistance maxSeq head seq).natAbs ≤ maxSeq + 1 ↔ ¬ FarAhead maxSeq head seq := by
  unfold wrapDistance FarAhead
  split_ifs <;> omega

/-- Away from the antipode, two differences with one residue have one distance, unless exactly one
of them is far ahead. -/
theorem wrapDistance_residue_iff (hsmall : 2 ≤ maxSeq) (hhead : head ≤ maxSeq)
    (hseq : seq ≤ maxSeq) (hhead' : head' ≤ maxSeq) (hseq' : seq' ≤ maxSeq)
    (hresidue : ((head' : Int) - seq') % (maxSeq + 1) = ((head : Int) - seq) % (maxSeq + 1))
    (hantipode : 2 * (((head : Int) - seq) % (maxSeq + 1)) ≠ maxSeq + 1) :
    wrapDistance maxSeq head' seq' = wrapDistance maxSeq head seq ↔
      (FarAhead maxSeq head' seq' ↔ FarAhead maxSeq head seq) := by
  rw [emod_lap (by omega) (by omega)] at hresidue hantipode
  rw [emod_lap (by omega) (by omega)] at hresidue
  unfold wrapDistance FarAhead
  split_ifs at hresidue hantipode ⊢ <;> omega

/-- The distance is the difference modulo the number of sequence numbers. It takes the shorter
direction exactly for numbers that are not `maxSeq / 2` above the head; and away from the antipode
it is determined by the residue of the difference, among pairs that are not. -/
theorem diff_shorter_iff {d : WrappedSlidingWindowDetector} (hsmall : 2 ≤ d.maxSeq)
    (hmax : d.maxSeq < 2 ^ 63) (hhead : d.latestSeq ≤ d.maxSeq) (hseq : seq ≤ d.maxSeq) :
    ((d.maxSeq + 1 : Nat) : Int) ∣ (d.latestSeq : Int) - seq - d.diff seq ∧
    (2 * (d.diff seq).natAbs ≤ d.maxSeq + 1 ↔ ¬ FarAhead d.maxSeq d.latestSeq seq) ∧
    ∀ (e : WrappedSlidingWindowDetector) (seq' : Nat), e.maxSeq = d.maxSeq →
      e.latestSeq ≤ d.maxSeq → seq' ≤ d.maxSeq →
      ((e.latestSeq : Int) - seq') % (d.maxSeq + 1) =
        ((d.latestSeq : Int) - seq) % (d.maxSeq + 1) →
      2 * (((d.latestSeq : Int) - seq) % (d.maxSeq + 1)) ≠ d.maxSeq + 1 →
      (e.diff seq' = d.diff seq ↔
        (FarAhead d.maxSeq e.latestSeq seq' ↔ FarAhead d.maxSeq d.latestSeq seq)) := by
  rw [diff_eq hmax hhead hseq]
  refine ⟨wrapDistance_congr _ _ _, wrapDistance_short_iff hsmall hhead hseq, ?_⟩
  intro e seq' hsame hhead' hseq' hresidue hantipode
  rw [← hsame] at hmax hhead' hseq'
  rw [diff_eq hmax hhead' hseq', hsame]
  rw [hsame] at hhead' hseq'
  exact wrapDistance_residue_iff hsmall hhead hseq hhead' hseq' hresidue hantipode

/-- Sixteen-bit numbers on both sides of zero: 65530 is 14 behind 8. -/
theorem diff_shorter_across_zero :
    2 * ((⟨8, 65535, 64, newFixedBigInt 64, true⟩ : WrappedSlidingWindowDetector).diff
      65530).natAbs ≤ 65535 + 1 := by
  have hseq : 65530 ≤ 65535 := by decide
  have hshort := (diff_shorter_iff (d := ⟨8, 65535, 64, newFixedBigInt 64, true⟩)
    (by decide) (by decide) (by decide) hseq).2.1
  exact hshort.mpr (by decide)

/-- From head 0 the number 32767 is 32767 ahead, but it is given as 32769 behind; turning both
numbers on by 32769 puts it ahead again. -/
theorem diff_takes_longer_way :
    (⟨0, 65535, 64, newFixedBigInt 64, true⟩ : WrappedSlidingWindowDetector).diff 32767 = 32769 ∧
    (⟨32769, 65535, 64, newFixedBigInt 64, true⟩ : WrappedSlidingWindowDetector).diff 0 =
      -32767 := by
  decide

end PionTransport.Replay
