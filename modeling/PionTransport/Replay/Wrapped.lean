import PionTransport.Core.Word
import PionTransport.Replay.Api
import PionTransport.Replay.FixedBig

/-!
# The wrapping detector

An embedding of `wrappedSlidingWindowDetector`. Distances are signed words, so
every operation of `diff` wraps to 64 bits; for limits below `2 ^ 63` the
result is the plain integer distance, also where the wrap constant itself
overflows. The head of a new detector is set by the first check in range.
-/

namespace PionTransport.Replay

open PionTransport.Core

/-- The fields of `wrappedSlidingWindowDetector`. -/
structure WrappedSlidingWindowDetector where
  latestSeq : Nat
  maxSeq : Nat
  windowSize : Nat
  mask : FixedBigInt
  init : Bool
  deriving DecidableEq, Repr

namespace WrappedSlidingWindowDetector

/-- `WithWrap`. -/
def withWrap (windowSize maxSeq : Nat) : WrappedSlidingWindowDetector :=
  ⟨0, maxSeq, windowSize, newFixedBigInt windowSize, false⟩

/-- The signed distance of a number behind the head, wrapped around `maxSeq`. -/
def diff (d : WrappedSlidingWindowDetector) (seq : Nat) : Int :=
  let diff := int64 (int64 d.latestSeq - int64 seq)
  if diff > (int64 d.maxSeq).tdiv 2 then
    int64 (diff - int64 (uint64 (d.maxSeq + 1)))
  else if diff ≤ (int64 (-int64 d.maxSeq)).tdiv 2 then
    int64 (diff + int64 (uint64 (d.maxSeq + 1)))
  else diff

/-- The head a first check of `seq` starts from. -/
def startHead (maxSeq seq : Nat) : Nat := if seq ≠ 0 then seq - 1 else maxSeq

/-- The head set by the first check is in range. -/
theorem startHead_le {maxSeq first : Nat} (hfirst : first ≤ maxSeq) :
    startHead maxSeq first ≤ maxSeq := by
  unfold startHead
  split <;> omega

/-- The initialisation block of `checkSeq`. -/
def initHead (d : WrappedSlidingWindowDetector) (seq : Nat) : WrappedSlidingWindowDetector :=
  if d.init then d
  else { d with latestSeq := startHead d.maxSeq seq, init := true }

/-- The verdict of `checkSeq` on a computed distance. -/
def judge (d : WrappedSlidingWindowDetector) (diff : Int) : Option Bool :=
  if diff ≥ int64 d.windowSize then
    -- too old
    some false
  else if diff ≥ 0 then
    (d.mask.bit (uint64 diff)).map fun b => decide (b = 0)
  else some true

/-- The unexported `checkSeq`; it returns the distance with the verdict. -/
def checkSeq (d : WrappedSlidingWindowDetector) (seq : Nat) :
    Option (WrappedSlidingWindowDetector × Int × Bool) :=
  if seq > d.maxSeq then
    -- exceeded upper limit
    some (d, 0, false)
  else
    let d := d.initHead seq
    (d.judge (d.diff seq)).map fun ok => (d, d.diff seq, ok)

/-- `acceptDiff` moves the head to a number ahead of it, or marks a number behind it. -/
def acceptDiff (d : WrappedSlidingWindowDetector) (seq : Nat) (diff : Int) :
    Option (WrappedSlidingWindowDetector × Bool) :=
  if diff < 0 then do
    let shifted := d.mask.lsh (min (uint64 (int64 (-diff))) d.windowSize)
    let mask ← shifted.setBit 0
    return ({ d with mask := mask, latestSeq := seq }, true)
  else do
    let mask ← d.mask.setBit (uint64 diff)
    return ({ d with mask := mask }, false)

/-- `Check`; the closure reuses the distance of the check. -/
def check (d : WrappedSlidingWindowDetector) (seq : Nat) :
    Option (WrappedSlidingWindowDetector ×
      (WrappedSlidingWindowDetector → Option (WrappedSlidingWindowDetector × Bool)) × Bool) := do
  let (d, diff, ok) ← d.checkSeq seq
  if !ok then
    return (d, nop, false)
  return (d, fun d => d.acceptDiff seq diff, true)

/-- `CheckSeq`. -/
def checkToken (d : WrappedSlidingWindowDetector) (seq : Nat) :
    Option (WrappedSlidingWindowDetector × Token) := do
  let (d, _, ok) ← d.checkSeq seq
  if !ok then
    return (d, rejectedToken seq)
  return (d, passedToken seq)

/-- `Accept`; the distance is computed again from the current head. -/
def accept (d : WrappedSlidingWindowDetector) (tok : Token) :
    Option (WrappedSlidingWindowDetector × Bool) :=
  if !tok.passed then some (d, false) else d.acceptDiff tok.seq (d.diff tok.seq)

/-- The detector as a `CheckAccepter`. -/
def tokenApi : CheckAccepter WrappedSlidingWindowDetector := ⟨checkToken, accept⟩

/-- The detector as a `ReplayDetector`. -/
def closureApi : ReplayDetector WrappedSlidingWindowDetector := ⟨check⟩

/-- A check rejects a number out of range, and otherwise judges it from the head. -/
theorem checkToken_eq (d : WrappedSlidingWindowDetector) (seq : Nat) :
    d.checkToken seq =
      if seq > d.maxSeq then some (d, ⟨seq, false⟩)
      else ((d.initHead seq).judge ((d.initHead seq).diff seq)).map
        fun ok => (d.initHead seq, ⟨seq, ok⟩) := by
  unfold checkToken checkSeq
  by_cases hout : seq > d.maxSeq
  · simp only [hout, ite_true, Option.bind_eq_bind, Option.bind_some, Bool.not_false,
      Option.pure_def, rejectedToken]
  · simp only [hout, ite_false]
    cases (d.initHead seq).judge ((d.initHead seq).diff seq) with
    | none => rfl
    | some ok => cases ok <;> rfl

end WrappedSlidingWindowDetector

/-- The distance of `seq` behind `head`, in plain integers. -/
def wrapDistance (maxSeq head seq : Nat) : Int :=
  if (head : Int) - seq > (maxSeq / 2 : Nat) then head - seq - (maxSeq + 1)
  else if (head : Int) - seq ≤ -((maxSeq / 2 : Nat) : Int) then head - seq + (maxSeq + 1)
  else head - seq

variable {maxSeq head seq : Nat}

/-- The signed arithmetic of `diff` is exact for limits below `2 ^ 63`. -/
theorem WrappedSlidingWindowDetector.diff_eq {d : WrappedSlidingWindowDetector}
    (hmax : d.maxSeq < 2 ^ 63) (hhead : d.latestSeq ≤ d.maxSeq) (hseq : seq ≤ d.maxSeq) :
    d.diff seq = wrapDistance d.maxSeq d.latestSeq seq := by
  have hraw : int64 (int64 d.latestSeq - int64 seq) = (d.latestSeq : Int) - seq := by
    rw [int64_eq, int64_eq, int64_eq] <;> first | omega | (rw [int64_eq, int64_eq] <;> omega)
  have hmid : (int64 d.maxSeq).tdiv 2 = ((d.maxSeq / 2 : Nat) : Int) := by
    rw [int64_eq (by omega) (by omega)]
    rfl
  have hlow : (int64 (-int64 d.maxSeq)).tdiv 2 = -((d.maxSeq / 2 : Nat) : Int) := by
    rw [int64_eq (x := d.maxSeq) (by omega) (by omega), int64_eq (by omega) (by omega),
      Int.neg_tdiv]
    rfl
  unfold diff wrapDistance
  simp only [hraw, hmid, hlow, int64_uint64, int64_sub_int64, int64_add_int64]
  split_ifs with hfar hback
  · exact int64_eq (by omega) (by omega)
  · exact int64_eq (by omega) (by omega)
  · rfl

/-- The distance is the difference up to whole laps. -/
theorem wrapDistance_congr (maxSeq head seq : Nat) :
    ((maxSeq + 1 : Nat) : Int) ∣ (head : Int) - seq - wrapDistance maxSeq head seq := by
  unfold wrapDistance
  split_ifs
  · exact ⟨1, by omega⟩
  · exact ⟨-1, by omega⟩
  · exact ⟨0, by omega⟩

/-- A number ahead of the head is less than a lap ahead. -/
theorem wrapDistance_bounds (hhead : head ≤ maxSeq) (hseq : seq ≤ maxSeq) :
    -(maxSeq + 1 : Int) < wrapDistance maxSeq head seq ∧
      wrapDistance maxSeq head seq ≤ maxSeq + 1 := by
  unfold wrapDistance
  split_ifs <;> omega

/-- The first number of a wrapping detector is one ahead of the head it sets. -/
theorem wrapDistance_startHead (h4 : 4 ≤ maxSeq) :
    wrapDistance maxSeq (WrappedSlidingWindowDetector.startHead maxSeq seq) seq = -1 := by
  unfold wrapDistance WrappedSlidingWindowDetector.startHead
  by_cases hzero : seq = 0
  · rw [if_neg (not_not.mpr hzero), if_pos (by omega)]
    omega
  · rw [if_pos hzero, if_neg (by omega), if_neg (by omega)]
    omega

/-- Within half the range, the distance of a position behind the head is exact. -/
theorem wrapDistance_of_congr (hhead : head ≤ maxSeq) (hseq : seq ≤ maxSeq) {k : Nat}
    (hk : k < maxSeq / 2) (hcongr : ((maxSeq + 1 : Nat) : Int) ∣ (head : Int) - seq - k) :
    wrapDistance maxSeq head seq = k := by
  obtain ⟨c, hc⟩ := hcongr
  have hlo : -1 ≤ c := by
    by_contra hlt
    have : (maxSeq + 1 : Int) * c ≤ (maxSeq + 1) * (-2) :=
      Int.mul_le_mul_of_nonneg_left (by omega) (by omega)
    push_cast at hc
    omega
  have hhi : c ≤ 0 := by
    by_contra hlt
    have : (maxSeq + 1 : Int) * 1 ≤ (maxSeq + 1) * c :=
      Int.mul_le_mul_of_nonneg_left (by omega) (by omega)
    push_cast at hc
    omega
  have hcases : c = 0 ∨ c = -1 := by omega
  unfold wrapDistance
  rcases hcases with rfl | rfl
  · rw [if_neg (by omega), if_neg (by omega)]
    omega
  · rw [if_neg (by omega), if_pos (by omega)]
    omega

end PionTransport.Replay
