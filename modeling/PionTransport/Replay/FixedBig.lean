import Mathlib.Algebra.Group.Nat.Defs
import Mathlib.Data.Nat.Basic
import Mathlib.Data.List.Basic
import PionTransport.Core.Window

/-!
# The fixed-width bit register

`fixedBigInt` keeps a mask of `n` bits in little-endian 64-bit words. A read or
write of a word that was not allocated is a panic (`none`). The word count is
computed with the wrapping unsigned addition of the source, so a width within
63 of the word range allocates a single word; every register whose width does
not overflow is `Valid`, and its operations are described bit by bit.
-/

namespace PionTransport.Replay

open PionTransport.Core

/-- The fields of `fixedBigInt`. -/
structure FixedBigInt where
  /-- Little-endian words. -/
  bits : List (BitVec 64)
  /-- Width in bits. -/
  n : Nat
  /-- The bits of the last word that belong to the register. -/
  msbMask : BitVec 64
  deriving DecidableEq, Repr

/-- `newFixedBigInt`, with the rounding-up addition taken modulo the word range. -/
def newFixedBigInt (n : Nat) : FixedBigInt :=
  let chunkSize := max ((n + 63) % 2 ^ 64 / 64) 1
  { bits := List.replicate chunkSize 0
    n := n
    msbMask := BitVec.allOnes 64 >>> ((64 - n % 64) % 64) }

/-- The word stored at an index; the loop of `Lsh` only reads stored ones. -/
def wordAt (bits : List (BitVec 64)) (i : Nat) : BitVec 64 := bits[i]?.getD 0

/-- The new value of word `i` in the shift loop. -/
def lshWord (bits : List (BitVec 64)) (n i : Nat) : BitVec 64 :=
  let nChunk := n / 64
  let nN := n % 64
  let carry :=
    if nChunk ≤ i then
      (wordAt bits (i - nChunk) <<< nN) |||
        (if nChunk + 1 ≤ i then wordAt bits (i - nChunk - 1) >>> (64 - nN) else 0)
    else 0
  (wordAt bits i <<< n) ||| carry

/-- The loop of `Lsh`, which updates the words in place from the last one down. -/
def lshLoop (n : Nat) : Nat → List (BitVec 64) → List (BitVec 64)
  | 0, bits => bits
  | i + 1, bits => lshLoop n i (bits.set i (lshWord bits n i))

/-- `Lsh`, the left shift within the width. -/
def FixedBigInt.lsh (s : FixedBigInt) (n : Nat) : FixedBigInt :=
  if n = 0 then s
  else
    let bits := lshLoop n s.bits.length s.bits
    let last := bits.length - 1
    { s with bits := bits.set last (wordAt bits last &&& s.msbMask) }

/-- `Bit`, which reads as zero beyond the width. -/
def FixedBigInt.bit (s : FixedBigInt) (i : Nat) : Option Nat :=
  if i ≥ s.n then some 0
  else do
    let w ← s.bits[i / 64]?
    return if w &&& (1#64 <<< (i % 64)) ≠ 0 then 1 else 0

/-- `SetBit`, which ignores positions beyond the width. -/
def FixedBigInt.setBit (s : FixedBigInt) (i : Nat) : Option FixedBigInt :=
  if i ≥ s.n then some s
  else do
    let w ← s.bits[i / 64]?
    return { s with bits := s.bits.set (i / 64) (w ||| (1#64 <<< (i % 64))) }

/-- Bit `i` of the words read as one little-endian number. -/
def FixedBigInt.testBit (s : FixedBigInt) (i : Nat) : Bool :=
  (wordAt s.bits (i / 64)).getLsbD (i % 64)

/-- A register with enough words for its width and no bit set beyond it. -/
structure FixedBigInt.Valid (s : FixedBigInt) : Prop where
  length : s.bits.length = max ((s.n + 63) / 64) 1
  mask : s.msbMask = BitVec.allOnes 64 >>> ((64 - s.n % 64) % 64)
  beyond : ∀ i, s.n ≤ i → s.testBit i = false

variable {bits : List (BitVec 64)} {i : Nat}

theorem wordAt_of_le (h : bits.length ≤ i) :
    wordAt bits i = 0 := by
  rw [wordAt, List.getElem?_eq_none h, Option.getD_none]

theorem wordAt_set (hi : i < bits.length) (w : BitVec 64) (j : Nat) :
    wordAt (bits.set i w) j = if j = i then w else wordAt bits j := by
  unfold wordAt
  by_cases h : j = i
  · subst h
    rw [List.getElem?_set_self hi, ite_cond_eq_true _ _ (eq_self j)]
    rfl
  · rw [List.getElem?_set_ne (Ne.symm h), if_neg h]

/-- Masking with a single bit tests that bit. -/
theorem and_one_shiftLeft_ne_zero (w : BitVec 64) (hi : i < 64) :
    w &&& (1#64 <<< i) ≠ 0 ↔ w.getLsbD i = true := by
  rw [← BitVec.twoPow_eq, BitVec.and_twoPow]
  cases h : w.getLsbD i with
  | false => simp
  | true =>
    simp only [ite_true, iff_true]
    intro hz
    have hbit := congrArg (fun v => v.getLsbD i) hz
    simp [hi] at hbit

/-- A register whose width does not overflow the word count is valid and empty. -/
theorem newFixedBigInt_valid {n : Nat} (h : n + 63 < 2 ^ 64) :
    (newFixedBigInt n).Valid ∧ ∀ i, (newFixedBigInt n).testBit i = false := by
  have hzero : ∀ i, (newFixedBigInt n).testBit i = false := by
    intro i
    simp only [FixedBigInt.testBit, newFixedBigInt, wordAt, List.getElem?_replicate]
    split <;> simp
  refine ⟨⟨?_, rfl, fun i _ => hzero i⟩, hzero⟩
  simp only [newFixedBigInt, List.length_replicate, Nat.mod_eq_of_lt h]

variable {s : FixedBigInt}

/-- Every position inside the width has a stored word. -/
theorem FixedBigInt.Valid.word_lt (h : s.Valid) (hi : i < s.n) :
    i / 64 < s.bits.length := by
  rw [h.length]
  omega

/-- Reading a position with a stored word tests its bit. -/
theorem FixedBigInt.bit_of_stored (hi : i < s.n) (hw : i / 64 < s.bits.length) :
    s.bit i = some (if s.testBit i then 1 else 0) := by
  have hget := List.getElem?_eq_getElem hw
  simp only [FixedBigInt.bit, if_neg (Nat.not_le.mpr hi), hget, Option.bind_eq_bind,
    Option.bind_some, Option.pure_def, and_one_shiftLeft_ne_zero _ (Nat.mod_lt i (by decide)),
    FixedBigInt.testBit, wordAt, Option.getD_some]

/-- Setting a bit of a stored word sets exactly that bit. -/
theorem FixedBigInt.setBit_of_stored (hi : i < s.n) (hw : i / 64 < s.bits.length) :
    ∃ s', s.setBit i = some s' ∧ s'.n = s.n ∧ s'.msbMask = s.msbMask ∧
      s'.bits.length = s.bits.length ∧ ∀ j, s'.testBit j = (s.testBit j || decide (j = i)) := by
  refine ⟨{ s with bits := s.bits.set (i / 64) (s.bits[i / 64] ||| 1#64 <<< (i % 64)) }, ?_, rfl,
    rfl, List.length_set, fun j => ?_⟩
  · simp only [FixedBigInt.setBit, if_neg (Nat.not_le.mpr hi), List.getElem?_eq_getElem hw,
      Option.bind_eq_bind, Option.bind_some, Option.pure_def]
  · have hpos := Nat.mod_lt i (by decide : 0 < 64)
    simp only [FixedBigInt.testBit]
    rw [wordAt_set hw, ← BitVec.twoPow_eq]
    by_cases hword : j / 64 = i / 64
    · have hsame : i % 64 = j % 64 ↔ j = i := by omega
      have hget : wordAt s.bits (i / 64) = s.bits[i / 64] := by
        rw [wordAt, List.getElem?_eq_getElem hw, Option.getD_some]
      simp only [hword, ite_true, BitVec.getLsbD_or, BitVec.getLsbD_twoPow, hpos, decide_true,
        Bool.true_and, hget, hsame]
    · have hne : j ≠ i := fun he => hword (congrArg (· / 64) he)
      simp [hword, hne]

/-- Reading a valid register never panics. -/
theorem FixedBigInt.Valid.bit_eq (h : s.Valid) (i : Nat) :
    s.bit i = some (if s.testBit i then 1 else 0) := by
  by_cases hi : i ≥ s.n
  · simp [FixedBigInt.bit, hi, h.beyond i hi]
  · have hlt := Nat.lt_of_not_le hi
    exact s.bit_of_stored hlt (h.word_lt hlt)

/-- Setting a bit of a valid register sets exactly that bit, if it is inside the width. -/
theorem FixedBigInt.Valid.setBit_spec (h : s.Valid) (i : Nat) :
    ∃ s', s.setBit i = some s' ∧ s'.Valid ∧ s'.n = s.n ∧
      ∀ j, s'.testBit j = (s.testBit j || decide (j = i ∧ i < s.n)) := by
  by_cases hi : i ≥ s.n
  · refine ⟨s, if_pos hi, h, rfl, fun j => ?_⟩
    simp [Nat.not_lt.mpr hi]
  · have hlt := Nat.lt_of_not_le hi
    obtain ⟨s', hset, hn, hmask, hlen, htest⟩ := s.setBit_of_stored hlt (h.word_lt hlt)
    refine ⟨s', hset, ⟨?_, ?_, fun j hj => ?_⟩, hn, fun j => ?_⟩
    · rw [hlen, hn, h.length]
    · rw [hmask, hn, h.mask]
    · have hne : j ≠ i := fun he => hi (by rw [← he, ← hn]; exact hj)
      rw [htest, h.beyond j (hn ▸ hj)]
      simp [hne]
    · simp [htest, hlt]

@[simp] theorem length_lshLoop (n k : Nat) (bits : List (BitVec 64)) :
    (lshLoop n k bits).length = bits.length := by
  induction k generalizing bits with
  | zero => rfl
  | succ k ih => rw [lshLoop, ih, List.length_set]

/-- A word of the shift only depends on the words up to its own index. -/
theorem lshWord_set {n k : Nat} (hk : k < bits.length) (hi : i < k) (w : BitVec 64) :
    lshWord (bits.set k w) n i = lshWord bits n i := by
  have hne : ∀ j, j ≤ i → wordAt (bits.set k w) j = wordAt bits j := by
    intro j hj
    rw [wordAt_set hk, if_neg (by omega)]
  simp only [lshWord, hne i le_rfl, hne (i - n / 64) (by omega), hne (i - n / 64 - 1) (by omega)]

/-- Updating in place from the last word down computes every word from the old ones. -/
theorem wordAt_lshLoop (n : Nat) {k : Nat} (hk : k ≤ bits.length) (i : Nat) :
    wordAt (lshLoop n k bits) i = if i < k then lshWord bits n i else wordAt bits i := by
  induction k generalizing bits with
  | zero => rfl
  | succ k ih =>
    have hk' : k < bits.length := by omega
    rw [lshLoop, ih (by rw [List.length_set]; omega), wordAt_set hk']
    by_cases hi : i < k
    · rw [if_pos hi, if_pos (by omega), lshWord_set hk' hi]
    · by_cases hik : i = k
      · rw [if_neg hi, if_pos hik, if_pos (by omega), hik]
      · rw [if_neg hi, if_neg hik, if_neg (by omega)]

/-- Bit `i` of the shifted words is bit `i - n` of the old ones. -/
theorem getLsbD_lshWord (bits : List (BitVec 64)) (n i : Nat) :
    (lshWord bits n (i / 64)).getLsbD (i % 64) =
      (decide (n ≤ i) && (wordAt bits ((i - n) / 64)).getLsbD ((i - n) % 64)) := by
  have hpos := Nat.mod_lt i (by decide : 0 < 64)
  simp only [lshWord, BitVec.getLsbD_or, BitVec.getLsbD_shiftLeft, hpos, decide_true,
    Bool.true_and]
  by_cases hle : n ≤ i
  · by_cases hlow : i % 64 < n % 64
    · -- the bit comes from the word below, through the carry
      have hword : i / 64 - n / 64 - 1 = (i - n) / 64 := by omega
      have hbit : 64 - n % 64 + i % 64 = (i - n) % 64 := by omega
      simp only [show i % 64 < n by omega, hlow, show n / 64 ≤ i / 64 by omega,
        show n / 64 + 1 ≤ i / 64 by omega, hle, ite_true, BitVec.getLsbD_or,
        BitVec.getLsbD_shiftLeft, BitVec.getLsbD_ushiftRight, hword, hbit, hpos, decide_true,
        Bool.not_true, Bool.false_and, Bool.and_false, Bool.false_or, Bool.true_and]
    · have hword : i / 64 - n / 64 = (i - n) / 64 := by omega
      have hbit : i % 64 - n % 64 = (i - n) % 64 := by omega
      have hcarry : ∀ w : BitVec 64, (if n / 64 + 1 ≤ i / 64 then w >>> (64 - n % 64)
          else 0).getLsbD (i % 64) = false := by
        intro w
        split
        · rw [BitVec.getLsbD_ushiftRight, BitVec.getLsbD_of_ge _ _ (by omega)]
        · simp
      simp only [hlow, show n / 64 ≤ i / 64 by omega, hle, ite_true, BitVec.getLsbD_or,
        BitVec.getLsbD_shiftLeft, hcarry, hword, hbit, hpos, decide_true, decide_false,
        Bool.not_false, Bool.true_and, Bool.or_false]
      by_cases hsame : i % 64 < n
      · simp only [hsame, decide_true, Bool.not_true, Bool.false_and, Bool.false_or]
      · -- a shift by less than one word sees the same bit twice
        simp only [hsame, decide_false, Bool.not_false, Bool.true_and,
          show i / 64 = (i - n) / 64 by omega, show i % 64 - n = (i - n) % 64 by omega,
          Bool.or_self]
  · have hsmall : i % 64 < n := by omega
    simp only [hle, hsmall, decide_true, decide_false, Bool.not_true, Bool.false_and,
      Bool.false_or]
    split
    · have hlow : i % 64 < n % 64 := by omega
      simp only [BitVec.getLsbD_or, BitVec.getLsbD_shiftLeft, hlow, hpos, decide_true,
        Bool.not_true, Bool.false_and, Bool.and_false, Bool.false_or,
        show ¬ n / 64 + 1 ≤ i / 64 by omega, ite_false]
      simp
    · simp

/-- The last word of a valid register keeps exactly the bits inside the width. -/
theorem FixedBigInt.Valid.mask_getLsbD (h : s.Valid) (hn : 0 < s.n)
    (hi : i / 64 = s.bits.length - 1) : s.msbMask.getLsbD (i % 64) = decide (i < s.n) := by
  have hlen := h.length
  rw [h.mask, BitVec.getLsbD_ushiftRight, BitVec.getLsbD_allOnes, decide_eq_decide]
  omega

/-- Shifting a valid register moves every bit up and drops those that leave the width. -/
theorem FixedBigInt.Valid.lsh_spec (h : s.Valid) (k : Nat) :
    (s.lsh k).Valid ∧ (s.lsh k).n = s.n ∧
      ∀ i, (s.lsh k).testBit i = (decide (i < s.n) && decide (k ≤ i) && s.testBit (i - k)) := by
  have htest : ∀ i, (s.lsh k).testBit i =
      (decide (i < s.n) && decide (k ≤ i) && s.testBit (i - k)) := by
    intro i
    unfold FixedBigInt.lsh
    by_cases hk : k = 0
    · subst hk
      cases hi : decide (i < s.n) with
      | true => simp
      | false => simpa using h.beyond i (by simpa using hi)
    · rw [if_neg hk]
      have hlen := h.length
      have hlast : s.bits.length - 1 < (lshLoop k s.bits.length s.bits).length := by
        rw [length_lshLoop]
        omega
      simp only [FixedBigInt.testBit, length_lshLoop, wordAt_set hlast,
        wordAt_lshLoop k (le_refl s.bits.length)]
      have hshift := getLsbD_lshWord s.bits k i
      by_cases hstored : i / 64 < s.bits.length
      · by_cases hend : i / 64 = s.bits.length - 1
        · simp only [hend, ite_true, show s.bits.length - 1 < s.bits.length by omega,
            BitVec.getLsbD_and]
          rw [← hend, hshift]
          by_cases hn : 0 < s.n
          · rw [h.mask_getLsbD hn hend, Bool.and_comm, Bool.and_assoc]
          · have hzero := h.beyond (i - k) (by omega)
            simp only [FixedBigInt.testBit] at hzero
            simp [hzero]
        · have hin : i < s.n := by omega
          simp only [hend, hstored, ite_true, ite_false, hshift, hin, decide_true, Bool.true_and]
      · have hout : ¬ i < s.n := by omega
        simp [hstored, show i / 64 ≠ s.bits.length - 1 by omega, hout,
          wordAt_of_le (Nat.le_of_not_lt hstored)]
  refine ⟨⟨?_, ?_, ?_⟩, ?_, htest⟩
  · unfold FixedBigInt.lsh
    split
    · exact h.length
    · simpa using h.length
  · unfold FixedBigInt.lsh
    split <;> exact h.mask
  · intro i hi
    rw [htest]
    have hn : (s.lsh k).n = s.n := by unfold FixedBigInt.lsh; split <;> rfl
    simp [Nat.not_lt.mpr (hn ▸ hi)]
  · unfold FixedBigInt.lsh
    split <;> rfl

/-- Shifting an empty register changes nothing, whatever its word count. -/
theorem lsh_newFixedBigInt (n k : Nat) : (newFixedBigInt n).lsh k = newFixedBigInt n := by
  have hword : ∀ m i, wordAt (List.replicate m (0 : BitVec 64)) i = 0 := by
    intro m i
    rw [wordAt, List.getElem?_replicate]
    split <;> rfl
  have hset : ∀ m i, (List.replicate m (0 : BitVec 64)).set i 0 = List.replicate m 0 := by
    intro m i
    exact List.set_replicate_self
  have hloop : ∀ m i, lshLoop k i (List.replicate m 0) = List.replicate m 0 := by
    intro m i
    induction i with
    | zero => rfl
    | succ i ih =>
      have hshift : lshWord (List.replicate m 0) k i = 0 := by
        simp only [lshWord, hword]
        simp
      rw [lshLoop, hshift, hset, ih]
  have hand : ∀ w : BitVec 64, (0 : BitVec 64) &&& w = 0 := fun w => BitVec.zero_and
  unfold FixedBigInt.lsh
  split
  · rfl
  · simp only [newFixedBigInt, hloop, hword, hand, hset]

/-- Setting a bit of a window records its position; positions outside are not kept. -/
theorem FixedBigInt.Valid.setBit_tracks (h : s.Valid) {head : Int} {seen : Int → Prop}
    (htracks : Tracks s.n s.testBit head seen) (k : Nat) :
    ∃ s', s.setBit k = some s' ∧ s'.Valid ∧ s'.n = s.n ∧
      Tracks s.n s'.testBit head fun p => seen p ∨ p = head - k := by
  obtain ⟨s', hset, hvalid, hwidth, htest⟩ := h.setBit_spec k
  refine ⟨s', hset, hvalid, hwidth, htracks.mark fun i hi => ?_⟩
  rw [htest]
  congr 1
  rw [decide_eq_decide]
  exact ⟨And.left, fun he => ⟨he, he ▸ hi⟩⟩

/-- Shifting a window, by at most its width, moves its head. -/
theorem FixedBigInt.Valid.lsh_tracks (h : s.Valid) {head : Int} {seen : Int → Prop}
    (htracks : Tracks s.n s.testBit head seen) (hseen : ∀ p, seen p → p ≤ head) (k : Nat) :
    (s.lsh (min k s.n)).Valid ∧ (s.lsh (min k s.n)).n = s.n ∧
      Tracks s.n (s.lsh (min k s.n)).testBit (head + k) seen := by
  obtain ⟨hvalid, hwidth, htest⟩ := h.lsh_spec (min k s.n)
  refine ⟨hvalid, hwidth, htracks.shift hseen fun i hi => ?_⟩
  rw [htest]
  simp [hi]

end PionTransport.Replay
