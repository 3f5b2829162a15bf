import PionTransport.Core.Digits
import PionTransport.Core.Run
import PionTransport.Core.Slice
import PionTransport.Replay.FixedBig

/-!
# The bit register as a number

The words of a `fixedBigInt` are the digits of one number. Its operations are those
of a register of `n` bits: a left shift modulo `2 ^ n`, setting a bit and reading a
bit. The shift loop is stated once more with every index checked, and no index of
it is ever out of range.
-/

namespace PionTransport.Replay

open PionTransport.Core

/-- The new value of word `i` in the shift loop, with checked indices. -/
def lshWord? (bits : List (BitVec 64)) (n i : Nat) : Option (BitVec 64) := do
  let nChunk := n / 64
  let nN := n % 64
  let carry ←
    if nChunk ≤ i then do
      let high ← bits[i - nChunk]?
      if nChunk + 1 ≤ i then do
        let low ← bits[i - nChunk - 1]?
        some ((high <<< nN) ||| (low >>> (64 - nN)))
      else some (high <<< nN)
    else some 0
  let word ← bits[i]?
  return (word <<< n) ||| carry

/-- The loop of `Lsh`, with checked indices. -/
def lshLoop? (n : Nat) : Nat → List (BitVec 64) → Option (List (BitVec 64))
  | 0, bits => some bits
  | i + 1, bits => do
    let word ← lshWord? bits n i
    let bits ← store? bits i word
    lshLoop? n i bits

/-- `Lsh`, with checked indices. -/
def FixedBigInt.lsh? (s : FixedBigInt) (n : Nat) : Option FixedBigInt :=
  if n = 0 then some s
  else do
    let bits ← lshLoop? n s.bits.length s.bits
    let last ← bits[bits.length - 1]?
    let bits ← store? bits (bits.length - 1) (last &&& s.msbMask)
    return { s with bits := bits }

variable {bits : List (BitVec 64)}

theorem getElem?_eq_wordAt {i : Nat} (h : i < bits.length) :
    bits[i]? = some (wordAt bits i) := by
  rw [wordAt, List.getElem?_eq_getElem h, Option.getD_some]

/-- A word that is stored only needs words that are stored. -/
theorem lshWord?_eq {i : Nat} (n : Nat) (h : i < bits.length) :
    lshWord? bits n i = some (lshWord bits n i) := by
  unfold lshWord? lshWord
  by_cases hchunk : n / 64 ≤ i
  · have hhigh := getElem?_eq_wordAt (show i - n / 64 < bits.length by omega)
    by_cases hcarry : n / 64 + 1 ≤ i
    · have hlow := getElem?_eq_wordAt (show i - n / 64 - 1 < bits.length by omega)
      simp [hchunk, hcarry, hhigh, hlow, getElem?_eq_wordAt h]
    · simp [hchunk, hcarry, hhigh, getElem?_eq_wordAt h]
  · simp [hchunk, getElem?_eq_wordAt h]

variable {n : Nat}

theorem lshLoop?_eq {k : Nat} (hk : k ≤ bits.length) :
    lshLoop? n k bits = some (lshLoop n k bits) := by
  induction k generalizing bits with
  | zero => rfl
  | succ k ih =>
    have hlt : k < bits.length := hk
    simp only [lshLoop?, lshWord?_eq n hlt, store?_eq hlt, Option.bind_eq_bind,
      Option.bind_some, lshLoop]
    exact ih (by rw [List.length_set]; omega)

variable {s : FixedBigInt}

/-- No index of the shift is out of range. -/
theorem FixedBigInt.lsh?_eq (h : 0 < s.bits.length) (n : Nat) :
    s.lsh? n = some (s.lsh n) := by
  unfold FixedBigInt.lsh? FixedBigInt.lsh
  by_cases hn : n = 0
  · rw [if_pos hn, if_pos hn]
  · have hlast : (lshLoop n s.bits.length s.bits).length - 1 <
        (lshLoop n s.bits.length s.bits).length := by
      rw [length_lshLoop]
      omega
    simp only [if_neg hn, lshLoop?_eq (Nat.le_refl s.bits.length), Option.bind_eq_bind,
      Option.bind_some, getElem?_eq_wordAt hlast, store?_eq hlast, Option.pure_def]

/-- The words read as one little-endian number. -/
def FixedBigInt.value (s : FixedBigInt) : Nat := ofWords s.bits

theorem FixedBigInt.testBit_value (s : FixedBigInt) (i : Nat) :
    s.value.testBit i = s.testBit i :=
  testBit_ofWords (by decide) s.bits i

/-- The calls of a register. -/
inductive RegisterCall
  | lsh (k : Nat)
  | setBit (i : Nat)
  | bit (i : Nat)
  deriving DecidableEq, Repr

/-- Perform one call; only `Bit` returns a value. -/
def FixedBigInt.step (s : FixedBigInt) : RegisterCall → Option (FixedBigInt × Option Nat)
  | .lsh k => (s.lsh? k).map fun s' => (s', none)
  | .setBit i => (s.setBit i).map fun s' => (s', none)
  | .bit i => (s.bit i).map fun b => (s, some b)

/-- A register of `n` bits. -/
def register (n v : Nat) : RegisterCall → Nat × Option Nat
  | .lsh k => (v * 2 ^ k % 2 ^ n, none)
  | .setBit i => (if i < n then v ||| 2 ^ i else v, none)
  | .bit i => (v, some (if i < n ∧ v.testBit i then 1 else 0))

/-- The register holds a number. -/
structure FixedBigInt.Holds (n : Nat) (s : FixedBigInt) (v : Nat) : Prop where
  valid : s.Valid
  width : s.n = n
  value : s.value = v

theorem FixedBigInt.Valid.value_lt (h : s.Valid) : s.value < 2 ^ s.n := by
  apply Nat.lt_pow_two_of_testBit
  intro i hi
  rw [s.testBit_value, h.beyond i hi]

theorem FixedBigInt.holds_new (h : n + 63 < 2 ^ 64) : (newFixedBigInt n).Holds n 0 := by
  obtain ⟨hvalid, hzero⟩ := newFixedBigInt_valid h
  refine ⟨hvalid, rfl, ?_⟩
  apply Nat.eq_of_testBit_eq
  intro i
  rw [testBit_value, hzero, Nat.zero_testBit]

/-- Every call does to the words what the register does to the number. -/
theorem FixedBigInt.Holds.step {v : Nat} (h : s.Holds n v) (c : RegisterCall) :
    ∃ s', s.step c = some (s', (register n v c).2) ∧ s'.Holds n (register n v c).1 := by
  obtain ⟨hvalid, rfl, rfl⟩ := h
  cases c with
  | lsh k =>
    obtain ⟨hvalid', hwidth, htest⟩ := hvalid.lsh_spec k
    have hwords : 0 < s.bits.length := by
      rw [hvalid.length]
      omega
    refine ⟨s.lsh k, ?_, hvalid', hwidth, ?_⟩
    · simp only [FixedBigInt.step, FixedBigInt.lsh?_eq hwords, Option.map_some, register]
    · apply Nat.eq_of_testBit_eq
      intro i
      rw [testBit_value, htest, register, Nat.testBit_mod_two_pow, Nat.testBit_mul_two_pow,
        testBit_value, Bool.and_assoc]
  | setBit i =>
    obtain ⟨s', hset, hvalid', hwidth, htest⟩ := hvalid.setBit_spec i
    refine ⟨s', ?_, hvalid', hwidth, ?_⟩
    · simp only [FixedBigInt.step, hset, Option.map_some, register]
    · apply Nat.eq_of_testBit_eq
      intro j
      rw [testBit_value, htest, register]
      by_cases hi : i < s.n
      · simp only [hi, and_true, ite_true, Nat.testBit_or, Nat.testBit_two_pow, testBit_value,
          eq_comm (a := i)]
      · simp only [hi, and_false, decide_false, Bool.or_false, ite_false, testBit_value]
  | bit i =>
    refine ⟨s, ?_, hvalid, rfl, rfl⟩
    have hread : s.testBit i = true ↔ i < s.n ∧ s.value.testBit i = true := by
      rw [testBit_value]
      constructor
      · intro hbit
        refine ⟨?_, hbit⟩
        by_contra hge
        rw [hvalid.beyond i (Nat.le_of_not_lt hge)] at hbit
        cases hbit
      · exact And.right
    simp only [FixedBigInt.step, hvalid.bit_eq i, Option.map_some, register, hread]

/-- A `fixedBigInt` is a register of `n` bits. -/
theorem fixedBigInt_is_register (h : n + 63 < 2 ^ 64) (calls : List RegisterCall) :
    (newFixedBigInt n).value = 0 ∧
    ∃ s, run FixedBigInt.step (newFixedBigInt n) calls =
        some (s, (replay (register n) 0 calls).2) ∧
      s.value = (replay (register n) 0 calls).1 ∧ s.value < 2 ^ n := by
  refine ⟨(FixedBigInt.holds_new h).value, ?_⟩
  obtain ⟨s, hrun, hholds⟩ := run_replays (R := FixedBigInt.Holds n)
    (fun s v c hs => hs.step c) calls (FixedBigInt.holds_new h)
  refine ⟨s, hrun, hholds.value, ?_⟩
  rw [← hholds.width]
  exact hholds.valid.value_lt

/-- A shift across a word and out of the width. -/
theorem fixedBigInt_register_of_seventy_bits :
    ∃ s, run FixedBigInt.step (newFixedBigInt 70) [.setBit 3, .lsh 65, .bit 68, .lsh 2] =
        some (s, [none, none, some 1, none]) ∧ s.value = 0 ∧ s.value < 2 ^ 70 :=
  (fixedBigInt_is_register (n := 70) (by decide) [.setBit 3, .lsh 65, .bit 68, .lsh 2]).2

end PionTransport.Replay
