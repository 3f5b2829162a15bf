import Mathlib.Data.List.Range

/-!
# Byte memory

A memory of bytes that remembers which of them were read and written. Words are made of
the bytes at consecutive addresses in either byte order, and come apart into the same
bytes.
-/

namespace PionTransport.Core

/-- A memory, with the addresses of the bytes read and written so far. -/
structure Memory where
  bytes : Nat → UInt8
  reads : List Nat := []
  writes : List Nat := []

/-- How the bytes of a word lie in memory. -/
inductive ByteOrder
  | little
  | big
  deriving DecidableEq, Repr

/-- The place in a word of the byte with a number, or the number of the byte in a place. -/
def ByteOrder.place : ByteOrder → Nat → Nat → Nat
  | .little, _, i => i
  | .big, size, i => size - 1 - i

theorem ByteOrder.place_lt (order : ByteOrder) {size i : Nat} (h : i < size) :
    order.place size i < size := by
  cases order <;> simp only [place] <;> omega

theorem ByteOrder.place_place (order : ByteOrder) {size i : Nat} (h : i < size) :
    order.place size (order.place size i) = i := by
  cases order <;> simp only [place]
  omega

section Words

variable {w : Nat}

/-- The word with the given bytes, least significant first. -/
def wordOf (w : Nat) : Nat → (Nat → UInt8) → BitVec w
  | 0, _ => 0
  | size + 1, f => wordOf w size f ||| (f size).toBitVec.setWidth w <<< (8 * size)

/-- A byte of a word. -/
def byteOf (v : BitVec w) (i : Nat) : UInt8 := ⟨v.extractLsb' (8 * i) 8⟩

theorem getLsbD_wordOf {size : Nat} (f : Nat → UInt8) (hsize : 8 * size ≤ w) (j : Nat) :
    (wordOf w size f).getLsbD j =
      (decide (j < 8 * size) && (f (j / 8)).toBitVec.getLsbD (j % 8)) := by
  induction size with
  | zero => simp [wordOf]
  | succ size ih =>
    rw [wordOf, BitVec.getLsbD_or, ih (by omega), BitVec.getLsbD_shiftLeft,
      BitVec.getLsbD_setWidth]
    by_cases hj : j < 8 * size
    · have hj' : j < 8 * (size + 1) := by omega
      simp [hj, hj']
    · by_cases hlast : j < 8 * (size + 1)
      · have hdiv : j / 8 = size := by omega
        have hmod : j % 8 = j - 8 * size := by omega
        have hw : j < w := by omega
        have hw' : j - 8 * size < w := by omega
        simp [hj, hlast, hdiv, hmod, hw, hw']
      · have hout : (f size).toBitVec.getLsbD (j - 8 * size) = false := by
          apply BitVec.getLsbD_of_ge
          omega
        simp [hj, hlast, hout]

theorem byteOf_wordOf {size i : Nat} (f : Nat → UInt8) (hsize : 8 * size ≤ w) (hi : i < size) :
    byteOf (wordOf w size f) i = f i := by
  apply UInt8.eq_of_toBitVec_eq
  apply BitVec.eq_of_getLsbD_eq
  intro j hj
  have hdiv : (8 * i + j) / 8 = i := by omega
  have hmod : (8 * i + j) % 8 = j := by omega
  have hlt : 8 * i + j < 8 * size := by omega
  simp [byteOf, getLsbD_wordOf f hsize, hj, hdiv, hmod, hlt]

theorem byteOf_xor (v v' : BitVec w) (i : Nat) :
    byteOf (v ^^^ v') i = byteOf v i ^^^ byteOf v' i := by
  apply UInt8.eq_of_toBitVec_eq
  apply BitVec.eq_of_getLsbD_eq
  intro j hj
  simp [byteOf, hj]

/-- The sign stands above the bytes of the narrow word. -/
theorem byteOf_signExtend {w' i : Nat} (v : BitVec w) (hi : 8 * i + 8 ≤ w) (hw : w ≤ w') :
    byteOf (v.signExtend w') i = byteOf v i := by
  apply UInt8.eq_of_toBitVec_eq
  apply BitVec.eq_of_getLsbD_eq
  intro j hj
  have hlt : 8 * i + j < w := by omega
  have hlt' : 8 * i + j < w' := by omega
  simp [byteOf, BitVec.getElem_signExtend, hj, hlt, hlt']

end Words

namespace Memory

variable {m : Memory} {p q size : Nat}

/-- Remember that the bytes at some addresses were read. -/
def read (m : Memory) (p size : Nat) : Memory := { m with reads := m.reads ++ List.range' p size }

/-- The word at an address. -/
def word (order : ByteOrder) (size : Nat) (m : Memory) (p : Nat) : BitVec (8 * size) :=
  wordOf (8 * size) size fun i => m.bytes (p + order.place size i)

/-- Write bytes to consecutive addresses. -/
def write (m : Memory) (p size : Nat) (f : Nat → UInt8) : Memory :=
  { m with
    bytes := fun q => if p ≤ q ∧ q < p + size then f (q - p) else m.bytes q
    writes := m.writes ++ List.range' p size }

/-- Write the low bytes of a word. -/
def writeWord {w : Nat} (order : ByteOrder) (size : Nat) (m : Memory) (p : Nat) (v : BitVec w) :
    Memory :=
  m.write p size fun i => byteOf v (order.place size i)

@[simp] theorem read_bytes : (m.read p size).bytes = m.bytes := rfl

@[simp] theorem read_writes : (m.read p size).writes = m.writes := rfl

@[simp] theorem write_reads (f : Nat → UInt8) : (m.write p size f).reads = m.reads := rfl

@[simp] theorem mem_read_reads :
    q ∈ (m.read p size).reads ↔ q ∈ m.reads ∨ p ≤ q ∧ q < p + size := by
  simp [read, List.mem_range'_1]

@[simp] theorem mem_write_writes (f : Nat → UInt8) :
    q ∈ (m.write p size f).writes ↔ q ∈ m.writes ∨ p ≤ q ∧ q < p + size := by
  simp [write, List.mem_range'_1]

theorem write_bytes_at (f : Nat → UInt8) {i : Nat} (hi : i < size) :
    (m.write p size f).bytes (p + i) = f i := by
  simp [write, hi]

theorem write_bytes_off (f : Nat → UInt8) (hq : q < p ∨ p + size ≤ q) :
    (m.write p size f).bytes q = m.bytes q := by
  simp only [write]
  rw [if_neg]
  omega

theorem byteOf_word {order : ByteOrder} {i : Nat} (hi : i < size) :
    byteOf (m.word order size p) (order.place size i) = m.bytes (p + i) := by
  rw [word, byteOf_wordOf _ (Nat.le_refl _) (order.place_lt hi), order.place_place hi]

end Memory

end PionTransport.Core
