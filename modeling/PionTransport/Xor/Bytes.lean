import Mathlib.Algebra.Group.Nat.Defs
import PionTransport.Core.Memory

/-!
# Byte-wise xor

The slices of a process lie in its memory, so that they may overlap. A function that
panics leaves the memory as it is then (`Except.error`). `Xored` says what all the ways
to xor two slices have in common: which bytes are read, which are written, and what they
are then. It is extended chunk by chunk, whatever the size of a chunk.
-/

namespace PionTransport.Xor

open PionTransport.Core

/-- A slice of bytes where addresses have the given number of bits. -/
structure Slice (bits : Nat) where
  base : Nat
  len : Nat
  fits : base + len ≤ 2 ^ bits
  int : len < 2 ^ (bits - 1)
  deriving DecidableEq

variable {bits : Nat} {dst a b : Slice bits} {m m' : Memory}

/-- The bounds check of an index expression. -/
def Slice.check (s : Slice bits) (i : Int) (m : Memory) : Except Memory Unit :=
  if 0 ≤ i ∧ i < s.len then .ok () else .error m

/-- `isAligned` of the first byte. -/
def isAligned (wordSize : Nat) (s : Slice bits) (m : Memory) : Except Memory Bool := do
  s.check 0 m
  return s.base % wordSize = 0

/-- Whether all three slices are aligned. -/
def allAligned (wordSize : Nat) (dst a b : Slice bits) (m : Memory) : Except Memory Bool := do
  if ← isAligned wordSize dst m then
    if ← isAligned wordSize a m then isAligned wordSize b m else return false
  else return false

/-- The length of the shorter slice. -/
def minLen (a b : Slice bits) : Nat := if b.len < a.len then b.len else a.len

/-- The loop over the indices from `lo` up to `hi`. -/
def forRange (lo hi : Nat) (body : Memory → Nat → Except Memory Memory) (m : Memory) :
    Except Memory Memory :=
  (List.range' lo (hi - lo)).foldlM body m

/-- `dst[i] = a[i] ^ b[i]`. -/
def xorByte (dst a b : Slice bits) (m : Memory) (i : Nat) : Except Memory Memory := do
  a.check i m
  let x := m.bytes (a.base + i)
  let m := m.read (a.base + i) 1
  b.check i m
  let y := m.bytes (b.base + i)
  let m := m.read (b.base + i) 1
  dst.check i m
  return m.write (dst.base + i) 1 fun _ => x ^^^ y

/-- `safeXORBytes`. -/
def safeXORBytes (dst a b : Slice bits) (n : Nat) (m : Memory) : Except Memory Memory :=
  forRange 0 n (xorByte dst a b) m

section Loops

theorem forRange_keeps {body : Memory → Nat → Except Memory Memory} {I : Nat → Memory → Prop}
    {lo hi : Nat} (hle : lo ≤ hi)
    (hbody : ∀ i m, lo ≤ i → i < hi → I i m → ∃ m', body m i = .ok m' ∧ I (i + 1) m')
    (h : I lo m) : ∃ m', forRange lo hi body m = .ok m' ∧ I hi m' := by
  obtain ⟨count, rfl⟩ := Nat.exists_eq_add_of_le hle
  rw [forRange, Nat.add_sub_cancel_left]
  clear hle
  induction count generalizing lo m with
  | zero => exact ⟨m, rfl, h⟩
  | succ count ih =>
    obtain ⟨m₁, hm₁, h₁⟩ := hbody lo m (Nat.le_refl _) (by omega) h
    obtain ⟨m', hm', h'⟩ := ih h₁ fun i m hlo hhi => hbody i m (by omega) (by omega)
    refine ⟨m', ?_, by rwa [show lo + (count + 1) = lo + 1 + count by omega]⟩
    rw [List.range'_succ, List.foldlM_cons, hm₁]
    exact hm'

theorem check_ok {s : Slice bits} {i : Nat} (h : i < s.len) : s.check i m = .ok () := by
  rw [Slice.check, if_pos]
  omega

theorem allAligned_ok {wordSize : Nat} (hdst : 0 < dst.len) (ha : 0 < a.len) (hb : 0 < b.len) :
    ∃ aligned, allAligned wordSize dst a b m = .ok aligned := by
  have hok : ∀ s : Slice bits, 0 < s.len →
      isAligned wordSize s m = .ok (decide (s.base % wordSize = 0)) := by
    intro s hs
    rw [isAligned, show s.check 0 m = .ok () from check_ok hs]
    rfl
  unfold allAligned
  rw [hok dst hdst, hok a ha, hok b hb]
  cases decide (dst.base % wordSize = 0) with
  | false => exact ⟨false, rfl⟩
  | true =>
    cases decide (a.base % wordSize = 0) with
    | false => exact ⟨false, rfl⟩
    | true => exact ⟨_, rfl⟩

end Loops

/-- The first `n` bytes at one address are the same ones as those at the other, or other ones. -/
def NotPartial (n p q : Nat) : Prop := p = q ∨ p + n ≤ q ∨ q + n ≤ p

instance (n p q : Nat) : Decidable (NotPartial n p q) := by
  unfold NotPartial
  infer_instance

/-- The first `n` bytes at `dst` are the xor of those at `a` and `b`, no other byte is written or
has changed, and no other ones have been read. -/
structure Xored (dst a b n : Nat) (m m' : Memory) : Prop where
  bytes : ∀ i < n, m'.bytes (dst + i) = m.bytes (a + i) ^^^ m.bytes (b + i)
  kept : ∀ q, (∀ i < n, q ≠ dst + i) → m'.bytes q = m.bytes q
  reads : ∀ q, q ∈ m'.reads ↔ q ∈ m.reads ∨ ∃ i < n, q = a + i ∨ q = b + i
  writes : ∀ q, q ∈ m'.writes ↔ q ∈ m.writes ∨ ∃ i < n, q = dst + i

namespace Xored

variable {p q r n k size : Nat}

theorem refl (p q r : Nat) (m : Memory) : Xored p q r 0 m m where
  bytes _ hi := (Nat.not_lt_zero _ hi).elim
  kept _ _ := rfl
  reads _ := by simp
  writes _ := by simp

/-- What is still to be read has not been written. -/
theorem source (h : Xored p q r k m m') {x i : Nat} (hpx : NotPartial n p x) (hk : k ≤ i)
    (hi : i < n) : m'.bytes (x + i) = m.bytes (x + i) := by
  apply h.kept
  intro j hj
  unfold NotPartial at hpx
  omega

/-- One more chunk. -/
theorem extend (h : Xored p q r k m m') (hpq : NotPartial n p q) (hpr : NotPartial n p r)
    (hk : k + size ≤ n) {f : Nat → UInt8}
    (hf : ∀ i < size, f i = m'.bytes (q + k + i) ^^^ m'.bytes (r + k + i)) :
    Xored p q r (k + size) m
      (((m'.read (q + k) size).read (r + k) size).write (p + k) size f) where
  bytes i hi := by
    by_cases hik : i < k
    · rw [Memory.write_bytes_off _ (by omega)]
      exact h.bytes i hik
    · obtain ⟨j, rfl⟩ := Nat.exists_eq_add_of_le (Nat.le_of_not_lt hik)
      have hq := h.source hpq (Nat.le_of_not_lt hik) (by omega)
      have hr := h.source hpr (Nat.le_of_not_lt hik) (by omega)
      rw [← Nat.add_assoc, Memory.write_bytes_at _ (by omega), hf j (by omega), Nat.add_assoc q,
        Nat.add_assoc r, hq, hr]
  kept x hx := by
    have hoff : x < p + k ∨ p + k + size ≤ x := by
      by_contra hin
      exact hx (x - p) (by omega) (by omega)
    rw [Memory.write_bytes_off _ hoff]
    exact h.kept x fun i hi => hx i (by omega)
  reads x := by
    simp only [Memory.write_reads, Memory.mem_read_reads, h.reads x, or_assoc]
    apply or_congr_right
    constructor
    · rintro (⟨i, hi, hx⟩ | hx | hx)
      · exact ⟨i, by omega, hx⟩
      · exact ⟨x - q, by omega, by omega⟩
      · exact ⟨x - r, by omega, by omega⟩
    · rintro ⟨i, hi, hx⟩
      by_cases hik : i < k
      · exact .inl ⟨i, hik, hx⟩
      · omega
  writes x := by
    simp only [Memory.mem_write_writes, Memory.read_writes, h.writes x, or_assoc]
    apply or_congr_right
    constructor
    · rintro (⟨i, hi, hx⟩ | hx)
      · exact ⟨i, by omega, hx⟩
      · exact ⟨x - p, by omega, by omega⟩
    · rintro ⟨i, hi, hx⟩
      by_cases hik : i < k
      · exact .inl ⟨i, hik, hx⟩
      · omega

/-- The bytes of the result are determined. -/
theorem bytes_eq {m₁ m₂ : Memory} (h₁ : Xored p q r n m m₁) (h₂ : Xored p q r n m m₂) :
    m₁.bytes = m₂.bytes := by
  ext x
  by_cases hx : ∀ i < n, x ≠ p + i
  · rw [h₁.kept x hx, h₂.kept x hx]
  · push Not at hx
    obtain ⟨i, hi, rfl⟩ := hx
    rw [h₁.bytes i hi, h₂.bytes i hi]

end Xored

section Correct

variable {n : Nat}

theorem xorByte_xored {i : Nat} (hdst : i < dst.len) (ha : i < a.len) (hb : i < b.len)
    (hpa : NotPartial n dst.base a.base) (hpb : NotPartial n dst.base b.base) (hi : i < n)
    (h : Xored dst.base a.base b.base i m m') :
    ∃ m'', xorByte dst a b m' i = .ok m'' ∧ Xored dst.base a.base b.base (i + 1) m m'' := by
  refine ⟨((m'.read (a.base + i) 1).read (b.base + i) 1).write (dst.base + i) 1
    fun _ => m'.bytes (a.base + i) ^^^ m'.bytes (b.base + i), ?_,
    h.extend hpa hpb hi fun j hj => ?_⟩
  · simp only [xorByte, check_ok ha, check_ok hb, check_ok hdst]
    rfl
  · obtain rfl := Nat.lt_one_iff.mp hj
    rfl

/-- The indices from `lo` on, byte by byte. -/
theorem forRange_xorByte {lo : Nat} (hlo : lo ≤ n) (hdst : n ≤ dst.len) (ha : n ≤ a.len)
    (hb : n ≤ b.len) (hpa : NotPartial n dst.base a.base) (hpb : NotPartial n dst.base b.base)
    (h : Xored dst.base a.base b.base lo m m') :
    ∃ m'', forRange lo n (xorByte dst a b) m' = .ok m'' ∧
      Xored dst.base a.base b.base n m m'' := by
  apply forRange_keeps (I := fun i => Xored dst.base a.base b.base i m) hlo _ h
  intro i m' _ hi h
  exact xorByte_xored (by omega) (by omega) (by omega) hpa hpb hi h

theorem safeXORBytes_xored (hdst : n ≤ dst.len) (ha : n ≤ a.len) (hb : n ≤ b.len)
    (hpa : NotPartial n dst.base a.base) (hpb : NotPartial n dst.base b.base) :
    ∃ m', safeXORBytes dst a b n m = .ok m' ∧ Xored dst.base a.base b.base n m m' :=
  forRange_xorByte (Nat.zero_le n) hdst ha hb hpa hpb (.refl _ _ _ m)

theorem minLen_le : minLen a b ≤ a.len ∧ minLen a b ≤ b.len := by
  unfold minLen
  split <;> omega

end Correct

end PionTransport.Xor
