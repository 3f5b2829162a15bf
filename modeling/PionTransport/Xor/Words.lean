import PionTransport.Xor.Bytes

/-!
# Word-wise xor

`fastXORBytes` takes the headers of the byte slices for headers of slices of words, so that
an index of a word is checked against the number of bytes. It xors the whole words and
then the bytes that are left, for every size of a word and in both byte orders.
-/

namespace PionTransport.Xor

open PionTransport.Core

variable {bits : Nat} {dst a b : Slice bits} {m m' : Memory} {order : ByteOrder} {wordSize n : Nat}

/-- `dw[i] = aw[i] ^ bw[i]`. -/
def xorWord (order : ByteOrder) (wordSize : Nat) (dst a b : Slice bits) (m : Memory) (i : Nat) :
    Except Memory Memory := do
  a.check i m
  let x := m.word order wordSize (a.base + i * wordSize)
  let m := m.read (a.base + i * wordSize) wordSize
  b.check i m
  let y := m.word order wordSize (b.base + i * wordSize)
  let m := m.read (b.base + i * wordSize) wordSize
  dst.check i m
  return m.writeWord order wordSize (dst.base + i * wordSize) (x ^^^ y)

/-- `fastXORBytes`. -/
def fastXORBytes (order : ByteOrder) (wordSize : Nat) (dst a b : Slice bits) (n : Nat)
    (m : Memory) : Except Memory Memory := do
  -- dst has enough space
  dst.check ((n : Int) - 1) m
  let w := n / wordSize
  let m ← if 0 < w then forRange 0 w (xorWord order wordSize dst a b) m else pure m
  forRange (n - n % wordSize) n (xorByte dst a b) m

/-- `XorBytes` of `xor_old.go`. -/
def xorBytesOld (order : ByteOrder) (wordSize : Nat) (supportsUnaligned : Bool)
    (dst a b : Slice bits) (m : Memory) : Except Memory (Memory × Nat) := do
  let n := minLen a b
  if n = 0 then return (m, 0)
  let m ←
    if supportsUnaligned then fastXORBytes order wordSize dst a b n m
    else if ← allAligned wordSize dst a b m then fastXORBytes order wordSize dst a b n m
    else safeXORBytes dst a b n m
  return (m, n)

theorem xorWord_xored {i : Nat} (hword : 0 < wordSize) (hi : (i + 1) * wordSize ≤ n)
    (hdst : n ≤ dst.len) (ha : n ≤ a.len) (hb : n ≤ b.len)
    (hpa : NotPartial n dst.base a.base) (hpb : NotPartial n dst.base b.base)
    (h : Xored dst.base a.base b.base (i * wordSize) m m') :
    ∃ m'', xorWord order wordSize dst a b m' i = .ok m'' ∧
      Xored dst.base a.base b.base ((i + 1) * wordSize) m m'' := by
  -- the header counts bytes, of which there are at least as many as words
  have hin : i < n := by
    have hle := Nat.le_mul_of_pos_right (i + 1) hword
    omega
  rw [Nat.succ_mul] at hi ⊢
  refine ⟨((m'.read (a.base + i * wordSize) wordSize).read
    (b.base + i * wordSize) wordSize).writeWord order wordSize (dst.base + i * wordSize)
    (m'.word order wordSize (a.base + i * wordSize) ^^^
      m'.word order wordSize (b.base + i * wordSize)), ?_,
    h.extend hpa hpb hi fun j hj => ?_⟩
  · simp only [xorWord, check_ok (Nat.lt_of_lt_of_le hin ha), check_ok (Nat.lt_of_lt_of_le hin hb),
      check_ok (Nat.lt_of_lt_of_le hin hdst)]
    rfl
  · rw [byteOf_xor, Memory.byteOf_word hj, Memory.byteOf_word hj]

/-- The whole words. -/
theorem forRange_xorWord (hword : 0 < wordSize) (hdst : n ≤ dst.len) (ha : n ≤ a.len)
    (hb : n ≤ b.len) (hpa : NotPartial n dst.base a.base) (hpb : NotPartial n dst.base b.base) :
    ∃ m', forRange 0 (n / wordSize) (xorWord order wordSize dst a b) m = .ok m' ∧
      Xored dst.base a.base b.base (n / wordSize * wordSize) m m' := by
  apply forRange_keeps (I := fun i => Xored dst.base a.base b.base (i * wordSize) m)
    (Nat.zero_le _)
  · intro i m' _ hi h
    have hle : (i + 1) * wordSize ≤ n :=
      (Nat.mul_le_mul_right _ hi).trans (Nat.div_mul_le_self n wordSize)
    exact xorWord_xored hword hle hdst ha hb hpa hpb h
  · rw [Nat.zero_mul]
    exact .refl _ _ _ m

theorem fastXORBytes_xored (order : ByteOrder) (hn : 0 < n) (hword : 0 < wordSize)
    (hdst : n ≤ dst.len) (ha : n ≤ a.len) (hb : n ≤ b.len) (hpa : NotPartial n dst.base a.base)
    (hpb : NotPartial n dst.base b.base) :
    ∃ m', fastXORBytes order wordSize dst a b n m = .ok m' ∧
      Xored dst.base a.base b.base n m m' := by
  have hcheck : dst.check ((n : Int) - 1) m = .ok () := by
    rw [Slice.check, if_pos]
    omega
  obtain ⟨m₁, hm₁, h₁⟩ : ∃ m₁, forRange 0 (n / wordSize) (xorWord order wordSize dst a b) m =
      .ok m₁ ∧ Xored dst.base a.base b.base (n / wordSize * wordSize) m m₁ :=
    forRange_xorWord hword hdst ha hb hpa hpb
  have hrest : n / wordSize * wordSize = n - n % wordSize := by
    have hdiv := Nat.div_add_mod' n wordSize
    omega
  rw [hrest] at h₁
  obtain ⟨m', hm', h'⟩ := forRange_xorByte (Nat.sub_le _ _) hdst ha hb hpa hpb h₁
  refine ⟨m', ?_, h'⟩
  simp only [fastXORBytes, hcheck]
  by_cases hwords : 0 < n / wordSize
  · simp only [hwords, if_true, hm₁]
    exact hm'
  · -- less than one word: the loop over the words does nothing
    rw [Nat.eq_zero_of_not_pos hwords] at hm₁
    cases hm₁
    simp only [hwords, if_false]
    exact hm'

/-- Without a byte to xor the assertion fails, before anything is read. -/
theorem fastXORBytes_zero : fastXORBytes order wordSize dst a b 0 m = .error m := rfl

theorem xorBytesOld_xored (order : ByteOrder) (supportsUnaligned : Bool) (hword : 0 < wordSize)
    (hdst : minLen a b ≤ dst.len) (hpa : NotPartial (minLen a b) dst.base a.base)
    (hpb : NotPartial (minLen a b) dst.base b.base) :
    ∃ m', xorBytesOld order wordSize supportsUnaligned dst a b m = .ok (m', minLen a b) ∧
      Xored dst.base a.base b.base (minLen a b) m m' := by
  obtain ⟨ha, hb⟩ := minLen_le (a := a) (b := b)
  unfold xorBytesOld
  by_cases hzero : minLen a b = 0
  · refine ⟨m, ?_, ?_⟩
    · simp only [hzero, if_true]
      rfl
    · rw [hzero]
      exact .refl _ _ _ m
  · have hpos := Nat.pos_of_ne_zero hzero
    obtain ⟨mf, hmf, hf⟩ : ∃ m', fastXORBytes order wordSize dst a b (minLen a b) m = .ok m' ∧
        Xored dst.base a.base b.base (minLen a b) m m' :=
      fastXORBytes_xored order hpos hword hdst ha hb hpa hpb
    obtain ⟨ms, hms, hs⟩ := safeXORBytes_xored (m := m) hdst ha hb hpa hpb
    obtain ⟨aligned, haligned⟩ : ∃ aligned, allAligned wordSize dst a b m = .ok aligned :=
      allAligned_ok (by omega) (by omega) (by omega)
    simp only [hzero, if_false, hmf, hms, haligned]
    cases supportsUnaligned with
    | true => exact ⟨mf, rfl, hf⟩
    | false =>
      cases aligned with
      | true => exact ⟨mf, rfl, hf⟩
      | false => exact ⟨ms, rfl, hs⟩

end PionTransport.Xor
