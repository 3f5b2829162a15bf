import PionTransport.Xor.Kernels
import PionTransport.Xor.Words

/-!
# All ways to xor agree

Whichever way `XorBytes` takes, on ARM or with the words of another processor, the memory
is the one that the byte-wise loop leaves, no byte outside the operands is read and none
outside the destination is written.
-/

namespace PionTransport.Xor

open PionTransport.Core

/-- The destination has enough space, and overlaps neither operand in part. -/
structure Ready {bits : Nat} (dst a b : Slice bits) : Prop where
  space : minLen a b ≤ dst.len
  dst_a : NotPartial (minLen a b) dst.base a.base
  dst_b : NotPartial (minLen a b) dst.base b.base

/-- The xor of the operands is in the destination. -/
def XoredInto {bits : Nat} (dst a b : Slice bits) : Memory → Memory → Prop :=
  Xored dst.base a.base b.base (minLen a b)

section Arm

variable {dst a b : Slice 32}

/-- The operands of a call. -/
def Ready.operands (h : Ready dst a b) : Operands where
  dst := dst.base
  a := a.base
  b := b.base
  n := minLen a b
  dst_fits := (Nat.add_le_add_left h.space _).trans dst.fits
  a_fits := (Nat.add_le_add_left minLen_le.1 _).trans a.fits
  b_fits := (Nat.add_le_add_left minLen_le.2 _).trans b.fits
  small := Nat.lt_of_le_of_lt minLen_le.1 a.int
  dst_a := h.dst_a
  dst_b := h.dst_b

theorem xorBytesARM32_xored (order : ByteOrder) (h : Ready dst a b) (s : Cpu) :
    ∃ enough s', (∀ fuel, enough ≤ fuel → xorBytesARM32 order fuel dst.pointer a.pointer b.pointer
        (BitVec.ofNat 32 (minLen a b)) s = some s') ∧
      XoredInto dst a b s.memory s'.memory :=
  call_xored (o := h.operands) rfl (fun _ hat => listingARM32_reaches order hat) rfl

example : (xorBytesARM32 .big 40 0 64 128 7 ⟨fun _ => 0, fun _ => 0, fun _ => 0, false, false,
    false, ⟨UInt8.ofNat, [], []⟩⟩).map
      (fun s => (s.memory.writes, s.memory.bytes 6, s.memory.bytes 7)) =
    some ([0, 1, 2, 3, 4, 5, 6], 70 ^^^ 134, 7) := by
  decide +kernel

theorem xorBytesNEON32_xored (order : ByteOrder) (h : Ready dst a b) (s : Cpu) :
    ∃ enough s', (∀ fuel, enough ≤ fuel → xorBytesNEON32 order fuel dst.pointer a.pointer b.pointer
        (BitVec.ofNat 32 (minLen a b)) s = some s') ∧
      XoredInto dst a b s.memory s'.memory :=
  call_xored (o := h.operands) rfl (fun _ hat => listingNEON32_reaches order hat) rfl

/-- The checks pass where there is a byte to xor. -/
theorem choose_ok (hasNEON : Bool) (h : Ready dst a b) (hpos : 0 < minLen a b) (m : Memory) :
    ∃ way, choose hasNEON dst a b (minLen a b) m = .ok way := by
  obtain ⟨ha, hb⟩ := minLen_le (a := a) (b := b)
  have hdst := h.space
  have hcheck : dst.check ((minLen a b : Int) - 1) m = .ok () := by
    rw [Slice.check, if_pos]
    omega
  have hzero : ∀ t : Slice 32, 0 < t.len → t.check 0 m = .ok () := fun t ht => check_ok ht
  obtain ⟨aligned, haligned⟩ : ∃ aligned, allAligned 4 dst a b m = .ok aligned :=
    allAligned_ok (by omega) (by omega) (by omega)
  simp only [choose, hcheck, haligned, hzero dst (by omega), hzero a (by omega),
    hzero b (by omega)]
  cases hasNEON with
  | true => exact ⟨.neon, rfl⟩
  | false =>
    cases aligned with
    | true => exact ⟨.words, rfl⟩
    | false => exact ⟨.bytes, rfl⟩

theorem xorBytesARM_xored (order : ByteOrder) (h : Ready dst a b) (s : Cpu) :
    ∃ enough, ∀ hasNEON fuel, enough ≤ fuel → ∃ m',
      xorBytesARM order hasNEON fuel dst a b s = some (.ok (m', minLen a b)) ∧
      XoredInto dst a b s.memory m' := by
  obtain ⟨enoughA, sA, hA, hxoredA⟩ := xorBytesARM32_xored order h s
  obtain ⟨enoughN, sN, hN, hxoredN⟩ := xorBytesNEON32_xored order h s
  obtain ⟨mS, hS, hxoredS⟩ := safeXORBytes_xored (m := s.memory) h.space minLen_le.1 minLen_le.2
    h.dst_a h.dst_b
  refine ⟨max enoughA enoughN, fun hasNEON fuel hfuel => ?_⟩
  have hfuelA := hA fuel (by omega)
  have hfuelN := hN fuel (by omega)
  unfold xorBytesARM
  by_cases hzero : minLen a b = 0
  · refine ⟨s.memory, ?_, ?_⟩
    · simp only [hzero, if_true]
    · rw [XoredInto, hzero]
      exact .refl _ _ _ _
  · obtain ⟨way, hway⟩ := choose_ok hasNEON h (Nat.pos_of_ne_zero hzero) s.memory
    simp only [hzero, if_false, hway]
    cases way with
    | neon => exact ⟨sN.memory, by rw [hfuelN]; rfl, hxoredN⟩
    | words => exact ⟨sA.memory, by rw [hfuelA]; rfl, hxoredA⟩
    | bytes => exact ⟨mS, by rw [hS]; rfl, hxoredS⟩

end Arm

/-- Every way to xor writes the xor of the operands and nothing else, reads nothing else, and
`XorBytes` leaves the bytes that the byte-wise loop leaves, whichever way it takes. On ARM the
listings end with enough fuel; `fastXORBytes` panics without a byte to xor, and has done nothing
then. -/
theorem xor_ways_agree (order : ByteOrder) :
    (∀ (dst a b : Slice 32) (s : Cpu), Ready dst a b →
      ∃ enough, ∀ fuel, enough ≤ fuel →
        (∃ s', xorBytesARM32 order fuel dst.pointer a.pointer b.pointer
            (BitVec.ofNat 32 (minLen a b)) s = some s' ∧
          XoredInto dst a b s.memory s'.memory) ∧
        (∃ s', xorBytesNEON32 order fuel dst.pointer a.pointer b.pointer
            (BitVec.ofNat 32 (minLen a b)) s = some s' ∧
          XoredInto dst a b s.memory s'.memory) ∧
        ∃ m, safeXORBytes dst a b (minLen a b) s.memory = .ok m ∧
          XoredInto dst a b s.memory m ∧
          ∀ hasNEON, ∃ m', xorBytesARM order hasNEON fuel dst a b s =
              some (.ok (m', minLen a b)) ∧
            XoredInto dst a b s.memory m' ∧ m'.bytes = m.bytes) ∧
    ∀ (bits wordSize : Nat) (dst a b : Slice bits) (m : Memory), 0 < wordSize → Ready dst a b →
      (∃ m', (fastXORBytes order wordSize dst a b (minLen a b) m = .ok m' ∨
          minLen a b = 0 ∧ fastXORBytes order wordSize dst a b (minLen a b) m = .error m') ∧
        XoredInto dst a b m m') ∧
      ∃ ms, safeXORBytes dst a b (minLen a b) m = .ok ms ∧
        XoredInto dst a b m ms ∧
        ∀ supportsUnaligned, ∃ m', xorBytesOld order wordSize supportsUnaligned dst a b m =
            .ok (m', minLen a b) ∧
          XoredInto dst a b m m' ∧ m'.bytes = ms.bytes := by
  constructor
  · intro dst a b s h
    obtain ⟨enoughA, sA, hA, hxoredA⟩ := xorBytesARM32_xored order h s
    obtain ⟨enoughN, sN, hN, hxoredN⟩ := xorBytesNEON32_xored order h s
    obtain ⟨enough, hall⟩ := xorBytesARM_xored order h s
    obtain ⟨m, hm, hxored⟩ := safeXORBytes_xored (m := s.memory) h.space minLen_le.1 minLen_le.2
      h.dst_a h.dst_b
    refine ⟨max enough (max enoughA enoughN), fun fuel hfuel => ⟨?_, ?_, m, hm, hxored, ?_⟩⟩
    · exact ⟨sA, hA fuel (by omega), hxoredA⟩
    · exact ⟨sN, hN fuel (by omega), hxoredN⟩
    · intro hasNEON
      obtain ⟨m', hm', hxored'⟩ := hall hasNEON fuel (by omega)
      exact ⟨m', hm', hxored', hxored'.bytes_eq hxored⟩
  · intro bits wordSize dst a b m hword h
    obtain ⟨ms, hms, hxored⟩ := safeXORBytes_xored (m := m) h.space minLen_le.1 minLen_le.2
      h.dst_a h.dst_b
    refine ⟨?_, ms, hms, hxored, fun supportsUnaligned => ?_⟩
    · by_cases hzero : minLen a b = 0
      · refine ⟨m, .inr ⟨hzero, ?_⟩, ?_⟩
        · rw [hzero]
          exact fastXORBytes_zero
        · rw [XoredInto, hzero]
          exact .refl _ _ _ m
      · obtain ⟨m', hm', hxored'⟩ := fastXORBytes_xored (m := m) order
          (Nat.pos_of_ne_zero hzero) hword h.space minLen_le.1 minLen_le.2 h.dst_a h.dst_b
        exact ⟨m', .inl hm', hxored'⟩
    · obtain ⟨m', hm', hxored'⟩ := xorBytesOld_xored (m := m) order supportsUnaligned
        hword h.space h.dst_a h.dst_b
      exact ⟨m', hm', hxored', hxored'.bytes_eq hxored⟩

/-- Seven bytes are xored in place, in the tail of the NEON listing. -/
theorem xor_ways_agree_in_place :
    let buffer : Slice 32 := ⟨0, 7, by decide, by decide⟩
    let key : Slice 32 := ⟨16, 9, by decide, by decide⟩
    let s : Cpu := ⟨fun _ => 0, fun _ => 0, fun _ => 0, false, false, false, ⟨UInt8.ofNat, [], []⟩⟩
    Ready buffer buffer key ∧ ∃ fuel s', xorBytesNEON32 .little fuel buffer.pointer buffer.pointer
      key.pointer 7 s = some s' ∧ s'.memory.bytes 3 = 3 ^^^ 19 := by
  intro buffer key s
  have hready : Ready buffer buffer key := ⟨by decide, .inl rfl, .inr (.inl (by decide))⟩
  obtain ⟨fuel, hfuel⟩ := (xor_ways_agree .little).1 buffer buffer key s hready
  obtain ⟨-, ⟨s', hs', hxored⟩, -⟩ := hfuel fuel (Nat.le_refl fuel)
  exact ⟨hready, fuel, s', hs', hxored.bytes 3 (by decide)⟩

end PionTransport.Xor
