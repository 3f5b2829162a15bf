import PionTransport.Xor.Arm

/-!
# The listings xor all bytes

Both listings advance the three pointers and count down the bytes that are left. `At` says
how far they are. Each chunk extends what is done, whatever its size; a loop leaves less
than its chunk, each tail step halves what can be left, and the last byte ends it.
-/

namespace PionTransport.Xor

open PionTransport.Core

section Registers

variable (s : Cpu) (r : Reg) (v : BitVec 32)

@[simp] theorem Cpu.setReg_regs (r' : Reg) :
    (s.setReg r v).regs r' = if r' = r then v else s.regs r' := rfl

end Registers

section Vectors

variable {order : ByteOrder} {s : Cpu} {v vd vn vm : Vec} {rn : Reg} {i j : Nat}

theorem vld1_regs (r : Reg) : (Cpu.effect order (.vld1 v rn) s).regs r =
    if r = rn then s.regs rn + BitVec.ofNat 32 v.size else s.regs r := rfl

theorem vld1_memory : (Cpu.effect order (.vld1 v rn) s).memory =
    s.memory.read (s.regs rn).toNat v.size := rfl

theorem vst1_regs (r : Reg) : (Cpu.effect order (.vst1 v rn) s).regs r =
    if r = rn then s.regs rn + BitVec.ofNat 32 v.size else s.regs r := rfl

theorem vst1_memory : (Cpu.effect order (.vst1 v rn) s).memory =
    s.memory.write (s.regs rn).toNat v.size fun i => s.neon (v.start + i) := rfl

/-- The bytes loaded. -/
theorem vld1_neon_at (hi : i < v.size) :
    (Cpu.effect order (.vld1 v rn) s).neon (v.start + i) =
      s.memory.bytes ((s.regs rn).toNat + i) := by
  simp [Cpu.effect, hi]

/-- The other bytes stay. -/
theorem vld1_neon_off (hj : j < v.start ∨ v.start + v.size ≤ j) :
    (Cpu.effect order (.vld1 v rn) s).neon j = s.neon j := by
  simp only [Cpu.effect]
  rw [if_neg]
  omega

/-- The bytes xored. -/
theorem veor_neon_at (hi : i < vd.size) :
    (Cpu.effect order (.veor vd vn vm) s).neon (vd.start + i) =
      s.neon (vn.start + i) ^^^ s.neon (vm.start + i) := by
  simp [Cpu.effect, hi]

/-- The other bytes stay. -/
theorem veor_neon_off (hj : j < vd.start ∨ vd.start + vd.size ≤ j) :
    (Cpu.effect order (.veor vd vn vm) s).neon j = s.neon j := by
  simp only [Cpu.effect]
  rw [if_neg]
  omega

end Vectors

/-- What a listing is called for. -/
structure Operands where
  dst : Nat
  a : Nat
  b : Nat
  n : Nat
  dst_fits : dst + n ≤ 2 ^ 32
  a_fits : a + n ≤ 2 ^ 32
  b_fits : b + n ≤ 2 ^ 32
  small : n < 2 ^ 31
  dst_a : NotPartial n dst a
  dst_b : NotPartial n dst b

/-- The first `k` bytes are done, and `left` is the count. -/
structure At (o : Operands) (m : Memory) (k left : Nat) (s : Cpu) : Prop where
  r0 : s.regs .r0 = BitVec.ofNat 32 (o.dst + k)
  r1 : s.regs .r1 = BitVec.ofNat 32 (o.a + k)
  r2 : s.regs .r2 = BitVec.ofNat 32 (o.b + k)
  r3 : s.regs .r3 = BitVec.ofNat 32 left
  xored : Xored o.dst o.a o.b k m s.memory

/-- What straight-line code does. -/
def effects (order : ByteOrder) (instrs : List Instr) (s : Cpu) : Cpu :=
  instrs.foldl (fun s instr => Cpu.effect order instr s) s

/-- The code does the next chunk and moves the pointers. -/
structure Chunk (order : ByteOrder) (size : Nat) (instrs : List Instr) : Prop where
  done : ∀ {o m k left s}, At o m k left s → k + size ≤ o.n →
    At o m (k + size) left (effects order instrs s)

/-- Everything but fewer than `bound` bytes is done. -/
def Within (o : Operands) (m : Memory) (bound : Nat) (s : Cpu) : Prop :=
  ∃ k left, At o m k left s ∧ k + left = o.n ∧ left < bound

variable {order : ByteOrder} {o : Operands} {m : Memory} {k left size : Nat} {s : Cpu}

section Counting

/-- An address inside an operand does not wrap. -/
theorem toNat_ofNat_add {p n : Nat} (hfits : p + n ≤ 2 ^ 32) (hk : k < n) :
    (BitVec.ofNat 32 (p + k)).toNat = p + k := by
  rw [BitVec.toNat_ofNat, Nat.mod_eq_of_lt (by omega)]

/-- Comparing moves nothing. -/
theorem At.cmp (h : At o m k left s) (order : ByteOrder) (imm : Nat) (rn : Reg) :
    At o m k left (Cpu.effect order (.cmp imm rn) s) :=
  ⟨h.r0, h.r1, h.r2, h.r3, h.xored⟩

/-- Counting down. -/
theorem At.sub (h : At o m k left s) (order : ByteOrder) {imm : Nat} (himm : imm ≤ left)
    (hleft : left < 2 ^ 31) :
    At o m k (left - imm) (Cpu.effect order (.sub imm .r3) s) where
  r0 := h.r0
  r1 := h.r1
  r2 := h.r2
  r3 := by
    simp only [Cpu.effect, Cpu.setReg_regs, if_true, h.r3]
    apply BitVec.eq_of_toNat_eq
    simp only [BitVec.toNat_sub, BitVec.toNat_ofNat]
    omega
  xored := h.xored

/-- The flags after a comparison of the count with a small number. -/
theorem At.holds_cmp (h : At o m k left s) (order : ByteOrder) {imm : Nat} (himm : imm ≤ 32)
    (hleft : left < 2 ^ 31) :
    let s' := Cpu.effect order (.cmp imm .r3) s
    (Cpu.holds .lt s' = decide (left < imm)) ∧ (Cpu.holds .ge s' = decide (imm ≤ left)) ∧
      (Cpu.holds .eq s' = decide (left = imm)) := by
  have hx : (BitVec.ofNat 32 left).toInt = left := by
    rw [BitVec.toInt_eq_toNat_of_lt] <;> rw [BitVec.toNat_ofNat] <;> omega
  have hy : (BitVec.ofNat 32 imm).toInt = imm := by
    rw [BitVec.toInt_eq_toNat_of_lt] <;> rw [BitVec.toNat_ofNat] <;> omega
  have hsub : (BitVec.ofNat 32 left - BitVec.ofNat 32 imm).toNat =
      (2 ^ 32 - imm + left) % 2 ^ 32 := by
    rw [BitVec.toNat_sub, BitVec.toNat_ofNat, BitVec.toNat_ofNat]
    omega
  have hv : BitVec.ssubOverflow (BitVec.ofNat 32 left) (BitVec.ofNat 32 imm) = false := by
    simp only [BitVec.ssubOverflow, hx, hy, Bool.or_eq_false_iff, decide_eq_false_iff_not]
    omega
  have hn : (BitVec.ofNat 32 left - BitVec.ofNat 32 imm).msb = decide (left < imm) := by
    rw [BitVec.msb_eq_decide, hsub, decide_eq_decide]
    omega
  have hz : (BitVec.ofNat 32 left - BitVec.ofNat 32 imm == 0) = decide (left = imm) := by
    rw [beq_eq_decide, decide_eq_decide, ← BitVec.toNat_inj, hsub]
    simp only [BitVec.ofNat_eq_ofNat, BitVec.toNat_ofNat]
    omega
  intro s'
  refine ⟨?_, ?_, ?_⟩
  · simp only [s', Cpu.effect, Cpu.holds, h.r3, hn, hv, Bool.bne_false]
  · simp only [s', Cpu.effect, Cpu.holds, h.r3, hn, hv]
    by_cases hlt : left < imm
    · simp [hlt, Nat.not_le_of_lt hlt]
    · simp [hlt, Nat.le_of_not_lt hlt]
  · simp only [s', Cpu.effect, Cpu.holds, h.r3, hz]

end Counting

section Chunks

/-- The code has read a chunk of both operands and written their xor. -/
theorem At.extend (h : At o m k left s) (hk : k + size ≤ o.n) {m' : Memory} {f : Nat → UInt8}
    (hm' : m' = ((s.memory.read (o.a + k) size).read (o.b + k) size).write (o.dst + k) size f)
    (hf : ∀ i < size, f i = s.memory.bytes (o.a + k + i) ^^^ s.memory.bytes (o.b + k + i)) :
    Xored o.dst o.a o.b (k + size) m m' := by
  rw [hm']
  exact h.xored.extend o.dst_a o.dst_b hk hf

/-- The pointers have moved on. -/
theorem At.advance (h : At o m k left s) {s' : Cpu}
    (hregs : ∀ r, s'.regs r = if r = .r0 ∨ r = .r1 ∨ r = .r2 then
      s.regs r + BitVec.ofNat 32 size else if r = .r3 then s.regs r else s'.regs r)
    (hxored : Xored o.dst o.a o.b (k + size) m s'.memory) : At o m (k + size) left s' where
  r0 := by rw [hregs, if_pos (.inl rfl), h.r0, ← BitVec.ofNat_add, Nat.add_assoc]
  r1 := by rw [hregs, if_pos (.inr (.inl rfl)), h.r1, ← BitVec.ofNat_add, Nat.add_assoc]
  r2 := by rw [hregs, if_pos (.inr (.inr rfl)), h.r2, ← BitVec.ofNat_add, Nat.add_assoc]
  r3 := by rw [hregs, if_neg (by decide), if_pos rfl, h.r3]
  xored := hxored

/-- Load from `a` and `b`, xor, and store to `dst`. -/
def xorReg (size : Size) (inc : Nat) : List Instr :=
  [.load size inc .r1 .r4, .load size inc .r2 .r5, .eor .r4 .r5 .r5, .store size .r5 inc .r0]

theorem Size.bytes_pos (size : Size) : 0 < size.bytes := by
  cases size <;> decide

theorem Size.bytes_le (size : Size) : 8 * size.bytes ≤ 32 := by
  cases size <;> decide

/-- What is loaded keeps its bytes, whatever stands above them. -/
theorem byteOf_loaded (size : Size) {p i : Nat} (hi : i < size.bytes) :
    byteOf ((m.word order size.bytes p).signExtend 32) (order.place size.bytes i) =
      m.bytes (p + i) := by
  have hplace := order.place_lt hi
  rw [byteOf_signExtend _ (by omega) size.bytes_le, Memory.byteOf_word hi]

/-- A register-wise xor of the next bytes. -/
theorem xorReg_memory {size : Size} (inc : Nat) (h : At o m k left s)
    (hk : k + size.bytes ≤ o.n) :
    Xored o.dst o.a o.b (k + size.bytes) m (effects order (xorReg size inc) s).memory := by
  have hpos := size.bytes_pos
  have hdst := toNat_ofNat_add o.dst_fits (k := k) (by omega)
  have ha := toNat_ofNat_add o.a_fits (k := k) (by omega)
  have hb := toNat_ofNat_add o.b_fits (k := k) (by omega)
  have hf : ∀ i < size.bytes,
      byteOf ((s.memory.word order size.bytes (o.b + k)).signExtend 32 ^^^
        (s.memory.word order size.bytes (o.a + k)).signExtend 32) (order.place size.bytes i) =
      s.memory.bytes (o.a + k + i) ^^^ s.memory.bytes (o.b + k + i) := by
    intro i hi
    rw [byteOf_xor, byteOf_loaded size hi, byteOf_loaded size hi, UInt8.xor_comm]
  refine h.extend hk ?_ hf
  simp only [effects, xorReg, List.foldl_cons, List.foldl_nil, Cpu.effect, Memory.writeWord]
  simp only [Cpu.setReg_regs, reduceCtorEq, if_true, if_false, h.r0, h.r1, h.r2, hdst, ha, hb]
  rfl

/-- A register-wise xor is a chunk of the loop. -/
theorem xorReg_chunk (order : ByteOrder) (size : Size) :
    Chunk order size.bytes (xorReg size size.bytes) := by
  refine ⟨fun h hk => h.advance (fun r => ?_) (xorReg_memory size.bytes h hk)⟩
  cases r <;> rfl

/-- Load from `a` and `b` to NEON registers, xor them there, and store to `dst`. -/
def xorVec (v v' : Vec) (veors : List Instr) : List Instr :=
  .vld1 v .r1 :: .vld1 v' .r2 :: (veors ++ [.vst1 v' .r0])

/-- The code xors some NEON registers into others and does nothing else. -/
def XorsInto (order : ByteOrder) (v v' : Vec) (veors : List Instr) : Prop :=
  ∀ s, (effects order veors s).regs = s.regs ∧ (effects order veors s).memory = s.memory ∧
    ∀ i < v.size, (effects order veors s).neon (v'.start + i) =
      s.neon (v.start + i) ^^^ s.neon (v'.start + i)

/-- A vector xor is a chunk of the loop. -/
theorem xorVec_chunk {v v' : Vec} {veors : List Instr} (hv : v.size = size) (hv' : v'.size = size)
    (hpos : 0 < size) (hapart : v.start + size ≤ v'.start) (hveors : XorsInto order v v' veors) :
    Chunk order size (xorVec v v' veors) := by
  constructor
  intro o m k left s h hk
  have hdst := toNat_ofNat_add o.dst_fits (k := k) (by omega)
  have ha := toNat_ofNat_add o.a_fits (k := k) (by omega)
  have hb := toNat_ofNat_add o.b_fits (k := k) (by omega)
  -- both chunks are in the registers
  let s₁ := Cpu.effect order (.vld1 v .r1) s
  let s₂ := Cpu.effect order (.vld1 v' .r2) s₁
  have hr2 : (s₁.regs .r2).toNat = o.b + k := by
    rw [vld1_regs, if_neg nofun, h.r2, hb]
  have hneon : ∀ i < size, s₂.neon (v.start + i) = s.memory.bytes (o.a + k + i) ∧
      s₂.neon (v'.start + i) = s.memory.bytes (o.b + k + i) := by
    intro i hi
    constructor
    · rw [vld1_neon_off (by omega), vld1_neon_at (by omega), h.r1, ha]
    · rw [vld1_neon_at (by omega), hr2]
      rfl
  have hmemory : s₂.memory = (s.memory.read (o.a + k) size).read (o.b + k) size := by
    rw [vld1_memory, vld1_memory, hr2, h.r1, ha, hv, hv']
  have hregs : ∀ r, s₂.regs r = if r = .r1 ∨ r = .r2 then s.regs r + BitVec.ofNat 32 size
      else s.regs r := by
    intro r
    cases r <;> simp [s₂, s₁, vld1_regs, hv, hv']
  obtain ⟨hregs₃, hmemory₃, hneon₃⟩ := hveors s₂
  have heffects : effects order (xorVec v v' veors) s =
      Cpu.effect order (.vst1 v' .r0) (effects order veors s₂) := by
    simp only [xorVec, effects, List.foldl_cons, List.foldl_append, List.foldl_nil, s₂, s₁]
  have hf : ∀ i < size, (effects order veors s₂).neon (v'.start + i) =
      s.memory.bytes (o.a + k + i) ^^^ s.memory.bytes (o.b + k + i) := by
    intro i hi
    rw [hneon₃ i (by omega), (hneon i hi).1, (hneon i hi).2]
  rw [heffects]
  refine h.advance (fun r => ?_) (h.extend hk ?_ hf)
  · rw [vst1_regs, hregs₃, hregs, hregs, hv']
    cases r <;> simp
  · rw [vst1_memory, hregs₃, hmemory₃, hmemory, hregs, if_neg (by decide), h.r0, hdst, hv']

/-- One instruction xors two registers. -/
theorem xorsInto_veor (v v' : Vec) (hsize : v.size = v'.size) :
    XorsInto order v v' [.veor v' v v'] := by
  refine fun s => ⟨rfl, rfl, fun i hi => ?_⟩
  change (Cpu.effect order (.veor v' v v') s).neon (v'.start + i) = _
  exact veor_neon_at (hsize ▸ hi)

/-- Two quad registers are done one after the other. -/
theorem xorsInto_pair :
    XorsInto order (.qPair 0) (.qPair 2)
      [.veor (.q 2) (.q 0) (.q 2), .veor (.q 3) (.q 1) (.q 3)] := by
  refine fun s => ⟨rfl, rfl, fun i hi => ?_⟩
  let s₁ := Cpu.effect order (.veor (.q 2) (.q 0) (.q 2)) s
  change (Cpu.effect order (.veor (.q 3) (.q 1) (.q 3)) s₁).neon (32 + i) =
    s.neon (0 + i) ^^^ s.neon (32 + i)
  by_cases hlow : i < 16
  · rw [veor_neon_off (.inl (Nat.add_lt_add_left hlow 32))]
    exact veor_neon_at hlow
  · obtain ⟨j, rfl⟩ := Nat.exists_eq_add_of_le (Nat.le_of_not_lt hlow)
    have hj : j < 16 := by
      change 16 + j < 32 at hi
      omega
    have hat : (Cpu.effect order (.veor (.q 3) (.q 1) (.q 3)) s₁).neon (48 + j) =
        s₁.neon (16 + j) ^^^ s₁.neon (48 + j) := veor_neon_at hj
    have hlow : s₁.neon (16 + j) = s.neon (16 + j) := veor_neon_off (.inl (by simp [Vec.q]; omega))
    have hhigh : s₁.neon (48 + j) = s.neon (48 + j) :=
      veor_neon_off (.inr (by simp [Vec.q]))
    rw [← Nat.add_assoc, ← Nat.add_assoc, hat, hlow, hhigh, Nat.zero_add]

end Chunks

section Control

variable {listing lines rest : Listing} {instrs : List Instr} {name skip : Label}

/-- Code that is skipped if less than a chunk is left. -/
theorem At.skips (hat : At o m k left s) (hsize : size ≤ 32) (hless : left < size)
    (hskip : linesFrom listing skip = .label skip :: rest) :
    (arm order).Reaches listing (.op (.cmp size .r3) :: .branch .lt skip :: lines, s)
      (rest, Cpu.effect order (.cmp size .r3) s) := by
  have hlt := (hat.holds_cmp order hsize (by omega)).1
  rw [decide_eq_true hless] at hlt
  have htaken : (arm order).Reaches listing
      (.branch .lt skip :: lines, Cpu.effect order (.cmp size .r3) s)
      (linesFrom listing skip, Cpu.effect order (.cmp size .r3) s) := .taken hlt
  rw [hskip] at htaken
  exact Isa.Reaches.op.trans (htaken.trans .label)

/-- A chunk is entered if enough bytes are left. -/
theorem At.enters (hat : At o m k left s) (hsum : k + left = o.n) (hsize : size ≤ 32)
    (hless : ¬ left < size) :
    (arm order).Reaches listing (.op (.cmp size .r3) :: .branch .lt skip :: lines, s)
      (lines, Cpu.effect order (.cmp size .r3) s) := by
  have hlt := (hat.holds_cmp order hsize (by have := o.small; omega)).1
  rw [decide_eq_false hless] at hlt
  exact Isa.Reaches.op.trans (Isa.Reaches.notTaken hlt)

/-- A chunk and its count. -/
theorem chunk_reaches (listing rest : Listing) (hchunk : Chunk order size instrs)
    (hat : At o m k left s) (hsum : k + left = o.n) (hleft : size ≤ left) :
    ∃ s', (arm order).Reaches listing
      (instrs.map .op ++ .op (.sub size .r3) :: rest, s) (rest, s') ∧
      At o m (k + size) (left - size) s' := by
  refine ⟨_, (Isa.Reaches.ops instrs _ s).trans .op, ?_⟩
  have hdone := hchunk.done hat (by omega)
  exact hdone.sub order hleft (by have := o.small; omega)

/-- A tail step: a chunk if there is still one. -/
theorem tail_reaches (listing : Listing) (skip : Label) (hchunk : Chunk order size instrs)
    (hsize : size ≤ 32) (hskip : linesFrom listing skip = .label skip :: rest)
    (h : Within o m (2 * size) s) :
    ∃ s', (arm order).Reaches listing
      (.op (.cmp size .r3) :: .branch .lt skip ::
        (instrs.map .op ++ .op (.sub size .r3) :: .label skip :: rest), s) (rest, s') ∧
      Within o m size s' := by
  obtain ⟨k, left, hat, hsum, hleft⟩ := h
  have hcmp := hat.cmp order size .r3
  by_cases hless : left < size
  · exact ⟨_, hat.skips hsize hless hskip, k, left, hcmp, hsum, hless⟩
  · obtain ⟨s', hreach, hat'⟩ := chunk_reaches listing (.label skip :: rest) hchunk hcmp hsum
      (Nat.le_of_not_lt hless)
    exact ⟨s', (hat.enters hsum hsize hless).trans (hreach.trans .label), _, _, hat', by omega,
      by omega⟩

/-- A loop over chunks, entered with one at least. -/
theorem loop_reaches (hchunk : Chunk order size instrs) (hpos : 0 < size) (hsize : size ≤ 32)
    (hname : linesFrom listing name = .label name :: (instrs.map .op ++
      .op (.sub size .r3) :: .op (.cmp size .r3) :: .branch .ge name :: rest))
    (hat : At o m k left s) (hsum : k + left = o.n) (hleft : size ≤ left) :
    ∃ s', (arm order).Reaches listing (linesFrom listing name, s) (rest, s') ∧
      Within o m size s' := by
  -- by the number of bytes that are left
  induction left using Nat.strongRecOn generalizing k s with
  | ind left ih =>
    obtain ⟨s₁, hreach, hat₁⟩ := chunk_reaches listing
      (.op (.cmp size .r3) :: .branch .ge name :: rest) hchunk hat hsum hleft
    have hcmp := hat₁.cmp order size .r3
    have hge := (hat₁.holds_cmp order hsize (by have := o.small; omega)).2.1
    have hbody : (arm order).Reaches listing (linesFrom listing name, s)
        (.branch .ge name :: rest, Cpu.effect order (.cmp size .r3) s₁) := by
      rw [hname]
      exact Isa.Reaches.label.trans (hreach.trans .op)
    by_cases hmore : size ≤ left - size
    · rw [decide_eq_true hmore] at hge
      obtain ⟨s', hagain, hwithin⟩ := ih (left - size) (by omega) hcmp (by omega) hmore
      exact ⟨s', hbody.trans ((Isa.Reaches.taken hge).trans hagain), hwithin⟩
    · rw [decide_eq_false hmore] at hge
      exact ⟨_, hbody.trans (Isa.Reaches.notTaken hge), _, _, hcmp, by omega, by omega⟩

/-- A loop over chunks that is skipped if there is none. -/
theorem head_reaches (listing : Listing) (name skip : Label) (hchunk : Chunk order size instrs)
    (hpos : 0 < size) (hsize : size ≤ 32)
    (hname : linesFrom listing name = .label name :: (instrs.map .op ++
      .op (.sub size .r3) :: .op (.cmp size .r3) :: .branch .ge name :: .label skip :: rest))
    (hskip : linesFrom listing skip = .label skip :: rest)
    (hat : At o m k left s) (hsum : k + left = o.n) :
    ∃ s', (arm order).Reaches listing
      (.op (.cmp size .r3) :: .branch .lt skip :: linesFrom listing name, s) (rest, s') ∧
      Within o m size s' := by
  have hcmp := hat.cmp order size .r3
  by_cases hless : left < size
  · exact ⟨_, hat.skips hsize hless hskip, k, left, hcmp, hsum, hless⟩
  · obtain ⟨s', hloop, hwithin⟩ := loop_reaches hchunk hpos hsize hname hcmp hsum
      (Nat.le_of_not_lt hless)
    exact ⟨s', (hat.enters hsum hsize hless).trans (hloop.trans .label), hwithin⟩

/-- The last byte, if there is one. -/
theorem last_reaches (order : ByteOrder) (listing : Listing)
    (hend : linesFrom listing .end = [.label .end, .ret]) (h : Within o m 2 s) :
    ∃ s', (arm order).Reaches listing
      (.op (.cmp 0 .r3) :: .branch .eq .end :: ((xorReg .byte 0).map .op ++ [.label .end, .ret]), s)
      ([.ret], s') ∧ Xored o.dst o.a o.b o.n m s'.memory := by
  obtain ⟨k, left, hat, hsum, hleft⟩ := h
  let s₁ := Cpu.effect order (.cmp 0 .r3) s
  have hcmp : At o m k left s₁ := hat.cmp order 0 .r3
  have heq := (hat.holds_cmp order (Nat.zero_le 32) (by have := o.small; omega)).2.2
  by_cases hzero : left = 0
  · rw [decide_eq_true hzero] at heq
    have htaken : (arm order).Reaches listing
        (.branch .eq .end :: ((xorReg .byte 0).map .op ++ [.label .end, .ret]), s₁)
        (linesFrom listing .end, s₁) := .taken heq
    rw [hend] at htaken
    refine ⟨s₁, Isa.Reaches.op.trans (htaken.trans .label), ?_⟩
    rw [← hsum, hzero]
    exact hcmp.xored
  · rw [decide_eq_false hzero] at heq
    refine ⟨effects order (xorReg .byte 0) s₁, Isa.Reaches.op.trans
      ((Isa.Reaches.notTaken heq).trans ((Isa.Reaches.ops _ _ s₁).trans .label)), ?_⟩
    have hone : o.n = k + Size.byte.bytes := by
      change o.n = k + 1
      omega
    rw [hone]
    exact xorReg_memory 0 hcmp (Nat.le_of_eq hone.symm)

end Control

section Listings

/-- The arguments, in the registers. -/
def arguments : List Instr :=
  [.movwFP 0 .r0, .movwFP 4 .r1, .movwFP 8 .r2, .movwFP 12 .r3]

/-- The arguments are loaded. -/
theorem arguments_at (order : ByteOrder) (o : Operands) (s : Cpu) :
    At o s.memory 0 o.n (effects order arguments (s.pass (BitVec.ofNat 32 o.dst)
      (BitVec.ofNat 32 o.a) (BitVec.ofNat 32 o.b) (BitVec.ofNat 32 o.n))) :=
  ⟨rfl, rfl, rfl, rfl, .refl _ _ _ _⟩

/-- The word loop, a half word and a byte. -/
theorem listingARM32_reaches (order : ByteOrder) (hat : At o m 0 o.n s) :
    ∃ s', (arm order).Reaches listingARM32 (listingARM32.drop 4, s) ([.ret], s') ∧
      Xored o.dst o.a o.b o.n m s'.memory := by
  obtain ⟨s₁, hreach₁, h₁⟩ := head_reaches listingARM32 .loop_4 .less_than4
    (xorReg_chunk order .word) (by decide) (by decide) rfl rfl hat (Nat.zero_add _)
  obtain ⟨s₂, hreach₂, h₂⟩ := tail_reaches listingARM32 .less_than2
    (xorReg_chunk order .half) (by decide) rfl h₁
  obtain ⟨s₃, hreach₃, h₃⟩ := last_reaches order listingARM32 rfl h₂
  exact ⟨s₃, hreach₁.trans (hreach₂.trans hreach₃), h₃⟩

/-- The loop over two quad registers, and chunks of 16, 8, 4, 2 and 1 bytes. -/
theorem listingNEON32_reaches (order : ByteOrder) (hat : At o m 0 o.n s) :
    ∃ s', (arm order).Reaches listingNEON32 (listingNEON32.drop 4, s) ([.ret], s') ∧
      Xored o.dst o.a o.b o.n m s'.memory := by
  have hpair : Chunk order 32 (xorVec (.qPair 0) (.qPair 2)
      [.veor (.q 2) (.q 0) (.q 2), .veor (.q 3) (.q 1) (.q 3)]) := by
    apply xorVec_chunk _ _ _ _ xorsInto_pair <;> decide
  have hquad : Chunk order 16 (xorVec (.q 0) (.q 1) [.veor (.q 1) (.q 0) (.q 1)]) := by
    apply xorVec_chunk _ _ _ _ (xorsInto_veor (.q 0) (.q 1) rfl) <;> decide
  have hdouble : Chunk order 8 (xorVec (.d 0) (.d 1) [.veor (.d 1) (.d 0) (.d 1)]) := by
    apply xorVec_chunk _ _ _ _ (xorsInto_veor (.d 0) (.d 1) rfl) <;> decide
  obtain ⟨s₁, hreach₁, h₁⟩ := head_reaches listingNEON32 .loop_32 .less_than32 hpair
    (by decide) (by decide) rfl rfl hat (Nat.zero_add _)
  obtain ⟨s₂, hreach₂, h₂⟩ := tail_reaches listingNEON32 .less_than16 hquad (by decide) rfl h₁
  obtain ⟨s₃, hreach₃, h₃⟩ := tail_reaches listingNEON32 .less_than8 hdouble (by decide) rfl h₂
  obtain ⟨s₄, hreach₄, h₄⟩ := tail_reaches listingNEON32 .less_than4
    (xorReg_chunk order .word) (by decide) rfl h₃
  obtain ⟨s₅, hreach₅, h₅⟩ := tail_reaches listingNEON32 .less_than2
    (xorReg_chunk order .half) (by decide) rfl h₄
  obtain ⟨s₆, hreach₆, h₆⟩ := last_reaches order listingNEON32 rfl h₅
  exact ⟨s₆, hreach₁.trans (hreach₂.trans (hreach₃.trans (hreach₄.trans
    (hreach₅.trans hreach₆)))), h₆⟩

/-- A listing that takes its arguments and then xors is called with success. -/
theorem call_xored {listing : Listing} (hstart : listing = arguments.map .op ++ listing.drop 4)
    (hlisting : ∀ s, At o m 0 o.n s → ∃ s', (arm order).Reaches listing (listing.drop 4, s)
      ([.ret], s') ∧ Xored o.dst o.a o.b o.n m s'.memory) (hm : s.memory = m) :
    ∃ enough s', (∀ fuel, enough ≤ fuel → call order listing fuel (BitVec.ofNat 32 o.dst)
        (BitVec.ofNat 32 o.a) (BitVec.ofNat 32 o.b) (BitVec.ofNat 32 o.n) s = some s') ∧
      Xored o.dst o.a o.b o.n m s'.memory := by
  subst hm
  obtain ⟨s', hreach, hxored⟩ := hlisting _ (arguments_at order o s)
  have hall := (Isa.Reaches.ops arguments (listing.drop 4) _).trans hreach
  rw [← hstart] at hall
  obtain ⟨enough, hexec⟩ := hall.exec_eq
  exact ⟨enough, s', hexec, hxored⟩

end Listings

end PionTransport.Xor
