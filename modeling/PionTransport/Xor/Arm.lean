import PionTransport.Core.Assembly
import PionTransport.Xor.Bytes

/-!
# Xor on ARM

The part of the processor that `xor_arm.s` uses: six registers, the flags of a comparison,
the NEON registers as one file of bytes, and the arguments in the caller's frame. `MOVH`
and `MOVB` extend the sign of what they load. The instructions that the source gives by
their encodings are those of its comments. Whether words lie in memory in one byte order
or the other is a parameter.
-/

namespace PionTransport.Xor

open PionTransport.Core

/-- The registers used. -/
inductive Reg
  | r0
  | r1
  | r2
  | r3
  | r4
  | r5
  deriving DecidableEq, Repr

/-- The sizes of a transfer. -/
inductive Size
  | word
  | half
  | byte
  deriving DecidableEq, Repr

/-- The bytes of a transfer. -/
def Size.bytes : Size → Nat
  | .word => 4
  | .half => 2
  | .byte => 1

/-- Consecutive NEON registers, by their place in the file of bytes. -/
structure Vec where
  start : Nat
  size : Nat
  deriving DecidableEq, Repr

/-- A quad register. -/
def Vec.q (i : Nat) : Vec := ⟨16 * i, 16⟩

/-- Two quad registers, the given one and the next. -/
def Vec.qPair (i : Nat) : Vec := ⟨16 * i, 32⟩

/-- A double register. -/
def Vec.d (i : Nat) : Vec := ⟨8 * i, 8⟩

/-- The state of the processor. -/
structure Cpu where
  regs : Reg → BitVec 32
  neon : Nat → UInt8
  /-- the arguments, by their offsets -/
  frame : Nat → BitVec 32
  flagN : Bool
  flagZ : Bool
  flagV : Bool
  memory : Memory

/-- Set a register. -/
def Cpu.setReg (s : Cpu) (r : Reg) (v : BitVec 32) : Cpu :=
  { s with regs := fun r' => if r' = r then v else s.regs r' }

/-- The instructions used. -/
inductive Instr
  /-- `MOVW name+off(FP), Rd` -/
  | movwFP (off : Nat) (rd : Reg)
  | cmp (imm : Nat) (rn : Reg)
  /-- `MOVW.P inc(Rn), Rd`, `MOVH.P inc(Rn), Rd`, or `MOVB (Rn), Rd` with the increment 0 -/
  | load (size : Size) (inc : Nat) (rn rd : Reg)
  /-- `MOVW.P Rs, inc(Rn)` and so on -/
  | store (size : Size) (rs : Reg) (inc : Nat) (rn : Reg)
  | eor (rm rn rd : Reg)
  | sub (imm : Nat) (rd : Reg)
  /-- `vld1.u8 v, [rn]!` -/
  | vld1 (v : Vec) (rn : Reg)
  | veor (vd vn vm : Vec)
  /-- `vst1.u8 v, [rn]!` -/
  | vst1 (v : Vec) (rn : Reg)
  deriving DecidableEq, Repr

/-- The conditions of a branch. -/
inductive Cond
  | lt
  | ge
  | eq
  deriving DecidableEq, Repr

/-- What an instruction does. -/
def Cpu.effect (order : ByteOrder) (instr : Instr) (s : Cpu) : Cpu :=
  match instr with
  | .movwFP off rd => s.setReg rd (s.frame off)
  | .cmp imm rn =>
    let x := s.regs rn
    let y := BitVec.ofNat 32 imm
    { s with flagN := (x - y).msb, flagZ := x - y == 0, flagV := BitVec.ssubOverflow x y }
  | .load size inc rn rd =>
    let p := (s.regs rn).toNat
    let v := (s.memory.word order size.bytes p).signExtend 32
    { (s.setReg rn (s.regs rn + BitVec.ofNat 32 inc)).setReg rd v with
      memory := s.memory.read p size.bytes }
  | .store size rs inc rn =>
    { s.setReg rn (s.regs rn + BitVec.ofNat 32 inc) with
      memory := s.memory.writeWord order size.bytes (s.regs rn).toNat (s.regs rs) }
  | .eor rm rn rd => s.setReg rd (s.regs rn ^^^ s.regs rm)
  | .sub imm rd => s.setReg rd (s.regs rd - BitVec.ofNat 32 imm)
  | .vld1 v rn =>
    let p := (s.regs rn).toNat
    { s.setReg rn (s.regs rn + BitVec.ofNat 32 v.size) with
      neon := fun i =>
        if v.start ≤ i ∧ i < v.start + v.size then s.memory.bytes (p + (i - v.start))
        else s.neon i
      memory := s.memory.read p v.size }
  | .veor vd vn vm =>
    { s with
      neon := fun i =>
        if vd.start ≤ i ∧ i < vd.start + vd.size then
          s.neon (vn.start + (i - vd.start)) ^^^ s.neon (vm.start + (i - vd.start))
        else s.neon i }
  | .vst1 v rn =>
    { s.setReg rn (s.regs rn + BitVec.ofNat 32 v.size) with
      memory := s.memory.write (s.regs rn).toNat v.size fun i => s.neon (v.start + i) }

/-- A condition holds of the flags. -/
def Cpu.holds (cond : Cond) (s : Cpu) : Bool :=
  match cond with
  | .lt => s.flagN != s.flagV
  | .ge => s.flagN == s.flagV
  | .eq => s.flagZ

/-- The instructions with their meaning. -/
def arm (order : ByteOrder) : Isa Cpu Instr Cond := ⟨Cpu.effect order, Cpu.holds⟩

/-- The labels of both listings. -/
inductive Label
  | loop_32
  | less_than32
  | less_than16
  | less_than8
  | loop_4
  | less_than4
  | less_than2
  | «end»
  deriving DecidableEq, Repr

section Listings

open Instr Reg Size Line

/-- A listing of these instructions. -/
abbrev Listing := List (Line Instr Cond Label)

/-- The body of `xorBytesARM32`. -/
def listingARM32 : Listing := [
  op (movwFP 0 r0),
  op (movwFP 4 r1),
  op (movwFP 8 r2),
  op (movwFP 12 r3),
  op (cmp 4 r3),
  branch .lt .less_than4,
  label .loop_4,
  op (load word 4 r1 r4),
  op (load word 4 r2 r5),
  op (eor r4 r5 r5),
  op (store word r5 4 r0),
  op (sub 4 r3),
  op (cmp 4 r3),
  branch .ge .loop_4,
  label .less_than4,
  op (cmp 2 r3),
  branch .lt .less_than2,
  op (load half 2 r1 r4),
  op (load half 2 r2 r5),
  op (eor r4 r5 r5),
  op (store half r5 2 r0),
  op (sub 2 r3),
  label .less_than2,
  op (cmp 0 r3),
  branch .eq .end,
  op (load byte 0 r1 r4),
  op (load byte 0 r2 r5),
  op (eor r4 r5 r5),
  op (store byte r5 0 r0),
  label .end,
  ret]

/-- The body of `xorBytesNEON32`. -/
def listingNEON32 : Listing := [
  op (movwFP 0 r0),
  op (movwFP 4 r1),
  op (movwFP 8 r2),
  op (movwFP 12 r3),
  op (cmp 32 r3),
  branch .lt .less_than32,
  label .loop_32,
  op (vld1 (.qPair 0) r1),
  op (vld1 (.qPair 2) r2),
  op (veor (.q 2) (.q 0) (.q 2)),
  op (veor (.q 3) (.q 1) (.q 3)),
  op (vst1 (.qPair 2) r0),
  op (sub 32 r3),
  op (cmp 32 r3),
  branch .ge .loop_32,
  label .less_than32,
  op (cmp 16 r3),
  branch .lt .less_than16,
  op (vld1 (.q 0) r1),
  op (vld1 (.q 1) r2),
  op (veor (.q 1) (.q 0) (.q 1)),
  op (vst1 (.q 1) r0),
  op (sub 16 r3),
  label .less_than16,
  op (cmp 8 r3),
  branch .lt .less_than8,
  op (vld1 (.d 0) r1),
  op (vld1 (.d 1) r2),
  op (veor (.d 1) (.d 0) (.d 1)),
  op (vst1 (.d 1) r0),
  op (sub 8 r3),
  label .less_than8,
  op (cmp 4 r3),
  branch .lt .less_than4,
  op (load word 4 r1 r4),
  op (load word 4 r2 r5),
  op (eor r4 r5 r5),
  op (store word r5 4 r0),
  op (sub 4 r3),
  label .less_than4,
  op (cmp 2 r3),
  branch .lt .less_than2,
  op (load half 2 r1 r4),
  op (load half 2 r2 r5),
  op (eor r4 r5 r5),
  op (store half r5 2 r0),
  op (sub 2 r3),
  label .less_than2,
  op (cmp 0 r3),
  branch .eq .end,
  op (load byte 0 r1 r4),
  op (load byte 0 r2 r5),
  op (eor r4 r5 r5),
  op (store byte r5 0 r0),
  label .end,
  ret]

end Listings

/-- Put the arguments in the frame. -/
def Cpu.pass (s : Cpu) (dst a b n : BitVec 32) : Cpu :=
  { s with
    frame := fun
      | 0 => dst
      | 4 => a
      | 8 => b
      | 12 => n
      | off => s.frame off }

/-- Call a listing; `none` if the fuel does not suffice. -/
def call (order : ByteOrder) (listing : Listing) (fuel : Nat) (dst a b n : BitVec 32) (s : Cpu) :
    Option Cpu :=
  (arm order).exec listing fuel (listing, s.pass dst a b n)

/-- `xorBytesARM32`. -/
def xorBytesARM32 (order : ByteOrder) : Nat → BitVec 32 → BitVec 32 → BitVec 32 → BitVec 32 →
    Cpu → Option Cpu :=
  call order listingARM32

/-- `xorBytesNEON32`. -/
def xorBytesNEON32 (order : ByteOrder) : Nat → BitVec 32 → BitVec 32 → BitVec 32 → BitVec 32 →
    Cpu → Option Cpu :=
  call order listingNEON32

/-- The ways to xor. -/
inductive Way
  | neon
  | words
  | bytes
  deriving DecidableEq, Repr

/-- The checks of `XorBytes`, and its choice. -/
def choose (hasNEON : Bool) (dst a b : Slice 32) (n : Nat) (m : Memory) : Except Memory Way := do
  -- dst has enough space
  dst.check ((n : Int) - 1) m
  if hasNEON then
    dst.check 0 m
    a.check 0 m
    b.check 0 m
    return .neon
  else if ← allAligned 4 dst a b m then return .words
  else return .bytes

/-- The address of the first byte. -/
def Slice.pointer (s : Slice 32) : BitVec 32 := BitVec.ofNat 32 s.base

/-- `XorBytes` of `xor_arm.go`; `none` if the fuel does not suffice. -/
def xorBytesARM (order : ByteOrder) (hasNEON : Bool) (fuel : Nat) (dst a b : Slice 32) (s : Cpu) :
    Option (Except Memory (Memory × Nat)) :=
  let n := minLen a b
  if n = 0 then some (.ok (s.memory, 0))
  else
    match choose hasNEON dst a b n s.memory with
    | .error m => some (.error m)
    | .ok .neon =>
      (xorBytesNEON32 order fuel dst.pointer a.pointer b.pointer (BitVec.ofNat 32 n) s).map
        fun s' => .ok (s'.memory, n)
    | .ok .words =>
      (xorBytesARM32 order fuel dst.pointer a.pointer b.pointer (BitVec.ofNat 32 n) s).map
        fun s' => .ok (s'.memory, n)
    | .ok .bytes => some ((safeXORBytes dst a b n s.memory).map fun m => (m, n))

end PionTransport.Xor
