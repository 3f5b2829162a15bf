import PionTransport.PacketIO.Readers

/-!
# What a write admits

`Write` compares with its limits once, before it touches the rings. Behind that
test the growth loop never meets the limit again: a ring too small for an
admitted packet is not longer than the limit, and `grow` clamps to one byte more
than the limit.
-/

namespace PionTransport.PacketIO

open PionTransport.Core

variable {α : Type}

/-- The number of bytes that a buffer may hold: its own limit, unless there is none or the hard
limit is below it. -/
def Buffer.allowed (sizeHardLimit : Bool) (b : Buffer α) : Int :=
  if 0 < b.limitSize ∧ ¬ (sizeHardLimit = true ∧ b.limitSize ≥ 4 * 1024 * 1024) then b.limitSize
  else 4 * 1024 * 1024 - 1

/-- A limit keeps the packet out. -/
def Buffer.Refuses (sizeHardLimit : Bool) (b : Buffer α) (payload : List UInt8) : Prop :=
  (b.limitCount > 0 ∧ (b.count : Int) ≥ b.limitCount) ∨
    b.size + payload.length + 2 > b.allowed sizeHardLimit

instance (sizeHardLimit : Bool) (b : Buffer α) (payload : List UInt8) :
    Decidable (b.Refuses sizeHardLimit payload) := by
  unfold Buffer.Refuses
  infer_instance

theorem Buffer.limit_eq (sizeHardLimit : Bool) (b : Buffer α) :
    b.limit sizeHardLimit = b.allowed sizeHardLimit := by
  unfold Buffer.limit Buffer.allowed maxSize
  split <;> split <;> grind

/-- The test of `Write` is the abstract one. -/
theorem Buffer.refuses_iff (sizeHardLimit : Bool) (b : Buffer α) (payload : List UInt8) :
    ((b.limitCount > 0 ∧ (b.count : Int) ≥ b.limitCount) ∨
      (payload.length : Int) + headerSize > b.limit sizeHardLimit - b.size) ↔
    b.Refuses sizeHardLimit payload := by
  unfold Buffer.Refuses headerSize
  rw [b.limit_eq sizeHardLimit]
  refine or_congr Iff.rfl ?_
  omega

variable {sizeHardLimit : Bool} {b : Buffer α} {q : Queue α} {payload : List UInt8}

/-- Whatever no limit refuses, the growth loop makes room for, with any fuel that covers it. -/
theorem Buffer.Represents.grows (h : b.Represents q) (hallow : ¬ b.Refuses sizeHardLimit payload)
    {fuel : Nat} (hfuel : payload.length + headerSize + 2 ≤ fuel) :
    ∃ data head tail, b.growUntil sizeHardLimit payload.length fuel =
        some ({ b with data := data, head := head, tail := tail }, none) ∧
      Delimits data head tail (frames q.packets) ∧
      (frames q.packets).length + payload.length + headerSize + 1 ≤ data.length ∧
      (data.length : Int) ≤ max (b.data.length : Int) (b.allowed sizeHardLimit + 1) := by
  have htest := mt (b.refuses_iff sizeHardLimit payload).mp hallow
  have hsize := b.size_eq h.bytes
  have hlen := h.bytes.length_le
  rw [← b.limit_eq sizeHardLimit]
  obtain ⟨data, head, tail, err, hrun, hd, hroom, hadmits⟩ :=
    b.growUntil_spec sizeHardLimit payload.length fuel h.bytes (by omega) (by omega)
  obtain ⟨rfl, hmax⟩ := hadmits (by omega)
  exact ⟨data, head, tail, hrun, hd, hroom rfl, hmax⟩

/-- A write that no limit refuses stores its packet; the ring is at most as long as it was, or one
byte longer than the limit. -/
theorem Buffer.Represents.write_admitted (h : b.Represents q) (attributes : List α)
    (hsmall : payload.length < 0x10000) (hopen : b.closed = false)
    (hallow : ¬ b.Refuses sizeHardLimit payload) :
    ∃ b', b.write sizeHardLimit payload attributes = some (b', payload.length, none) ∧
      (b'.data.length : Int) ≤ max (b.data.length : Int) (b.allowed sizeHardLimit + 1) := by
  obtain ⟨data, head, tail, hloop, hd, hroom, hmax⟩ := h.grows hallow le_rfl
  have hb : ({ b with data := data, head := head, tail := tail } : Buffer α).Represents q :=
    ⟨hd, h.slots, h.slot_lt, h.count, h.closed, h.small, h.deadline⟩
  obtain ⟨b', henq, -, -, hlen⟩ := hb.enqueue_spec hopen hsmall hroom attributes
  refine ⟨b', ?_, by rw [hlen]; exact hmax⟩
  have hclosed : ¬ b.closed = true := by rw [hopen]; exact Bool.false_ne_true
  have htest := mt (b.refuses_iff sizeHardLimit payload).mp hallow
  simp only [Buffer.write, if_neg (Nat.not_le.mpr hsmall), if_neg hclosed, if_neg htest, hloop,
    henq, Option.bind_eq_bind, Option.bind_some, Option.pure_def]

/-- A refused write is refused before anything is touched. -/
theorem Buffer.write_refused (attributes : List α) (hsmall : payload.length < 0x10000)
    (hopen : b.closed = false) (hfull : b.Refuses sizeHardLimit payload) :
    b.write sizeHardLimit payload attributes = some (b, 0, some .full) := by
  have hclosed : ¬ b.closed = true := by rw [hopen]; exact Bool.false_ne_true
  have htest := (b.refuses_iff sizeHardLimit payload).mpr hfull
  simp only [Buffer.write, if_neg (Nat.not_le.mpr hsmall), if_neg hclosed, if_pos htest,
    Option.pure_def]

/-- What a write reports: its size is looked at first, then `Close`, then the limits. -/
def Buffer.verdict (sizeHardLimit : Bool) (b : Buffer α) (payload : List UInt8) : Option Error :=
  if payload.length ≥ 65536 then some .packetTooBig
  else if b.closed then some .closedPipe
  else if b.Refuses sizeHardLimit payload then some .full
  else none

/-- A write either changes nothing and reports why, or stores its packet. -/
theorem Buffer.Represents.write_verdict (h : b.Represents q) (sizeHardLimit : Bool)
    (payload : List UInt8) (attributes : List α) :
    (b.verdict sizeHardLimit payload ≠ none ∧ b.write sizeHardLimit payload attributes =
        some (b, 0, b.verdict sizeHardLimit payload)) ∨
    (b.verdict sizeHardLimit payload = none ∧ ¬ b.Refuses sizeHardLimit payload ∧
      ∃ b', b.write sizeHardLimit payload attributes = some (b', payload.length, none) ∧
        (b'.data.length : Int) ≤ max (b.data.length : Int) (b.allowed sizeHardLimit + 1)) := by
  unfold Buffer.verdict
  by_cases hbig : payload.length ≥ 65536
  · left
    simp only [Buffer.write, if_pos hbig, Option.pure_def, ne_eq, reduceCtorEq, not_false_eq_true,
      and_self]
  rw [if_neg hbig]
  cases hclosed : b.closed with
  | true =>
    left
    simp only [Buffer.write, if_neg hbig, hclosed, if_true, Option.pure_def, ne_eq, reduceCtorEq,
      not_false_eq_true, and_self]
  | false =>
    have hsmall : payload.length < 0x10000 := by omega
    rw [if_neg Bool.false_ne_true]
    by_cases hfull : b.Refuses sizeHardLimit payload
    · rw [if_pos hfull]
      exact .inl ⟨by simp, b.write_refused attributes hsmall hclosed hfull⟩
    · rw [if_neg hfull]
      exact .inr ⟨rfl, hfull, h.write_admitted attributes hsmall hclosed hfull⟩

/-- After every run of writers, readers and the deadline, with any limits set on the way, a write
reports what its size, `Close` and the limits say. A write that reports an error changes nothing;
for one that reports none the growth loop ends, without an error of its own; the ring never gets
longer than both its old length and one byte more than the limit. -/
theorem write_admits_exactly (sizeHardLimit : Bool) (es : List (Shared.Event α))
    (payload : List UInt8) (attributes : List α) :
    ∃ s os b n err, run (Shared.step sizeHardLimit) newShared es = some (s, os) ∧
      s.buf.write sizeHardLimit payload attributes = some (b, n, err) ∧
      err = (if payload.length ≥ 65536 then some .packetTooBig
        else if s.buf.closed then some .closedPipe
        else if s.buf.Refuses sizeHardLimit payload then some .full else none) ∧
      (err = none → n = payload.length ∧
        ∀ fuel ≥ payload.length + headerSize + 2, ∃ b₁,
          s.buf.growUntil sizeHardLimit payload.length fuel = some (b₁, none)) ∧
      (err ≠ none → b = s.buf ∧ n = 0) ∧
      (b.data.length : Int) ≤
        max (s.buf.data.length : Int) (s.buf.allowed sizeHardLimit + 1) := by
  obtain ⟨s, os, hrun, q, h⟩ := Shared.alert_run sizeHardLimit es
  obtain ⟨herr, hwrite⟩ | ⟨hnone, hallow, b', hwrite, hmax⟩ :=
    h.rep.write_verdict sizeHardLimit payload attributes
  · exact ⟨s, os, s.buf, 0, _, hrun, hwrite, rfl, fun hnone => absurd hnone herr,
      fun _ => ⟨rfl, rfl⟩, Int.le_max_left _ _⟩
  · refine ⟨s, os, b', payload.length, none, hrun, hwrite, hnone.symm,
      fun _ => ⟨rfl, fun fuel hfuel => ?_⟩, fun hne => absurd rfl hne, hmax⟩
    obtain ⟨data, head, tail, hloop, -⟩ := h.rep.grows hallow hfuel
    exact ⟨_, hloop⟩

end PionTransport.PacketIO
