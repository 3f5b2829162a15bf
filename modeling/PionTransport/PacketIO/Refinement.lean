import PionTransport.PacketIO.Represents

/-!
# The buffer refines the packet queue

Every operation of the buffer succeeds and is matched by one operation of the
abstract queue, from any state that represents a queue. A whole run is then a
trace of the queue, in which the accepted packets are the delivered ones
followed by those still queued.
-/

namespace PionTransport.PacketIO

open PionTransport.Core

variable {α : Type}

variable {b : Buffer α} {q : Queue α}

/-- A packet that fits is stored behind the queued ones, with its own attributes, and a reader is
notified. -/
theorem Buffer.Represents.enqueue_spec (h : b.Represents q) (hopen : b.closed = false)
    {payload : List UInt8} (hsmall : payload.length < 0x10000)
    (hroom : (frames q.packets).length + payload.length + headerSize + 1 ≤ b.data.length)
    (attributes : List α) :
    ∃ b', b.enqueue payload attributes = some b' ∧
      b'.Represents ⟨q.packets ++ [⟨payload, attributes⟩], q.closed⟩ ∧ b'.notify = true ∧
      b'.data.length = b.data.length := by
  have hcount : b.count = (q.packets.map Packet.attributes).length := by
    rw [List.length_map, h.count]
  obtain ⟨slots, slot, hgrow, hs, hslot, hslotHead⟩ :=
    Buffer.growAttributes_spec h.slots h.slot_lt hcount
  have hheader : (frames q.packets).length + (putUint16 payload.length).length <
      b.data.length := by
    rw [length_putUint16]
    omega
  have hd₁ := h.bytes.append hheader
  have hlen₁ := length_overwrite h.bytes.bounds.2
    (by omega : (putUint16 payload.length).length ≤ b.data.length)
  have hpayload : (frames q.packets ++ putUint16 payload.length).length + payload.length <
      (overwrite b.data b.tail (putUint16 payload.length)).length := by
    rw [hlen₁, List.length_append, length_putUint16]
    omega
  have hd₂ := hd₁.append hpayload
  have hw₁ := Buffer.writeBytes_eq (b := { b with attributes := slots, attributesHead := slot })
    h.bytes hheader
  have hw₂ := Buffer.writeBytes_eq (b := { b with
    data := overwrite b.data b.tail (putUint16 payload.length)
    tail := wrap b.data.length (b.tail + (putUint16 payload.length).length)
    attributes := slots, attributesHead := slot }) hd₁ hpayload
  have hindex : (if slot + b.count ≥ slots.length then slot + b.count - slots.length
      else slot + b.count) = wrap slots.length (slot + b.count) := by
    unfold wrap
    split <;> split <;> omega
  have hstore : wrap slots.length (slot + b.count) < slots.length := by
    unfold wrap
    split <;> omega
  have hstored := hs.append [attributes] (by rw [← hcount]; exact hstore.le)
    (by rw [List.length_singleton]; omega)
  rw [← hcount, overwrite_singleton hstore] at hstored
  refine ⟨{ b with
    data := overwrite (overwrite b.data b.tail (putUint16 payload.length))
      (wrap b.data.length (b.tail + (putUint16 payload.length).length)) payload
    tail := wrap (overwrite b.data b.tail (putUint16 payload.length)).length
      (wrap b.data.length (b.tail + (putUint16 payload.length).length) + payload.length)
    attributes := slots.set (wrap slots.length (slot + b.count)) attributes
    attributesHead := slot, count := b.count + 1, notify := true }, ?_, ?_, rfl, ?_⟩
  · simp only [Buffer.enqueue, hgrow, Option.bind_eq_bind, Option.bind_some, hw₁, hw₂, hindex,
      store?_eq hstore, Buffer.notifyReader]
    simp only [hopen, Bool.false_eq_true, ite_false]
  · refine ⟨?_, ?_, ?_, ?_, h.closed, ?_, h.deadline⟩
    · simpa [Packet.frame] using hd₂
    · simpa using hstored
    · simpa using Or.inl hslotHead
    · simp [h.count]
    · intro p hp
      rcases List.mem_append.mp hp with hp | hp
      · exact h.small p hp
      · rw [List.mem_singleton.mp hp]
        exact hsmall
  · exact (length_overwrite hd₁.bounds.2 (by omega)).trans hlen₁

/-- A write is matched by an abstract write: it appends its packet and notifies a reader, or
changes nothing. -/
theorem Buffer.write_spec (sizeHardLimit : Bool) (h : b.Represents q) (payload : List UInt8)
    (attributes : List α) :
    ∃ b' n err q', b.write sizeHardLimit payload attributes = some (b', n, err) ∧
      q.Step (.write payload attributes) (.wrote n err) q' ∧ b'.Represents q' ∧
      b'.notify = (err.isNone || b.notify) := by
  unfold Buffer.write
  by_cases hbig : payload.length ≥ 0x10000
  · exact ⟨b, 0, some .packetTooBig, q, by simp only [hbig, ite_true, Option.pure_def],
      .refused q payload attributes _, h, rfl⟩
  by_cases hclosed : b.closed = true
  · exact ⟨b, 0, some .closedPipe, q, by simp only [hbig, hclosed, ite_true, ite_false,
      Option.pure_def], .refused q payload attributes _, h, rfl⟩
  by_cases hfull : (b.limitCount > 0 ∧ (b.count : Int) ≥ b.limitCount) ∨
      (payload.length : Int) + headerSize > b.limit sizeHardLimit - b.size
  · exact ⟨b, 0, some .full, q, by simp only [hbig, hclosed, hfull, ite_true, ite_false,
      Option.pure_def, Bool.false_eq_true], .refused q payload attributes _, h, rfl⟩
  have hlen := h.bytes.length_le
  obtain ⟨data, head, tail, err, hloop, hd, hroom, -⟩ :=
    b.growUntil_spec sizeHardLimit payload.length (payload.length + headerSize + 2)
      h.bytes (by omega) (by omega)
  have hb : ({ b with data := data, head := head, tail := tail } : Buffer α).Represents q :=
    ⟨hd, h.slots, h.slot_lt, h.count, h.closed, h.small, h.deadline⟩
  simp only [if_neg hbig, if_neg hclosed, if_neg hfull, hloop, Option.bind_eq_bind,
    Option.bind_some, Option.pure_def]
  cases err with
  | some err => exact ⟨_, 0, some err, q, rfl, .refused q payload attributes _, hb, rfl⟩
  | none =>
    have hopen : b.closed = false := by simpa only [Bool.not_eq_true] using hclosed
    obtain ⟨b', henq, hrep, hnotify, -⟩ := hb.enqueue_spec hopen (by omega) (hroom rfl) attributes
    refine ⟨b', payload.length, none, _, ?_,
      .wrote q payload attributes (by rw [← h.closed, hopen]) (by omega), hrep, hnotify⟩
    simp only [henq, Option.bind_some]

/-- Emptying the oldest slot returns its attributes and leaves the later slots in place. -/
theorem Buffer.takeAttributes_eq {attrs : List α} {slots : List (List α)}
    (h : Holds b.attributes b.attributesHead (attrs :: slots))
    (hh : b.attributesHead < b.attributes.length) :
    b.takeAttributes = some ({ b with
      attributes := b.attributes.set b.attributesHead []
      attributesHead := wrap b.attributes.length (b.attributesHead + 1)
      count := b.count - 1 }, attrs) := by
  have hhead : (if b.attributesHead + 1 = b.attributes.length then 0
      else b.attributesHead + 1) = wrap b.attributes.length (b.attributesHead + 1) := by
    unfold wrap
    split <;> split <;> omega
  simp only [Buffer.takeAttributes, h.front hh, store?_eq hh, Option.bind_eq_bind,
    Option.bind_some, List.length_set, hhead, Option.pure_def]

/-- Starting over in an emptied ring, or waking a reader, does not change the queue. -/
theorem Buffer.Represents.afterConsume_spec (h : b.Represents q) :
    ∃ b', b.afterConsume = some b' ∧ b'.Represents q ∧
      (q.packets ≠ [] → q.closed = false → b'.notify = true) := by
  unfold Buffer.afterConsume
  by_cases hempty : b.head = b.tail
  · have hq : q.packets = [] := (frames_eq_nil_iff _).mp (h.bytes.head_eq_tail_iff.mp hempty)
    refine ⟨{ b with head := 0, tail := 0, attributesHead := 0 }, if_pos hempty,
      ⟨?_, ?_, Or.inr rfl, h.count, h.closed, h.small, h.deadline⟩, fun hne => absurd hq hne⟩
    · rw [hq]
      exact Delimits.empty (Or.inr rfl)
    · rw [hq]
      exact holds_nil _ _
  · rw [if_neg hempty]
    cases hclosed : b.closed with
    | true =>
      refine ⟨b, rfl, h, fun _ hopen => ?_⟩
      rw [← h.closed, hclosed] at hopen
      cases hopen
    | false =>
      refine ⟨{ b with notify := true }, ?_, ⟨h.bytes, h.slots, h.slot_lt, h.count, h.closed,
        h.small, h.deadline⟩, fun _ _ => rfl⟩
      simp [Buffer.notifyReader, hclosed]

/-- Consuming a packet of a nonempty queue removes the oldest one and delivers it whole; if others
remain in an open buffer, the next reader is notified. -/
theorem Buffer.Represents.consumePacket_spec {p : Packet α} {ps : List (Packet α)} {closed : Bool}
    (h : b.Represents ⟨p :: ps, closed⟩) (payloadBuf : List UInt8) (attributes : List α) :
    ∃ b' buf n attrs err, b.consumePacket payloadBuf attributes = some (b', buf, n, attrs, err) ∧
      ReadResult.returned buf n attrs err = p.deliver payloadBuf ∧ b'.Represents ⟨ps, closed⟩ ∧
      (ps ≠ [] → closed = false → b'.notify = true) := by
  have hsmall : p.payload.length < 0x10000 := h.small p List.mem_cons_self
  have hbytes : Delimits b.data b.head b.tail
      (putUint16 p.payload.length ++ (p.payload ++ frames ps)) := by
    simpa [Packet.frame] using h.bytes
  have hslots : Holds b.attributes b.attributesHead
      (p.attributes :: ps.map Packet.attributes) := h.slots
  have hslot : b.attributesHead < b.attributes.length := by
    have hl := hslots.length_le
    have hs := h.slot_lt
    simp only [List.length_cons] at hl
    omega
  have hr₁ := Buffer.readBytes_eq (List.replicate headerSize 0) headerSize hbytes (by simp)
  have hheader : (putUint16 p.payload.length ++ (p.payload ++ frames ps)).take
      (min (List.replicate headerSize (0 : UInt8)).length headerSize) ++
      (List.replicate headerSize 0).drop (min (List.replicate headerSize (0 : UInt8)).length
        headerSize) = putUint16 p.payload.length := by
    simp [putUint16, headerSize]
  rw [hheader] at hr₁
  have hb₁ := hbytes.advance
  have hr₂ := Buffer.readBytes_eq (b := { b with head := wrap b.data.length (b.head + headerSize) })
    payloadBuf p.payload.length hb₁ (by simp)
  have hb₂ := hb₁.advance
  rw [List.take_append_of_le_length (Nat.min_le_right _ _)] at hr₂
  have hr₃ := Buffer.takeAttributes_eq (b := { b with
    head := wrap b.data.length (wrap b.data.length (b.head + headerSize) + p.payload.length) })
    hslots hslot
  have hrep : ({ b with
      head := wrap b.data.length (wrap b.data.length (b.head + headerSize) + p.payload.length)
      attributes := b.attributes.set b.attributesHead []
      attributesHead := wrap b.attributes.length (b.attributesHead + 1)
      count := b.count - 1 } : Buffer α).Represents ⟨ps, closed⟩ := by
    refine ⟨hb₂, hslots.pop_set hslot [], ?_, ?_, h.closed,
      fun p' hp' => h.small p' (List.mem_cons_of_mem p hp'), h.deadline⟩
    · simp only [List.length_set]
      unfold wrap
      split <;> omega
    · simp [h.count]
  obtain ⟨b', hafter, hrep', hnotify⟩ := hrep.afterConsume_spec
  have hmin : min payloadBuf.length p.payload.length < p.payload.length ↔
      payloadBuf.length < p.payload.length := by omega
  refine ⟨b', _, _, _, _, ?_, rfl, hrep', hnotify⟩
  simp only [Buffer.consumePacket, hr₁, Option.bind_eq_bind, Option.bind_some,
    uint16_putUint16 hsmall, hr₂, hr₃, hafter, hmin, List.take_zero, List.nil_append,
    Option.pure_def]
  split <;> rfl

/-- A read is matched by an abstract read: a packet, the end of the stream, or a wait. -/
theorem Buffer.read_spec (h : b.Represents q) (payloadBuf : List UInt8) (attributes : List α) :
    ∃ b', b.read payloadBuf attributes = some (b', q.readResult payloadBuf) ∧
      b'.Represents ⟨q.packets.tail, q.closed⟩ := by
  obtain ⟨packets, closed⟩ := q
  have hiff := h.bytes.head_eq_tail_iff.trans (frames_eq_nil_iff packets)
  unfold Buffer.read
  cases packets with
  | nil =>
    have heq : b.head = b.tail := hiff.mpr rfl
    cases closed with
    | true =>
      refine ⟨b, ?_, h⟩
      simp [h.deadline, heq, h.closed, Queue.readResult]
    | false =>
      refine ⟨{ b with notify := false }, ?_, h.bytes, h.slots, h.slot_lt, h.count, h.closed,
        h.small, h.deadline⟩
      simp [h.deadline, heq, h.closed, Queue.readResult]
  | cons p ps =>
    have hne : b.head ≠ b.tail := fun heq => List.cons_ne_nil p ps (hiff.mp heq)
    obtain ⟨b', buf, n, attrs, err, hconsume, hdeliver, hrep, -⟩ :=
      h.consumePacket_spec payloadBuf attributes
    refine ⟨b', ?_, hrep⟩
    simp [h.deadline, hne, hconsume, hdeliver, Queue.readResult]

/-- Every operation succeeds and is matched by one step of the abstract queue. -/
theorem Buffer.step_refines (sizeHardLimit : Bool) (b : Buffer α) (q : Queue α) (op : Op α)
    (h : b.Represents q) :
    ∃ b' out q', b.step sizeHardLimit op = some (b', out) ∧ q.Step op out q' ∧
      b'.Represents q' := by
  cases op with
  | write payload attributes =>
    obtain ⟨b', n, err, q', hwrite, hstep, hrep, -⟩ :=
      b.write_spec sizeHardLimit h payload attributes
    exact ⟨b', .wrote n err, q', by simp [Buffer.step, hwrite], hstep, hrep⟩
  | read payloadBuf attributes =>
    obtain ⟨b', hread, hrep⟩ := b.read_spec h payloadBuf attributes
    exact ⟨b', .read (q.readResult payloadBuf), _, by simp [Buffer.step, hread],
      .read q payloadBuf attributes, hrep⟩
  | setLimitSize limit =>
    exact ⟨_, .done, q, rfl, .setLimitSize q limit, h.bytes, h.slots, h.slot_lt, h.count,
      h.closed, h.small, h.deadline⟩
  | setLimitCount limit =>
    exact ⟨_, .done, q, rfl, .setLimitCount q limit, h.bytes, h.slots, h.slot_lt, h.count,
      h.closed, h.small, h.deadline⟩
  | close =>
    refine ⟨b.close, .done, ⟨q.packets, true⟩, rfl, .close q, ?_⟩
    unfold Buffer.close
    split
    · rename_i hclosed
      exact ⟨h.bytes, h.slots, h.slot_lt, h.count, hclosed, h.small, h.deadline⟩
    · exact ⟨h.bytes, h.slots, h.slot_lt, h.count, rfl, h.small, h.deadline⟩
  | count => exact ⟨b, .value b.count, q, rfl, h.count ▸ .count q, h⟩
  | size =>
    have hsize : b.size = q.size := by rw [b.size_eq h.bytes, length_frames]; rfl
    exact ⟨b, .value b.size, q, rfl, hsize ▸ .size q, h⟩

/-- Every sequence of calls on a new buffer runs without an index out of range and is a
trace of the FIFO queue; the accepted packets are, in order, those the reads delivered
followed by those still stored. -/
theorem run_refines_queue (sizeHardLimit : Bool) (ops : List (Op α)) :
    ∃ b outs q removed, run (Buffer.step sizeHardLimit) newBuffer ops = some (b, outs) ∧
      Trace Queue.Step Queue.empty ops outs q ∧ b.Represents q ∧
      accepted ops outs = removed ++ q.packets ∧
      List.Forall₂ (fun d p => d.2 = p.deliver d.1) (deliveries ops outs) removed := by
  obtain ⟨b, outs, q, hrun, htrace, hrep⟩ := run_simulates (Buffer.step_refines sizeHardLimit) ops
    newBuffer_represents
  obtain ⟨removed, hpackets, hreads⟩ := Queue.conserved htrace
  exact ⟨b, outs, q, removed, hrun, htrace, hrep, hpackets, hreads⟩

end PionTransport.PacketIO
