import Mathlib.Algebra.GroupWithZero.Nat
import PionTransport.PacketIO.Buffer

/-!
# The abstract packet queue

What the buffer is for: a FIFO queue of whole packets, each with its own
attributes, and a flag that forbids further writes. The queue decides every
result except whether a write is admitted, which depends on limits that are
not part of the abstraction; a refused write changes nothing.
-/

namespace PionTransport.PacketIO

open PionTransport.Core

/-- One queued packet. -/
structure Packet (α : Type) where
  /-- The complete payload. -/
  payload : List UInt8
  /-- The complete attribute list. -/
  attributes : List α
  deriving DecidableEq, Repr

/-- The abstract state: packets from oldest to newest, and whether writing has ended. -/
structure Queue (α : Type) where
  packets : List (Packet α)
  closed : Bool
  deriving DecidableEq, Repr

variable {α : Type}

/-- The abstract state of a new buffer. -/
def Queue.empty : Queue α := ⟨[], false⟩

/-- The bytes a packet accounts for: its payload and the length prefix. -/
def Packet.size (p : Packet α) : Nat := p.payload.length + headerSize

/-- The accounted bytes of a queue. -/
def Queue.size (q : Queue α) : Nat := (q.packets.map Packet.size).sum

/-- What a read of the packet `p` returns: as much of the payload as fits, all
attributes, and `io.ErrShortBuffer` exactly when the payload was cut. -/
def Packet.deliver (p : Packet α) (payloadBuf : List UInt8) : ReadResult α :=
  let n := min payloadBuf.length p.payload.length
  .returned (p.payload.take n ++ payloadBuf.drop n) n p.attributes
    (if payloadBuf.length < p.payload.length then some .shortBuffer else none)

/-- The result of reading from the queue. -/
def Queue.readResult (q : Queue α) (payloadBuf : List UInt8) : ReadResult α :=
  match q.packets with
  | p :: _ => p.deliver payloadBuf
  | [] => if q.closed then .returned payloadBuf 0 [] (some .eof) else .blocked

/-- One abstract operation with its observable result. -/
inductive Queue.Step : Queue α → Op α → Out α → Queue α → Prop
  | wrote (q : Queue α) (payload attributes) : q.closed = false → payload.length < 0x10000 →
      Step q (.write payload attributes) (.wrote payload.length none)
        ⟨q.packets ++ [⟨payload, attributes⟩], q.closed⟩
  | refused (q : Queue α) (payload attributes err) :
      Step q (.write payload attributes) (.wrote 0 (some err)) q
  | read (q : Queue α) (payloadBuf attributes) :
      Step q (.read payloadBuf attributes) (.read (q.readResult payloadBuf))
        ⟨q.packets.tail, q.closed⟩
  | setLimitSize (q : Queue α) (limit) : Step q (.setLimitSize limit) .done q
  | setLimitCount (q : Queue α) (limit) : Step q (.setLimitCount limit) .done q
  | close (q : Queue α) : Step q .close .done ⟨q.packets, true⟩
  | count (q : Queue α) : Step q .count (.value q.packets.length) q
  | size (q : Queue α) : Step q .size (.value q.size) q

/-- The packets of the successful writes of a run, in order. -/
def accepted : List (Op α) → List (Out α) → List (Packet α)
  | .write payload attributes :: ops, .wrote _ none :: outs =>
    ⟨payload, attributes⟩ :: accepted ops outs
  | _ :: ops, _ :: outs => accepted ops outs
  | _, _ => []

/-- Whether a read returned a packet, possibly a shortened one. -/
def ReadResult.isPacket : ReadResult α → Bool
  | .returned _ _ _ none => true
  | .returned _ _ _ (some err) => err == .shortBuffer
  | .blocked => false

/-- The reads of a run that returned a packet, in order: the buffer given and the result. -/
def deliveries : List (Op α) → List (Out α) → List (List UInt8 × ReadResult α)
  | .read payloadBuf _ :: ops, .read result :: outs =>
    if result.isPacket then (payloadBuf, result) :: deliveries ops outs else deliveries ops outs
  | _ :: ops, _ :: outs => deliveries ops outs
  | _, _ => []

/-- A packet is always delivered as a packet. -/
@[simp] theorem Packet.deliver_isPacket (p : Packet α) (payloadBuf : List UInt8) :
    (p.deliver payloadBuf).isPacket = true := by
  unfold Packet.deliver
  by_cases h : payloadBuf.length < p.payload.length <;> simp [h, ReadResult.isPacket]

/-- Reading an empty queue never returns a packet. -/
theorem Queue.readResult_nil_isPacket (closed : Bool) (payloadBuf : List UInt8) :
    ((⟨[], closed⟩ : Queue α).readResult payloadBuf).isPacket = false := by
  cases closed <;> rfl

/-- Conservation along a trace: what was queued and what was accepted is, in order, what
the reads delivered followed by what is still queued. -/
theorem Queue.conserved {q q' : Queue α} {ops : List (Op α)} {outs : List (Out α)}
    (h : Trace Queue.Step q ops outs q') :
    ∃ removed, q.packets ++ accepted ops outs = removed ++ q'.packets ∧
      List.Forall₂ (fun d p => d.2 = p.deliver d.1) (deliveries ops outs) removed := by
  induction h with
  | nil q => exact ⟨[], by simp [accepted], .nil⟩
  | @cons q _ _ _ _ _ _ hstep _ ih =>
    obtain ⟨removed, hpackets, hreads⟩ := ih
    cases hstep with
    | wrote | refused | setLimitSize | setLimitCount | close | count | size =>
      exact ⟨removed, by simpa [accepted] using hpackets, hreads⟩
    | read payloadBuf attributes =>
      obtain ⟨packets, closed⟩ := q
      cases packets with
      | nil =>
        refine ⟨removed, by simpa [accepted] using hpackets, ?_⟩
        simpa only [deliveries, Queue.readResult_nil_isPacket, Bool.false_eq_true, ite_false]
          using hreads
      | cons p ps =>
        refine ⟨p :: removed, by simpa [accepted] using hpackets, ?_⟩
        simpa [deliveries, Queue.readResult] using hreads

end PionTransport.PacketIO
