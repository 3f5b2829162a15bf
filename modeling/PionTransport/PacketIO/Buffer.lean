import PionTransport.Core.Run
import PionTransport.Core.Slice

/-!
# The packet buffer

A direct embedding of `packetio.Buffer`: a byte ring of length-prefixed
payloads beside a ring of attribute slots. `none` is a runtime panic (an index
out of range, or a send on the closed `notify` channel). The build-time
constant `sizeHardLimit` is a parameter. Integers that the code only ever
compares with array lengths are natural numbers; limits are Go integers and
may be negative. An `int` has 64 bits, so no sum of lengths and limits wraps.
-/

namespace PionTransport.PacketIO

open PionTransport.Core

/-- The smallest allocated ring. -/
def minSize : Nat := 2048

/-- Below this size the ring doubles, from it on it grows by a quarter. -/
def cutoffSize : Nat := 128 * 1024

/-- The largest ring without an explicit larger size limit. -/
def maxSize : Nat := 4 * 1024 * 1024

/-- Bytes of the big-endian length prefix of each payload. -/
def headerSize : Nat := 2

/-- The errors returned by the buffer. -/
inductive Error
  | packetTooBig
  | full
  | closedPipe
  | shortBuffer
  | eof
  | timeout
  deriving DecidableEq, Repr

/-- The fields of `packetio.Buffer`; `α` is the type of one attribute entry. -/
structure Buffer (α : Type) where
  /-- The byte ring. -/
  data : List UInt8
  /-- First occupied byte. -/
  head : Nat
  /-- First free byte. -/
  tail : Nat
  /-- Whether the one-slot `notify` channel holds a token. -/
  notify : Bool
  /-- Set by `Close`, which also closes the `notify` channel. -/
  closed : Bool
  /-- Number of queued packets. -/
  count : Nat
  /-- Packet limit, disabled when not positive. -/
  limitCount : Int
  /-- Byte limit, replaced by the default capacity when not positive. -/
  limitSize : Int
  /-- The ring of attribute slots. -/
  attributes : List (List α)
  /-- Slot of the oldest packet. -/
  attributesHead : Nat
  /-- Whether `readDeadline.Done()` is closed. -/
  readDeadline : Bool
  deriving DecidableEq, Repr

variable {α : Type}

/-- `NewBuffer`: nothing is allocated yet and no deadline is set. -/
def newBuffer : Buffer α :=
  { data := [], head := 0, tail := 0, notify := false, closed := false, count := 0,
    limitCount := 0, limitSize := 0, attributes := [], attributesHead := 0,
    readDeadline := false }

/-- Whether a payload of the given size fits with its header and the spare byte. -/
def Buffer.available (b : Buffer α) (size : Nat) : Bool :=
  let available : Int := (b.head : Int) - b.tail
  let available := if available ≤ 0 then available + b.data.length else available
  decide ((size : Int) + headerSize + 1 ≤ available)

/-- The number of occupied bytes. -/
def Buffer.size (b : Buffer α) : Int :=
  let size : Int := (b.tail : Int) - b.head
  if size < 0 then size + b.data.length else size

/-- The size `grow` tries to allocate. -/
def Buffer.growSize (sizeHardLimit : Bool) (b : Buffer α) : Int :=
  let newSize : Int :=
    if b.data.length < cutoffSize then 2 * b.data.length else 5 * b.data.length / 4
  let newSize := if newSize < minSize then (minSize : Int) else newSize
  let newSize :=
    if (b.limitSize ≤ 0 ∨ sizeHardLimit = true) ∧ newSize > maxSize then (maxSize : Int)
    else newSize
  -- one byte slack
  if b.limitSize > 0 ∧ newSize - 1 > b.limitSize then b.limitSize + 1 else newSize

/-- `grow` moves the queued bytes to the front of a larger array, or reports `ErrFull`. -/
def Buffer.grow (sizeHardLimit : Bool) (b : Buffer α) : Option (Buffer α × Option Error) := do
  let newSize := b.growSize sizeHardLimit
  if newSize ≤ b.data.length then
    return (b, some .full)
  let newData := List.replicate newSize.toNat (0 : UInt8)
  if b.head ≤ b.tail then
    -- data was contiguous
    let (newData, n) ← copyRange? newData 0 newData.length (← slice? b.data b.head b.tail)
    return ({ b with head := 0, tail := n, data := newData }, none)
  else
    -- data was discontinuous
    let (newData, n) ← copyRange? newData 0 newData.length
      (← slice? b.data b.head b.data.length)
    let (newData, m) ← copyRange? newData n newData.length (← slice? b.data 0 b.tail)
    return ({ b with head := 0, tail := n + m, data := newData }, none)

/-- The loop of `Write` that grows the ring until the payload fits. Running out of fuel is
`none`; `growUntil_spec` shows that the fuel supplied by `write` is never exhausted. -/
def Buffer.growUntil (sizeHardLimit : Bool) (size : Nat) :
    Nat → Buffer α → Option (Buffer α × Option Error)
  | 0, _ => none
  | fuel + 1, b =>
    if b.available size then some (b, none)
    else
      match b.grow sizeHardLimit with
      | none => none
      | some (b', some e) => some (b', some e)
      | some (b', none) => Buffer.growUntil sizeHardLimit size fuel b'

/-- Double the attribute ring when all its slots are taken. -/
def Buffer.growAttributes (b : Buffer α) : Option (Buffer α) := do
  if b.count < b.attributes.length then
    return b
  let attributes := List.replicate (max 1 (2 * b.attributes.length)) []
  let (attributes, n) ← copyRange? attributes 0 attributes.length
    (← slice? b.attributes b.attributesHead b.attributes.length)
  let (attributes, _) ← copyRange? attributes n attributes.length
    (← slice? b.attributes 0 b.attributesHead)
  return { b with attributes := attributes, attributesHead := 0 }

/-- Append bytes to the ring, continuing at its front when its end is reached. -/
def Buffer.writeBytes (b : Buffer α) (src : List UInt8) : Option (Buffer α) := do
  let (data, n) ← copyRange? b.data b.tail b.data.length src
  let tail := b.tail + n
  if tail ≥ data.length then
    let (data, tail) ← copyRange? data 0 data.length (← slice? src n src.length)
    return { b with data := data, tail := tail }
  else
    return { b with data := data, tail := tail }

/-- Copy the first bytes of the ring to `dst` and drop `size` of them; returns the buffer,
the new contents of `dst` and the number of copied bytes. -/
def Buffer.readBytes (b : Buffer α) (dst : List UInt8) (size : Nat) :
    Option (Buffer α × List UInt8 × Nat) := do
  let copied := min dst.length size
  let dst ←
    if b.head + copied ≤ b.data.length then do
      let (dst, _) ← copyRange? dst 0 dst.length (← slice? b.data b.head (b.head + copied))
      pure dst
    else do
      let (dst, n) ← copyRange? dst 0 copied (← slice? b.data b.head b.data.length)
      let (dst, _) ← copyRange? dst n copied (← slice? b.data 0 (copied - n))
      pure dst
  let head := b.head + size
  let head := if head ≥ b.data.length then head - b.data.length else head
  return ({ b with head := head }, dst, copied)

/-- Offer a token to the `notify` channel; sending on the closed channel panics. -/
def Buffer.notifyReader (b : Buffer α) : Option (Buffer α) :=
  if b.closed then none else some { b with notify := true }

/-- `binary.BigEndian.PutUint16` of a truncated length. -/
def putUint16 (n : Nat) : List UInt8 := [UInt8.ofNat (n % 65536 / 256), UInt8.ofNat n]

/-- `binary.BigEndian.Uint16`. -/
def uint16 : List UInt8 → Option Nat
  | hi :: lo :: _ => some (hi.toNat * 256 + lo.toNat)
  | _ => none

/-- The byte limit in force for a write. -/
def Buffer.limit (sizeHardLimit : Bool) (b : Buffer α) : Int :=
  if b.limitSize ≤ 0 ∨ (sizeHardLimit = true ∧ b.limitSize ≥ maxSize) then maxSize - 1
  else b.limitSize

/-- The last part of `Write`, for a payload that fits: header, payload, attributes. -/
def Buffer.enqueue (b : Buffer α) (payload : List UInt8) (attributes : List α) :
    Option (Buffer α) := do
  let b ← b.growAttributes
  let b ← b.writeBytes (putUint16 payload.length)
  let b ← b.writeBytes payload
  let tail := b.attributesHead + b.count
  let tail := if tail ≥ b.attributes.length then tail - b.attributes.length else tail
  let slots ← store? b.attributes tail attributes
  let b := { b with attributes := slots, count := b.count + 1 }
  b.notifyReader

/-- `Write` returns the byte count and the error, if any. -/
def Buffer.write (sizeHardLimit : Bool) (b : Buffer α) (payload : List UInt8)
    (attributes : List α) : Option (Buffer α × Nat × Option Error) := do
  if payload.length ≥ 0x10000 then
    return (b, 0, some .packetTooBig)
  if b.closed then
    return (b, 0, some .closedPipe)
  let size : Int := payload.length + headerSize
  if (b.limitCount > 0 ∧ (b.count : Int) ≥ b.limitCount) ∨
      size > b.limit sizeHardLimit - b.size then
    return (b, 0, some .full)
  -- grow the buffer until the packet fits
  match ← b.growUntil sizeHardLimit payload.length (payload.length + headerSize + 2) with
  | (b, some err) => return (b, 0, some err)
  | (b, none) =>
    let b ← b.enqueue payload attributes
    return (b, payload.length, none)

/-- The part of `consumePacket` that empties the slot of the oldest packet. -/
def Buffer.takeAttributes (b : Buffer α) : Option (Buffer α × List α) := do
  let queued ← b.attributes[b.attributesHead]?
  let slots ← store? b.attributes b.attributesHead []
  let attributesHead := b.attributesHead + 1
  let attributesHead := if attributesHead = slots.length then 0 else attributesHead
  return ({ b with attributes := slots, attributesHead := attributesHead, count := b.count - 1 },
    queued)

/-- The last part of `consumePacket`: an emptied ring starts over, otherwise the next reader
is woken. -/
def Buffer.afterConsume (b : Buffer α) : Option (Buffer α) :=
  if b.head = b.tail then some { b with head := 0, tail := 0, attributesHead := 0 }
  else if !b.closed then b.notifyReader
  else some b

/-- `consumePacket` removes the oldest packet; returns the new payload buffer, the byte
count, the attributes and the error. -/
def Buffer.consumePacket (b : Buffer α) (payloadBuf : List UInt8) (attributes : List α) :
    Option (Buffer α × List UInt8 × Nat × List α × Option Error) := do
  let (b, header, _) ← b.readBytes (List.replicate headerSize 0) headerSize
  let payloadSize ← uint16 header
  let (b, payloadBuf, n) ← b.readBytes payloadBuf payloadSize
  let (b, queued) ← b.takeAttributes
  let attributes := attributes.take 0 ++ queued
  let b ← b.afterConsume
  if n < payloadSize then
    return (b, payloadBuf, n, attributes, some .shortBuffer)
  return (b, payloadBuf, n, attributes, none)

/-- How a call of `Read` ends: it returns, or it waits for a writer, a deadline or `Close`. -/
inductive ReadResult (α : Type)
  | returned (payloadBuf : List UInt8) (n : Nat) (attributes : List α) (err : Option Error)
  | blocked
  deriving DecidableEq, Repr

/-- `Read` up to its return or its first wait with an empty `notify` channel. A token
found there is taken before the call waits again. -/
def Buffer.read (b : Buffer α) (payloadBuf : List UInt8) (attributes : List α) :
    Option (Buffer α × ReadResult α) := do
  if b.readDeadline then
    return (b, .returned payloadBuf 0 [] (some .timeout))
  if b.head ≠ b.tail then
    let (b, payloadBuf, n, attrs, err) ← b.consumePacket payloadBuf attributes
    return (b, .returned payloadBuf n attrs err)
  if b.closed then
    return (b, .returned payloadBuf 0 [] (some .eof))
  return ({ b with notify := false }, .blocked)

/-- `Close` closes the `notify` channel once. -/
def Buffer.close (b : Buffer α) : Buffer α :=
  if b.closed then b else { b with closed := true, notify := false }

/-- The exported operations of the buffer, apart from deadlines. -/
inductive Op (α : Type)
  | write (payload : List UInt8) (attributes : List α)
  | read (payloadBuf : List UInt8) (attributes : List α)
  | setLimitSize (limit : Int)
  | setLimitCount (limit : Int)
  | close
  | count
  | size
  deriving DecidableEq, Repr

/-- The observable result of one operation. -/
inductive Out (α : Type)
  | wrote (n : Nat) (err : Option Error)
  | read (result : ReadResult α)
  | done
  | value (n : Int)
  deriving DecidableEq, Repr

/-- Execute one operation. -/
def Buffer.step (sizeHardLimit : Bool) (b : Buffer α) : Op α → Option (Buffer α × Out α)
  | .write payload attributes =>
    (b.write sizeHardLimit payload attributes).map fun r => (r.1, .wrote r.2.1 r.2.2)
  | .read payloadBuf attributes =>
    (b.read payloadBuf attributes).map fun r => (r.1, .read r.2)
  | .setLimitSize limit => some ({ b with limitSize := limit }, .done)
  | .setLimitCount limit => some ({ b with limitCount := limit }, .done)
  | .close => some (b.close, .done)
  | .count => some (b, .value b.count)
  | .size => some (b, .value b.size)

end PionTransport.PacketIO
