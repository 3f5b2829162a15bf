import PionTransport.Core.Backed
import PionTransport.Core.Slice
import PionTransport.Core.Word

/-!
# The test bridge

A network between two endpoints. Packets that are pushed at one end wait in the queue
of their direction until `Tick` hands them to a reader at the other end. On their way
they may be dropped, filtered, or held back on a stack to be reordered. The slice that
`Push` makes is known by its number; the number 0 is the nil slice. `none` is a panic:
an index out of range, or a channel that is used after it was closed.
-/

namespace PionTransport.Bridges

open PionTransport.Core

/-- A slice that `Push` has made. -/
structure Packet where
  id : Nat
  bytes : List UInt8
  deriving DecidableEq, Repr

instance : Inhabited Packet := ⟨⟨0, []⟩⟩

/-- The errors of the package. -/
inductive BridgeError
  | bridgeAlreadyClosed
  | inverseArrayWithOne
  deriving DecidableEq, Repr

/-- The text of an error. -/
def BridgeError.string : BridgeError → String
  | bridgeAlreadyClosed => "bridge has already been closed"
  | inverseArrayWithOne => "inverse requires more than one item in the array"

section Helpers

variable {α : Type*}

/-- The loop of `inverse` with its two indices. -/
def inverseLoop : Nat → Nat → List α → Option (List α)
  | _, 0, s => some s
  | i, j + 1, s => if i < j + 1 then (swap? s i (j + 1)).bind (inverseLoop (i + 1) j) else some s

/-- `inverse`, with the slice that it leaves. -/
def inverse (s : List α) : Option (List α × Option BridgeError) :=
  if s.length < 2 then some (s, some .inverseArrayWithOne)
  else (inverseLoop 0 (s.length - 1) s).map fun s => (s, none)

/-- `drop`; the additions wrap around. -/
def drop [Inhabited α] (grow : Nat → Nat → Nat) (s : Backed α) (offset n : Int) :
    Option (Backed α) := do
  let n := if int64 (offset + n) > s.len then int64 (s.len - offset) else n
  let front ← s.upTo? offset
  let back ← s.from? (int64 (offset + n))
  return front.append grow back.items

end Helpers

/-- The fields of `bridgeConn` that the bridge uses, and whether `readCh` is closed. -/
structure Conn where
  closeReq : Bool := false
  closing : Bool := false
  closed : Bool := false
  readChClosed : Bool := false
  deriving DecidableEq, Repr

namespace Conn

/-- `Close`. -/
def close (c : Conn) : Conn × Option BridgeError :=
  if c.closeReq then (c, some .bridgeAlreadyClosed)
  else ({ c with closeReq := true, closing := true }, none)

/-- `Tick` closes the channel of a closing endpoint when the queue towards it is empty. -/
def finish (c : Conn) (queue : Backed Packet) : Option Conn :=
  if c.closing ∧ ¬ c.closed ∧ queue.len = 0 then
    if c.readChClosed then none else some { c with closed := true, readChClosed := true }
  else some c

end Conn

/-- The fields of `Bridge` for one direction. A callback that answers differently later is one that
is set again. -/
structure Lane where
  queue : Backed Packet := .empty
  dropNWrites : Int := 0
  reorderNWrites : Int := 0
  stack : List Packet := []
  filterCB : Option (List UInt8 → Bool) := none

namespace Lane

/-- The packet is filtered out. -/
def filtered (l : Lane) (data : Packet) : Bool :=
  match l.filterCB with
  | none => false
  | some cb => !cb data.bytes

/-- The stack from endpoint 0 is complete. -/
def release0 (grow : Nat → Nat → Nat) (l : Lane) : Option (Lane × Option BridgeError) := do
  let (stack, err) ← inverse l.stack
  match err with
  | none => return ({ l with stack := stack, queue := l.queue.append grow stack }, none)
  | some e => return ({ l with stack := stack }, some e)

/-- The stack from endpoint 1 is complete; an error does not keep it from the queue. -/
def release1 (grow : Nat → Nat → Nat) (l : Lane) : Option (Lane × Option BridgeError) := do
  let (stack, err) ← inverse l.stack
  return ({ l with stack := stack, queue := l.queue.append grow stack }, err)

/-- The switch of `Push` for one direction. -/
def push (grow : Nat → Nat → Nat) (release : Lane → Option (Lane × Option BridgeError)) (l : Lane)
    (data : Packet) : Option (Lane × Option BridgeError) :=
  if l.dropNWrites > 0 then some ({ l with dropNWrites := l.dropNWrites - 1 }, none)
  else if l.reorderNWrites > 0 then
    let l := { l with reorderNWrites := l.reorderNWrites - 1, stack := l.stack ++ [data] }
    if l.reorderNWrites = 0 then release l else some (l, none)
  else if l.filtered data then some (l, none)
  else some ({ l with queue := l.queue.append grow [data] }, none)

/-- `Tick` hands the first packet to a reader of `conn`, if there is one waiting. -/
def deliver (l : Lane) (conn : Conn) (waiting : Bool) : Option (Lane × Option Packet) :=
  match l.queue.items with
  | [] => some (l, none)
  | packet :: _ =>
    if conn.closed then some (l, none)
    else if conn.readChClosed then none
    else if waiting then
      (l.queue.from? 1).map fun queue => ({ l with queue := queue }, some packet)
    else some (l, none)

end Lane

/-- The fields of `Bridge`, and the number of packets made so far. -/
structure Bridge where
  conn0 : Conn := {}
  conn1 : Conn := {}
  /-- from endpoint 0 to endpoint 1 -/
  lane0 : Lane := {}
  /-- from endpoint 1 to endpoint 0 -/
  lane1 : Lane := {}
  err : Option BridgeError := none
  made : Nat := 0

/-- `NewBridge`. -/
def newBridge : Bridge := {}

namespace Bridge

/-- The direction of a sender. -/
def lane (b : Bridge) (fromID : Int) : Lane := if fromID = 0 then b.lane0 else b.lane1

/-- Replace the direction of a sender. -/
def setLane (b : Bridge) (fromID : Int) (l : Lane) : Bridge :=
  if fromID = 0 then { b with lane0 := l } else { b with lane1 := l }

/-- What `Push` returns at once if an endpoint is closing. -/
def refuses (b : Bridge) (fromID : Int) : Option Bool :=
  if b.conn0.closing ∨ b.conn1.closing then
    if fromID = 0 ∧ b.conn0.closing then some false
    else if fromID = 1 ∧ b.conn1.closing then some false
    else some true
  else none

/-- The rest of `Push`. -/
def enqueue (grow : Nat → Nat → Nat) (b : Bridge) (data : Packet) (fromID : Int) :
    Option Bridge :=
  if fromID = 0 then
    (b.lane0.push grow (Lane.release0 grow) data).map fun r =>
      { b with lane0 := r.1, err := r.2 <|> b.err }
  else
    (b.lane1.push grow (Lane.release1 grow) data).map fun r =>
      { b with lane1 := r.1, err := r.2 <|> b.err }

/-- The copy of the packet that `Push` makes. -/
def make (b : Bridge) (packet : List UInt8) : Bridge × Packet :=
  ({ b with made := b.made + 1 }, ⟨b.made + 1, packet⟩)

/-- `Push`. -/
def push (grow : Nat → Nat → Nat) (b : Bridge) (packet : List UInt8) (fromID : Int) :
    Option (Bridge × Bool) :=
  let (b, data) := b.make packet
  match b.refuses fromID with
  | some ok => some (b, ok)
  | none => (b.enqueue grow data fromID).map fun b => (b, true)

/-- `Reorder`. -/
def reorder (b : Bridge) (fromID : Int) : Option (Bridge × Option BridgeError) :=
  (inverse (b.lane fromID).queue.items).map fun r =>
    (b.setLane fromID { b.lane fromID with queue := { (b.lane fromID).queue with items := r.1 } },
      r.2)

/-- `Drop`. -/
def drop (grow : Nat → Nat → Nat) (b : Bridge) (fromID offset n : Int) : Option Bridge :=
  (Bridges.drop grow (b.lane fromID).queue offset n).map fun queue =>
    b.setLane fromID { b.lane fromID with queue := queue }

/-- `DropNextNWrites`. -/
def dropNextNWrites (b : Bridge) (fromID n : Int) : Bridge :=
  b.setLane fromID { b.lane fromID with dropNWrites := n }

/-- `ReorderNextNWrites`. -/
def reorderNextNWrites (b : Bridge) (fromID n : Int) : Bridge :=
  b.setLane fromID { b.lane fromID with reorderNWrites := n }

/-- `Filter`. -/
def filter (b : Bridge) (fromID : Int) (cb : Option (List UInt8 → Bool)) : Bridge :=
  b.setLane fromID { b.lane fromID with filterCB := cb }

/-- `Close` of one endpoint. -/
def close (b : Bridge) (id : Int) : Bridge × Option BridgeError :=
  if id = 0 then ({ b with conn0 := b.conn0.close.1 }, b.conn0.close.2)
  else ({ b with conn1 := b.conn1.close.1 }, b.conn1.close.2)

/-- `Tick` looks at endpoint 0. -/
def finish0 (b : Bridge) : Option Bridge :=
  (b.conn0.finish b.lane1.queue).map fun conn => { b with conn0 := conn }

/-- `Tick` looks at endpoint 1. -/
def finish1 (b : Bridge) : Option Bridge :=
  (b.conn1.finish b.lane0.queue).map fun conn => { b with conn1 := conn }

/-- The packets that a `Tick` hands over to the two endpoints. -/
structure Handed where
  to0 : Option Packet
  to1 : Option Packet
  deriving DecidableEq, Repr

/-- What `Tick` returns. -/
def Handed.n (h : Handed) : Int := h.to0.toList.length + h.to1.toList.length

/-- `Tick` hands over packets; it is known where a reader is waiting. -/
def deliver (b : Bridge) (waiting0 waiting1 : Bool) : Option (Bridge × Handed) := do
  let (lane0, to1) ← b.lane0.deliver b.conn1 waiting1
  let (lane1, to0) ← b.lane1.deliver b.conn0 waiting0
  return ({ b with lane0 := lane0, lane1 := lane1 }, ⟨to0, to1⟩)

/-- `Tick`. -/
def tick (b : Bridge) (waiting0 waiting1 : Bool) : Option (Bridge × Handed) := do
  let b ← b.finish0
  let b ← b.finish1
  b.deliver waiting0 waiting1

end Bridge

/-- The calls of a bridge and of its endpoints. -/
inductive Op
  | push (packet : List UInt8) (fromID : Int)
  | reorder (fromID : Int)
  | drop (fromID offset n : Int)
  | dropNextNWrites (fromID n : Int)
  | reorderNextNWrites (fromID n : Int)
  | filter (fromID : Int) (cb : Option (List UInt8 → Bool))
  | tick (waiting0 waiting1 : Bool)
  | close (id : Int)

/-- What a call is seen to do. -/
inductive Outcome
  /-- the packet that was made, the result, and the packets that have entered the queue -/
  | pushed (data : Packet) (ok : Bool) (entered : List Packet)
  | reordered (err : Option BridgeError)
  | done
  /-- the result, and the packets that were handed over -/
  | ticked (n : Int) (handed : Bridge.Handed)
  | closed (err : Option BridgeError)
  deriving DecidableEq, Repr

namespace Bridge

/-- What a call has put behind the queue of a direction. -/
def entered (b b' : Bridge) (fromID : Int) : List Packet :=
  (b'.lane fromID).queue.items.drop (b.lane fromID).queue.items.length

/-- Perform one call. -/
def step (grow : Nat → Nat → Nat) (b : Bridge) : Op → Option (Bridge × Outcome)
  | .push packet fromID =>
    (b.push grow packet fromID).map fun r =>
      (r.1, .pushed (b.make packet).2 r.2 (b.entered r.1 fromID))
  | .reorder fromID => (b.reorder fromID).map fun r => (r.1, .reordered r.2)
  | .drop fromID offset n => (b.drop grow fromID offset n).map fun b => (b, .done)
  | .dropNextNWrites fromID n => some (b.dropNextNWrites fromID n, .done)
  | .reorderNextNWrites fromID n => some (b.reorderNextNWrites fromID n, .done)
  | .filter fromID cb => some (b.filter fromID cb, .done)
  | .tick waiting0 waiting1 => (b.tick waiting0 waiting1).map fun r => (r.1, .ticked r.2.n r.2)
  | .close id => some ((b.close id).1, .closed (b.close id).2)

end Bridge

end PionTransport.Bridges
