import PionTransport.Core.Slice
import PionTransport.Deadlines.Deadline

/-!
# The datagram pipe

Two ends with a buffered channel in each direction. Any number of calls of `Read` and
`Write` run beside `Close` and the deadlines. A call that enters a `select` takes the
channel of its deadline first; which of the ready cases is chosen is given with the
step. A `Write` that finds its deadline exceeded empties the channel that it writes to,
one datagram after the other, before it returns. `none` is a panic.
-/

namespace PionTransport.Dpipe

open PionTransport.Core Deadlines

/-- The two ends that `Pipe` returns. -/
inductive Side
  | first
  | second
  deriving DecidableEq, Repr

/-- The other end. -/
def Side.other : Side → Side
  | first => second
  | second => first

/-- The errors of a call. -/
inductive Error
  | eof
  | closedPipe
  | deadlineExceeded
  deriving DecidableEq, Repr

/-- What belongs to one end. Nothing in the package closes `closing`. -/
structure Conn where
  closed : Bool := false
  closing : Bool := false
  readDeadline : Deadline := new
  writeDeadline : Deadline := new
  deriving DecidableEq, Repr

/-- What is called, with its argument. -/
inductive Kind
  | read (data : List UInt8)
  | write (data : List UInt8)
  deriving DecidableEq, Repr

/-- The two `select` statements of a call. -/
inductive Stage
  | check
  | wait
  deriving DecidableEq, Repr

/-- Where a call is. -/
inductive CallAt
  /-- in front of a `select` -/
  | entering (stage : Stage)
  /-- in a `select`, with this channel of its deadline -/
  | selecting (stage : Stage) (done : Nat)
  /-- in `cleanWriteBuffer` -/
  | cleaning
  /-- has returned the number of bytes, or an error -/
  | returned (result : Except Error Nat)

/-- A call of `Read` or `Write`. -/
structure Call where
  side : Side
  kind : Kind
  pos : CallAt := .entering .check

/-- The ends, the channels by the end that reads them, and the calls so far. -/
structure Pipe where
  conn0 : Conn := {}
  conn1 : Conn := {}
  ch0 : List (List UInt8) := []
  ch1 : List (List UInt8) := []
  calls : List Call := []

/-- `Pipe`. -/
def pipe : Pipe := {}

/-- The capacity of the channels. -/
def capacity : Nat := 1000

/-- The cases of a `select`. -/
inductive Choice
  | closed
  | closing
  | deadline
  | channel
  | default
  deriving DecidableEq, Repr

/-- The two deadlines of an end. -/
inductive Which
  | read
  | write
  deriving DecidableEq, Repr

/-- The steps of calls, closes and deadlines. -/
inductive Event
  | read (side : Side) (data : List UInt8)
  | write (side : Side) (data : List UInt8)
  /-- a call evaluates the channels of its `select` -/
  | enter (i : Nat)
  /-- a call chooses a case -/
  | select (i : Nat) (choice : Choice)
  /-- a call takes the next datagram out of the channel that it writes to -/
  | clean (i : Nat)
  | close (side : Side)
  /-- `SetReadDeadline` or `SetWriteDeadline` (`SetDeadline` is the one and then the other), or a
  step of the timer -/
  | deadline (side : Side) (which : Which) (e : Deadlines.Event)

/-- What a step is seen to do. -/
inductive Outcome
  | blocked
  | called (i : Nat)
  | moved
  /-- `Write` has put its datagram into the channel and returns -/
  | sent (i : Nat) (side : Side) (data : List UInt8)
  /-- `Read` has filled its buffer with so many bytes and returns -/
  | received (i : Nat) (side : Side) (data : List UInt8) (n : Nat)
  /-- `Write` has thrown a datagram away -/
  | discarded (i : Nat) (side : Side) (d : List UInt8)
  | failed (i : Nat) (err : Error)
  | closed
  | deadline (o : Deadlines.Outcome)
  deriving DecidableEq, Repr

/-- Copy a datagram to the buffer of the reader; the new buffer and the number of bytes. -/
def fill (data d : List UInt8) : Option (List UInt8 × Nat) :=
  if d.length ≤ data.length then
    (copyRange? data 0 data.length d).map fun r => (r.1, d.length)
  else do
    let front ← slice? d 0 data.length
    (copyRange? data 0 data.length front).map fun r => (r.1, data.length)

namespace Pipe

/-- An end. -/
def conn (p : Pipe) : Side → Conn
  | .first => p.conn0
  | .second => p.conn1

/-- Replace an end. -/
def setConn (p : Pipe) (side : Side) (c : Conn) : Pipe :=
  match side with
  | .first => { p with conn0 := c }
  | .second => { p with conn1 := c }

/-- The channel `rCh` of an end, which is `wCh` of the other one. -/
def rCh (p : Pipe) : Side → List (List UInt8)
  | .first => p.ch0
  | .second => p.ch1

/-- Replace the channel that an end reads. -/
def setRCh (p : Pipe) (side : Side) (ch : List (List UInt8)) : Pipe :=
  match side with
  | .first => { p with ch0 := ch }
  | .second => { p with ch1 := ch }

/-- Move a call. -/
def move (p : Pipe) (i : Nat) (pos : CallAt) : Pipe :=
  { p with calls := p.calls.modify i fun c => { c with pos } }

/-- A call returns an error. -/
def fail (p : Pipe) (i : Nat) (err : Error) : Option (Pipe × Outcome) :=
  some (p.move i (.returned (.error err)), .failed i err)

/-- A step that cannot be taken. -/
def blocked (p : Pipe) : Option (Pipe × Outcome) := some (p, .blocked)

/-- The deadline that a call minds. -/
def deadline (p : Pipe) (c : Call) : Deadline :=
  match c.kind with
  | .read _ => (p.conn c.side).readDeadline
  | .write _ => (p.conn c.side).writeDeadline

/-- The channel of the deadline is closed. -/
def exceeded (p : Pipe) (c : Call) (done : Nat) : Bool := (p.deadline c).chans[done]? = some true

/-- `closing` is a case of `Read` only. -/
def closing (p : Pipe) (c : Call) : Bool :=
  match c.kind with
  | .read _ => (p.conn c.side).closing
  | .write _ => false

/-- A call chooses a case of its `select`. -/
def select (p : Pipe) (i : Nat) (c : Call) (stage : Stage) (done : Nat) :
    Choice → Option (Pipe × Outcome)
  | .closed =>
    if (p.conn c.side).closed then
      match c.kind with
      | .read _ => p.fail i .eof
      | .write _ => p.fail i .closedPipe
    else p.blocked
  | .closing =>
    if p.closing c then
      if p.rCh c.side = [] then p.fail i .eof else some (p.move i (.entering .wait), .moved)
    else p.blocked
  | .deadline =>
    if p.exceeded c done then
      match c.kind with
      | .read _ => p.fail i .deadlineExceeded
      | .write _ => some (p.move i .cleaning, .moved)
    else p.blocked
  | .channel =>
    match stage, c.kind, p.rCh c.side with
    | .wait, .read data, d :: ch =>
      (fill data d).map fun r =>
        ((p.setRCh c.side ch).move i (.returned (.ok r.2)), .received i c.side r.1 r.2)
    | .wait, .write data, _ =>
      if (p.rCh c.side.other).length < capacity then
        some ((p.setRCh c.side.other (p.rCh c.side.other ++ [data])).move i
          (.returned (.ok data.length)), .sent i c.side data)
      else p.blocked
    | _, _, _ => p.blocked
  | .default =>
    match stage with
    | .check =>
      if (p.conn c.side).closed ∨ p.closing c ∨ p.exceeded c done then p.blocked
      else some (p.move i (.entering .wait), .moved)
    | .wait => p.blocked

/-- `cleanWriteBuffer` up to its next receive. -/
def clean (p : Pipe) (i : Nat) (c : Call) : Option (Pipe × Outcome) :=
  match p.rCh c.side.other with
  | d :: ch => some (p.setRCh c.side.other ch, .discarded i c.side d)
  | [] => p.fail i .deadlineExceeded

/-- `Close`; `closeOnce` makes all but the first one do nothing. -/
def close (p : Pipe) (side : Side) : Pipe :=
  p.setConn side { p.conn side with closed := true }

/-- A step of a deadline of an end. -/
def deadlineStep (p : Pipe) (side : Side) (which : Which) (e : Deadlines.Event) :
    Option (Pipe × Outcome) :=
  match which with
  | .read => ((p.conn side).readDeadline.step e).map fun r =>
      (p.setConn side { p.conn side with readDeadline := r.1 }, .deadline r.2)
  | .write => ((p.conn side).writeDeadline.step e).map fun r =>
      (p.setConn side { p.conn side with writeDeadline := r.1 }, .deadline r.2)

/-- One step of one goroutine. -/
def step (p : Pipe) : Event → Option (Pipe × Outcome)
  | .read side data =>
    some ({ p with calls := p.calls ++ [{ side, kind := .read data }] }, .called p.calls.length)
  | .write side data =>
    some ({ p with calls := p.calls ++ [{ side, kind := .write data }] }, .called p.calls.length)
  | .enter i =>
    match p.calls[i]? with
    | some ⟨side, kind, .entering stage⟩ =>
      some (p.move i (.selecting stage (p.deadline ⟨side, kind, .entering stage⟩).done), .moved)
    | _ => p.blocked
  | .select i choice =>
    match p.calls[i]? with
    | some ⟨side, kind, .selecting stage done⟩ =>
      p.select i ⟨side, kind, .selecting stage done⟩ stage done choice
    | _ => p.blocked
  | .clean i =>
    match p.calls[i]? with
    | some ⟨side, kind, .cleaning⟩ => p.clean i ⟨side, kind, .cleaning⟩
    | _ => p.blocked
  | .close side => some (p.close side, .closed)
  | .deadline side which e => p.deadlineStep side which e

end Pipe

end PionTransport.Dpipe
