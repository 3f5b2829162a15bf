import Mathlib.Logic.Function.Basic
import PionTransport.Core.Run

/-!
# The ping-pong write batcher

Writers fill one batch while the flusher writes the other one to the socket. A
step is one action of one goroutine on the shared state: a call of
`EnqueueMessage`, the flusher, or a call of `Close`. What happens under `mu` is
one step. A step that its goroutine cannot take yet is blocked and changes
nothing; `none` is a panic. Time is read only through the result of comparing
it with the flush interval.
-/

namespace PionTransport.Udp.Batch

/-- The size of the first buffer of a slot. -/
def sendMTU : Nat := 1500

/-- The buffers and the address of an `ipv4.Message`. -/
structure Message (α : Type) where
  buffers : List (List UInt8)
  addr : Option α
  deriving DecidableEq, Repr

/-- The bytes of a message. -/
def Message.payload {α : Type} (msg : Message α) : List UInt8 := msg.buffers.flatten

/-- One of the two batches; its slots are allocated once and used again. -/
structure MessageBatch (α : Type) where
  size : Nat
  messages : List (Message α)
  writePos : Nat := 0

/-- `newMessageBatch`. -/
def newMessageBatch {α : Type} (size : Nat) : MessageBatch α where
  size := size
  messages := List.replicate size ⟨[List.replicate sendMTU 0], none⟩

section Batches

variable {α : Type}

/-- Copy a packet to a slot, with a second buffer for what does not fit the first. -/
def Message.fill (msg : Message α) (buf : List UInt8) (raddr : Option α) : Message α where
  buffers := if sendMTU < buf.length then [buf.take sendMTU, buf.drop sendMTU] else [buf]
  addr := raddr <|> msg.addr

namespace MessageBatch

/-- No slot is left. -/
def isFull (m : MessageBatch α) : Bool := m.writePos == m.size

/-- Fill the slot at the write position. -/
def store (m : MessageBatch α) (msg : Message α) : MessageBatch α :=
  { m with messages := m.messages.set m.writePos msg, writePos := m.writePos + 1 }

/-- `messageBatch.EnqueueMessage`. -/
def enqueueMessage (m : MessageBatch α) (buf : List UInt8) (raddr : Option α) :
    Option (MessageBatch α × Nat × Bool) :=
  if buf = [] ∨ m.isFull then some (m, 0, m.isFull)
  else do
    let msg ← m.messages[m.writePos]?
    return (m.store (msg.fill buf raddr), buf.length, (m.store (msg.fill buf raddr)).isFull)

/-- The messages that a flush which has sent `txN` of them offers to `WriteBatch`. -/
def offered (m : MessageBatch α) (txN : Nat) : List (Message α) :=
  (m.messages.take m.writePos).drop txN

/-- The messages in the batch. -/
def written (m : MessageBatch α) : List (Message α) := m.messages.take m.writePos

/-- The end of `Flush`. -/
def reset (m : MessageBatch α) : MessageBatch α := { m with writePos := 0 }

end MessageBatch

end Batches

/-- Where the flusher is. -/
inductive Flusher
  /-- in front of the condition of its loop -/
  | looping
  /-- parked in its `select` -/
  | selecting
  /-- has left the `select` for a swap -/
  | awake
  /-- in `Flush` of a batch, with `txN` messages sent -/
  | flushing (i : Bool) (txN : Nat)
  /-- in front of `updateReadBatch` -/
  | flushed
  /-- has left its loop -/
  | exiting
  /-- has closed `writeBatchSwapped` for the last time -/
  | released
  | ended
  deriving DecidableEq, Repr

/-- Where a call of `EnqueueMessage` is. -/
inductive WriterAt
  /-- in front of `mu.Lock` -/
  | trying
  /-- receives from the swapped channel with this number -/
  | waiting (ch : Nat)
  /-- in front of the load of `closed` -/
  | woken
  /-- in front of the send to `writeReady`; `ch` numbers the channel at its enqueue -/
  | signalling (n : Nat) (ch : Nat)
  | returned (n : Nat)
  deriving DecidableEq, Repr

/-- A call of `EnqueueMessage`. -/
structure Writer (α : Type) where
  buf : List UInt8
  raddr : Option α
  pos : WriterAt := .trying
  deriving DecidableEq

/-- Where a call of `Close` is. -/
inductive CloserAt
  /-- has stored `closed` -/
  | stored
  /-- receives from `flusherDone` -/
  | waiting
  | returned
  deriving DecidableEq, Repr

/-- The shared state; indices into `batches` are bits. Every swap closes the channel
`writeBatchSwapped` and makes the next one, so that a number names a channel. -/
structure PingPong (α : Type) where
  batches : Bool → MessageBatch α
  writeBatchIdx : Bool := false
  readBatchIdx : Bool := false
  flushPending : Bool := false
  writeReady : Bool := false
  writeBatchSwapped : Nat := 0
  swappedClosed : Bool := false
  flusherDone : Bool := false
  closed : Bool := false
  flusher : Flusher := .looping
  writers : List (Writer α) := []
  closers : List CloserAt := []
  /-- the messages that `WriteBatch` has transmitted -/
  sent : List (Message α) := []

/-- `newPingPong`. -/
def newPingPong {α : Type} (size : Nat) : PingPong α where
  batches := fun _ => newMessageBatch size

/-- The steps of the goroutines. -/
inductive Event (α : Type)
  /-- `EnqueueMessage` is called -/
  | call (buf : List UInt8) (raddr : Option α)
  /-- the part of `EnqueueMessage` under `mu` -/
  | enqueue (i : Nat)
  /-- a writer receives from its swapped channel -/
  | wake (i : Nat)
  /-- a writer loads `closed` -/
  | check (i : Nat)
  /-- a writer sends to `writeReady` without blocking and returns -/
  | signal (i : Nat)
  /-- the flusher loads `closed` -/
  | loop
  /-- the flusher receives from the ticker, with whether the interval has elapsed -/
  | tick (elapsed : Bool)
  /-- the flusher receives from `writeReady` -/
  | ready
  /-- `updateWriteBatchAndGetReadBatch` -/
  | swap
  /-- one `WriteBatch` of `Flush`, with its count or an error -/
  | writeBatch (r : Option Nat)
  /-- `Flush` returns -/
  | flushed
  /-- `updateReadBatch` -/
  | updateRead
  /-- the flusher closes `writeBatchSwapped` on its way out -/
  | release
  /-- the flusher closes `flusherDone` -/
  | finish
  /-- `Close` stores `closed` -/
  | closeStore
  /-- `Close` sends to `writeReady` without blocking -/
  | closeSignal (i : Nat)
  /-- `Close` receives from `flusherDone` -/
  | closeReturn (i : Nat)

/-- What a step is seen to do. -/
inductive Outcome (α : Type)
  | blocked
  | moved
  /-- the message of a writer is in a batch -/
  | accepted (i : Nat) (buf : List UInt8) (raddr : Option α)
  deriving DecidableEq

section Steps

variable {α : Type}

namespace PingPong

/-- Replace a batch. -/
def setBatch (p : PingPong α) (i : Bool) (m : MessageBatch α) : PingPong α :=
  { p with batches := Function.update p.batches i m }

/-- Move a writer. -/
def moveWriter (p : PingPong α) (i : Nat) (pos : WriterAt) : PingPong α :=
  { p with writers := p.writers.modify i fun w => { w with pos } }

/-- `getWriteBatch`; `none` while the flush of that batch is pending. -/
def getWriteBatch (p : PingPong α) : Option Bool :=
  if p.writeBatchIdx = p.readBatchIdx ∧ p.flushPending then none else some p.writeBatchIdx

/-- The flusher holds the mutex of the batch. -/
def flushes (p : PingPong α) (i : Bool) : Bool :=
  match p.flusher with
  | .flushing j _ => i == j
  | _ => false

/-- A received channel: every one before the current one is closed. -/
def channelClosed (p : PingPong α) (ch : Nat) : Bool :=
  ch < p.writeBatchSwapped || p.swappedClosed

/-- A step that cannot be taken. -/
def blocked (p : PingPong α) : Option (PingPong α × Outcome α) := some (p, .blocked)

/-- `EnqueueMessage` is called. -/
def call (p : PingPong α) (buf : List UInt8) (raddr : Option α) :
    Option (PingPong α × Outcome α) :=
  some ({ p with writers := p.writers ++ [{ buf, raddr }] }, .moved)

/-- Where a writer goes with the result `n, isFull` of the batch. -/
def leave (p : PingPong α) (n : Nat) (isFull : Bool) : WriterAt :=
  if isFull then .signalling n p.writeBatchSwapped else .returned n

/-- `EnqueueMessage` under `mu`; a writer whose message is not taken waits for a swap. -/
def enqueue (p : PingPong α) (i : Nat) : Option (PingPong α × Outcome α) :=
  match p.writers[i]? with
  | some ⟨buf, raddr, .trying⟩ =>
    match p.getWriteBatch with
    | none => some (p.moveWriter i (.waiting p.writeBatchSwapped), .moved)
    | some b =>
      if p.flushes b then p.blocked
      else do
        let (m, n, isFull) ← (p.batches b).enqueueMessage buf raddr
        if n = buf.length then
          return ((p.setBatch b m).moveWriter i (p.leave n isFull),
            if buf = [] then .moved else .accepted i buf raddr)
        else return ((p.setBatch b m).moveWriter i (.waiting p.writeBatchSwapped), .moved)
  | _ => p.blocked

/-- A writer receives from its swapped channel. -/
def wake (p : PingPong α) (i : Nat) : Option (PingPong α × Outcome α) :=
  match p.writers[i]? with
  | some ⟨_, _, .waiting ch⟩ =>
    if p.channelClosed ch then some (p.moveWriter i .woken, .moved) else p.blocked
  | _ => p.blocked

/-- A woken writer gives up if the batcher is closed. -/
def check (p : PingPong α) (i : Nat) : Option (PingPong α × Outcome α) :=
  match p.writers[i]? with
  | some ⟨_, _, .woken⟩ =>
    some (p.moveWriter i (if p.closed then .returned 0 else .trying), .moved)
  | _ => p.blocked

/-- A writer that filled the batch wakes the flusher. -/
def signal (p : PingPong α) (i : Nat) : Option (PingPong α × Outcome α) :=
  match p.writers[i]? with
  | some ⟨_, _, .signalling n _⟩ =>
    some ({ p.moveWriter i (.returned n) with writeReady := true }, .moved)
  | _ => p.blocked

/-- The flusher leaves its loop if the batcher is closed. -/
def loop (p : PingPong α) : Option (PingPong α × Outcome α) :=
  match p.flusher with
  | .looping => some ({ p with flusher := if p.closed then .exiting else .selecting }, .moved)
  | _ => p.blocked

/-- The ticker wakes the flusher, which goes on if the interval has elapsed. -/
def tick (p : PingPong α) (elapsed : Bool) : Option (PingPong α × Outcome α) :=
  match p.flusher with
  | .selecting => some ({ p with flusher := if elapsed then .awake else .looping }, .moved)
  | _ => p.blocked

/-- `writeReady` wakes the flusher. -/
def ready (p : PingPong α) : Option (PingPong α × Outcome α) :=
  match p.flusher with
  | .selecting =>
    if p.writeReady then some ({ p with flusher := .awake, writeReady := false }, .moved)
    else p.blocked
  | _ => p.blocked

/-- `updateWriteBatchAndGetReadBatch`, and the start of `Flush`. -/
def swap (p : PingPong α) : Option (PingPong α × Outcome α) :=
  match p.flusher with
  | .awake =>
    if p.writeBatchIdx ≠ p.readBatchIdx ∨ p.flushPending then
      some ({ p with flusher := .looping }, .moved)
    else if p.swappedClosed then none
    else
      some ({ p with
        writeBatchIdx := !p.writeBatchIdx
        flushPending := true
        writeBatchSwapped := p.writeBatchSwapped + 1
        flusher := .flushing p.readBatchIdx 0 }, .moved)
  | _ => p.blocked

/-- One `WriteBatch` of `Flush`; an error ends the flush. -/
def writeBatch (p : PingPong α) (r : Option Nat) : Option (PingPong α × Outcome α) :=
  match p.flusher with
  | .flushing i txN =>
    if txN < (p.batches i).writePos then
      match r with
      | none => some ({ p.setBatch i (p.batches i).reset with flusher := .flushed }, .moved)
      | some n =>
        some ({ p with
          sent := p.sent ++ ((p.batches i).offered txN).take n
          flusher := .flushing i (txN + n) }, .moved)
    else p.blocked
  | _ => p.blocked

/-- `Flush` has offered everything and resets the batch. -/
def finishFlush (p : PingPong α) : Option (PingPong α × Outcome α) :=
  match p.flusher with
  | .flushing i txN =>
    if txN < (p.batches i).writePos then p.blocked
    else some ({ p.setBatch i (p.batches i).reset with flusher := .flushed }, .moved)
  | _ => p.blocked

/-- `updateReadBatch`. -/
def updateReadBatch (p : PingPong α) : Option (PingPong α × Outcome α) :=
  match p.flusher with
  | .flushed =>
    if p.flushPending then
      some ({ p with
        readBatchIdx := !p.readBatchIdx
        flushPending := false
        flusher := .looping }, .moved)
    else some ({ p with flusher := .looping }, .moved)
  | _ => p.blocked

/-- The flusher closes the swapped channel. -/
def release (p : PingPong α) : Option (PingPong α × Outcome α) :=
  match p.flusher with
  | .exiting =>
    if p.swappedClosed then none
    else some ({ p with swappedClosed := true, flusher := .released }, .moved)
  | _ => p.blocked

/-- The flusher closes `flusherDone`. -/
def finish (p : PingPong α) : Option (PingPong α × Outcome α) :=
  match p.flusher with
  | .released =>
    if p.flusherDone then none
    else some ({ p with flusherDone := true, flusher := .ended }, .moved)
  | _ => p.blocked

/-- `Close` stores `closed`. -/
def closeStore (p : PingPong α) : Option (PingPong α × Outcome α) :=
  some ({ p with closed := true, closers := p.closers ++ [.stored] }, .moved)

/-- `Close` sends to `writeReady`. -/
def closeSignal (p : PingPong α) (i : Nat) : Option (PingPong α × Outcome α) :=
  if p.closers[i]? = some .stored then
    some ({ p with writeReady := true, closers := p.closers.set i .waiting }, .moved)
  else p.blocked

/-- `Close` receives from `flusherDone`. -/
def closeReturn (p : PingPong α) (i : Nat) : Option (PingPong α × Outcome α) :=
  if p.closers[i]? = some .waiting ∧ p.flusherDone then
    some ({ p with closers := p.closers.set i .returned }, .moved)
  else p.blocked

/-- One step of one goroutine. -/
def step (p : PingPong α) : Event α → Option (PingPong α × Outcome α)
  | .call buf raddr => p.call buf raddr
  | .enqueue i => p.enqueue i
  | .wake i => p.wake i
  | .check i => p.check i
  | .signal i => p.signal i
  | .loop => p.loop
  | .tick elapsed => p.tick elapsed
  | .ready => p.ready
  | .swap => p.swap
  | .writeBatch r => p.writeBatch r
  | .flushed => p.finishFlush
  | .updateRead => p.updateReadBatch
  | .release => p.release
  | .finish => p.finish
  | .closeStore => p.closeStore
  | .closeSignal i => p.closeSignal i
  | .closeReturn i => p.closeReturn i

end PingPong

end Steps

end PionTransport.Udp.Batch
