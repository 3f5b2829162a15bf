import PionTransport.Core.Heap
import PionTransport.Core.Run

/-!
# A queue in front of a NIC

An embedding of `Queue`. Its goroutine takes chunks from the calls of
`onInboundChunk`, keeps them in a discipline and hands on what the discipline
releases. A step is one action of one goroutine; one that its goroutine cannot
take yet is blocked and changes nothing. The flag `closed` and the channel `close`
change under one lock, so they are one flag. No step panics. Time passes between
the steps, and while `next` reads the clock. When the wrapped NIC returns from a
call is its own matter; one behind a closed filter never does.
-/

namespace PionTransport.Vnet.Queueing

/-- `Discipline`, with the calls `κ` by which other goroutines adjust it. `next` and `pop` are given
the time; `next` also the time that passes before it reads the clock again, twice. -/
structure Discipline (δ β κ : Type) where
  push : δ → β → δ
  pop : δ → Int → δ × Option β
  empty : δ → Bool
  next : δ → Int → Nat → Nat → δ × Int
  adjust : δ → Int → κ → δ

/-- Where a call of `onInboundChunk` is. -/
inductive ProducerAt
  /-- in its `select` -/
  | sending
  /-- returned after its chunk was received -/
  | taken
  /-- returned after the queue was closed -/
  | gaveUp
  deriving DecidableEq, Repr

/-- A call of `onInboundChunk`. -/
structure Producer (β : Type) where
  chunk : β
  pos : ProducerAt := .sending
  deriving DecidableEq, Repr

/-- Where the goroutine of `run` is in `schedule`. -/
inductive LoopAt (β : Type)
  /-- in front of the lock -/
  | top
  /-- in front of the question whether the discipline is empty -/
  | asking
  /-- in its `select`, with the time at which its timer is due -/
  | selecting (timer : Option Int)
  /-- in front of `push` with a chunk it received -/
  | pushing (chunk : β)
  /-- in front of `pop` -/
  | popping
  /-- in front of the call of the wrapped NIC -/
  | handing (chunk : β)
  /-- in the call of the wrapped NIC -/
  | calling
  | exited
  deriving DecidableEq, Repr

/-- Where a call of `Close` is. -/
inductive CloserAt
  /-- in `wg.Wait` -/
  | waiting
  | returned
  deriving DecidableEq, Repr

/-- The queue with its goroutines and the clock. -/
structure Queue (δ β : Type) where
  data : δ
  now : Int
  closed : Bool := false
  loop : LoopAt β := .top
  producers : List (Producer β) := []
  closers : List CloserAt := []
  /-- the calls whose chunks were received, in this order -/
  received : List Nat := []
  /-- the chunks that the discipline released, with the times -/
  popped : List (Int × β) := []
  /-- the chunks handed to the wrapped NIC -/
  forwarded : List β := []
  deriving DecidableEq, Repr

/-- `NewQueue` at a time. -/
def newQueue {δ β : Type} (now : Int) (data : δ) : Queue δ β := { data, now }

/-- The steps of the goroutines. -/
inductive Event (β κ : Type)
  /-- time passes -/
  | elapse (d : Nat)
  /-- another goroutine adjusts the discipline -/
  | adjust (k : κ)
  /-- `onInboundChunk` is called -/
  | call (c : β)
  /-- the loop receives the chunk of a call -/
  | receive (i : Nat)
  /-- a call receives from `close` -/
  | giveUp (i : Nat)
  /-- the loop looks at `closed` -/
  | check
  /-- the loop asks the discipline for its next time and arms a timer -/
  | ask (d d' : Nat)
  /-- the loop pushes the chunk it received -/
  | store
  /-- the loop receives from its timer -/
  | fire
  /-- the loop calls `pop` -/
  | pop
  /-- the loop calls the wrapped NIC -/
  | hand
  /-- the wrapped NIC returns -/
  | handed
  /-- the loop receives from `close` -/
  | observe
  /-- `Close` is called -/
  | close
  /-- a call of `Close` returns -/
  | closeReturn (i : Nat)
  deriving DecidableEq, Repr

/-- The step is one of the loop; the return of the wrapped NIC is not. -/
def Event.ofLoop {β κ : Type} : Event β κ → Bool
  | receive _ | check | ask _ _ | store | fire | pop | hand | observe => true
  | _ => false

/-- What a step is seen to do. -/
inductive Outcome
  | blocked
  | moved
  deriving DecidableEq, Repr

namespace Queue

variable {δ β κ : Type} (D : Discipline δ β κ)

/-- A step that cannot be taken. -/
def blocked (q : Queue δ β) : Option (Queue δ β × Outcome) := some (q, .blocked)

/-- Move a call of `onInboundChunk`. -/
def moveProducer (q : Queue δ β) (i : Nat) (pos : ProducerAt) : Queue δ β :=
  { q with producers := q.producers.modify i fun p => { p with pos } }

/-- `onInboundChunk` up to its `select`. -/
def onInboundChunk (q : Queue δ β) (c : β) : Option (Queue δ β × Outcome) :=
  some ({ q with producers := q.producers ++ [{ chunk := c }] }, .moved)

/-- The send of a call meets the receive of the loop. -/
def receive (q : Queue δ β) (i : Nat) : Option (Queue δ β × Outcome) :=
  match q.producers[i]?, q.loop with
  | some ⟨c, .sending⟩, .selecting _ =>
    some ({ q.moveProducer i .taken with
      loop := .pushing c, received := q.received ++ [i] }, .moved)
  | _, _ => q.blocked

/-- A call receives from the closed `close`. -/
def giveUp (q : Queue δ β) (i : Nat) : Option (Queue δ β × Outcome) :=
  match q.producers[i]? with
  | some ⟨_, .sending⟩ => if q.closed then some (q.moveProducer i .gaveUp, .moved) else q.blocked
  | _ => q.blocked

/-- The start of `schedule`. -/
def check (q : Queue δ β) : Option (Queue δ β × Outcome) :=
  match q.loop with
  | .top =>
    if q.closed then some ({ q with loop := .exited }, .moved)
    else some ({ q with loop := .asking }, .moved)
  | _ => q.blocked

/-- `schedule` up to its `select`; the last reading of the clock is that of `time.Until`. -/
def ask (q : Queue δ β) (d d' : Nat) : Option (Queue δ β × Outcome) :=
  match q.loop with
  | .asking =>
    if D.empty q.data then some ({ q with loop := .selecting none }, .moved)
    else
      let (data, next) := D.next q.data q.now d d'
      let now := q.now + d + d'
      some ({ q with data, now, loop := .selecting (some (now + max 0 (next - now))) }, .moved)
  | _ => q.blocked

/-- The loop pushes what it received. -/
def store (q : Queue δ β) : Option (Queue δ β × Outcome) :=
  match q.loop with
  | .pushing c => some ({ q with data := D.push q.data c, loop := .top }, .moved)
  | _ => q.blocked

/-- The timer of the loop fires. -/
def fire (q : Queue δ β) : Option (Queue δ β × Outcome) :=
  match q.loop with
  | .selecting (some due) =>
    if due ≤ q.now then some ({ q with loop := .popping }, .moved) else q.blocked
  | _ => q.blocked

/-- The loop pops a chunk. -/
def pop (q : Queue δ β) : Option (Queue δ β × Outcome) :=
  match q.loop with
  | .popping =>
    match D.pop q.data q.now with
    | (data, none) => some ({ q with data, loop := .top }, .moved)
    | (data, some c) =>
      some ({ q with data, loop := .handing c, popped := q.popped ++ [(q.now, c)] }, .moved)
  | _ => q.blocked

/-- The loop calls the wrapped NIC. -/
def hand (q : Queue δ β) : Option (Queue δ β × Outcome) :=
  match q.loop with
  | .handing c => some ({ q with loop := .calling, forwarded := q.forwarded ++ [c] }, .moved)
  | _ => q.blocked

/-- The wrapped NIC's `onInboundChunk` returns. -/
def handed (q : Queue δ β) : Option (Queue δ β × Outcome) :=
  match q.loop with
  | .calling => some ({ q with loop := .top }, .moved)
  | _ => q.blocked

/-- The loop receives from the closed `close`. -/
def observe (q : Queue δ β) : Option (Queue δ β × Outcome) :=
  match q.loop with
  | .selecting _ => if q.closed then some ({ q with loop := .exited }, .moved) else q.blocked
  | _ => q.blocked

/-- `Close` up to its wait; a later call finds the queue closed. -/
def close (q : Queue δ β) : Option (Queue δ β × Outcome) :=
  some ({ q with closed := true, closers := q.closers ++ [.waiting] }, .moved)

/-- `Close` returns after the loop. -/
def closeReturn (q : Queue δ β) (i : Nat) : Option (Queue δ β × Outcome) :=
  match q.closers[i]?, q.loop with
  | some .waiting, .exited =>
    some ({ q with closers := q.closers.modify i fun _ => .returned }, .moved)
  | _, _ => q.blocked

/-- One step of one goroutine. -/
def step (q : Queue δ β) : Event β κ → Option (Queue δ β × Outcome)
  | .elapse d => some ({ q with now := q.now + d }, .moved)
  | .adjust k => some ({ q with data := D.adjust q.data q.now k }, .moved)
  | .call c => q.onInboundChunk c
  | .receive i => q.receive i
  | .giveUp i => q.giveUp i
  | .check => q.check
  | .ask d d' => q.ask D d d'
  | .store => q.store D
  | .fire => q.fire
  | .pop => q.pop D
  | .hand => q.hand
  | .handed => q.handed
  | .observe => q.observe
  | .close => q.close
  | .closeReturn i => q.closeReturn i

end Queue

open Queue

/-- What one step can do. -/
inductive Transition {δ β κ : Type} (D : Discipline δ β κ) (q : Queue δ β) :
    Event β κ → Outcome → Queue δ β → Prop
  | stutter {e} : Transition D q e .blocked q
  | elapse {d : Nat} : Transition D q (.elapse d) .moved { q with now := q.now + d }
  | adjust {k} : Transition D q (.adjust k) .moved { q with data := D.adjust q.data q.now k }
  | call {c} : Transition D q (.call c) .moved
      { q with producers := q.producers ++ [{ chunk := c }] }
  | receive {i c timer} : q.producers[i]? = some ⟨c, .sending⟩ → q.loop = .selecting timer →
      Transition D q (.receive i) .moved { q.moveProducer i .taken with
        loop := .pushing c, received := q.received ++ [i] }
  | giveUp {i c} : q.producers[i]? = some ⟨c, .sending⟩ → q.closed = true →
      Transition D q (.giveUp i) .moved (q.moveProducer i .gaveUp)
  | stop : q.loop = .top → q.closed = true →
      Transition D q .check .moved { q with loop := .exited }
  | goOn : q.loop = .top → q.closed = false →
      Transition D q .check .moved { q with loop := .asking }
  | idle {d d'} : q.loop = .asking → D.empty q.data = true →
      Transition D q (.ask d d') .moved { q with loop := .selecting none }
  | arm {d d' : Nat} : q.loop = .asking → D.empty q.data = false →
      Transition D q (.ask d d') .moved { q with
        data := (D.next q.data q.now d d').1
        now := q.now + d + d'
        loop := .selecting (some (q.now + d + d' +
          max 0 ((D.next q.data q.now d d').2 - (q.now + d + d')))) }
  | store {c} : q.loop = .pushing c →
      Transition D q .store .moved { q with data := D.push q.data c, loop := .top }
  | fire {due} : q.loop = .selecting (some due) → due ≤ q.now →
      Transition D q .fire .moved { q with loop := .popping }
  | hold {data} : q.loop = .popping → D.pop q.data q.now = (data, none) →
      Transition D q .pop .moved { q with data := data, loop := .top }
  | release {data c} : q.loop = .popping → D.pop q.data q.now = (data, some c) →
      Transition D q .pop .moved { q with
        data := data, loop := .handing c, popped := q.popped ++ [(q.now, c)] }
  | hand {c} : q.loop = .handing c →
      Transition D q .hand .moved { q with loop := .calling, forwarded := q.forwarded ++ [c] }
  | handed : q.loop = .calling → Transition D q .handed .moved { q with loop := .top }
  | observe {timer} : q.loop = .selecting timer → q.closed = true →
      Transition D q .observe .moved { q with loop := .exited }
  | close : Transition D q .close .moved
      { q with closed := true, closers := q.closers ++ [.waiting] }
  | closeReturn {i} : q.closers[i]? = some .waiting → q.loop = .exited →
      Transition D q (.closeReturn i) .moved
        { q with closers := q.closers.modify i fun _ => .returned }

variable {δ β κ : Type} {D : Discipline δ β κ} {q q' : Queue δ β} {e : Event β κ} {o : Outcome}

theorem blocked_transition (h : q.blocked = some (q', o)) : Transition D q e o q' := by
  cases h
  exact .stutter

/-- A step of the queue is one of the listed ones. -/
theorem step_transition (h : q.step D e = some (q', o)) : Transition D q e o q' := by
  -- where the event does not apply it is blocked; the other branches follow in the events' order
  cases e <;> simp only [step, onInboundChunk, receive, giveUp, check, ask, store, fire, pop, hand,
    handed, observe, Queue.close, closeReturn] at h <;> (repeat' split at h) <;>
    first | exact blocked_transition h | cases h
  · exact .elapse
  · exact .adjust
  · exact .call
  · exact .receive ‹_› ‹_›
  · exact .giveUp ‹_› ‹_›
  · exact .stop ‹_› ‹_›
  · exact .goOn ‹_› (eq_false_of_ne_true ‹_›)
  · exact .idle ‹_› ‹_›
  · exact .arm ‹_› (eq_false_of_ne_true ‹_›)
  · exact .store ‹_›
  · exact .fire ‹_› ‹_›
  · exact .hold ‹_› ‹_›
  · exact .release ‹_› ‹_›
  · exact .hand ‹_›
  · exact .handed ‹_›
  · exact .observe ‹_› ‹_›
  · exact .close
  · exact .closeReturn ‹_› ‹_›

end PionTransport.Vnet.Queueing
