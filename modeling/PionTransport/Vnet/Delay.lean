import PionTransport.Core.Heap
import PionTransport.Core.Run

/-!
# The delay filter

An embedding of `DelayFilter`. A step is one action of one goroutine: a call of
`onInboundChunk`, the run loop, `SetDelay` or `Close`. The queue has no limits,
so it is a list, and only the run loop takes chunks off it. The timer holds the
time at which it is due until its channel is received from; as of Go 1.23, `Stop`
and `Reset` leave no stale value behind. A step that its goroutine cannot take
yet is blocked and changes nothing; `none` is a panic. Time passes between the
steps.
-/

namespace PionTransport.Vnet.Delay

/-- `ErrInvalidDelay` is the only error of the filter. -/
inductive DelayError
  | invalidDelay
  deriving DecidableEq, Repr

/-- The text of an error. -/
def DelayError.string : DelayError → String
  | invalidDelay => "delay must be non-negative"

/-- A chunk with its time of arrival and the delay in force then. -/
structure TimedChunk (β : Type) where
  chunk : β
  arrived : Int
  delay : Int
  deriving DecidableEq, Repr

/-- When the chunk is due. -/
def TimedChunk.deadline {β : Type} (c : TimedChunk β) : Int := c.arrived + c.delay

/-- Where a call of `onInboundChunk` is. -/
inductive ProducerAt
  /-- in front of `queue.push`, with its deadline computed -/
  | stamped
  /-- in front of its send to `push` -/
  | signalling
  | returned
  deriving DecidableEq, Repr

/-- A call of `onInboundChunk`. -/
structure Producer (β : Type) where
  timed : TimedChunk β
  pos : ProducerAt := .stamped
  deriving DecidableEq, Repr

/-- Where the run loop is. -/
inductive LoopAt
  /-- in its `select` -/
  | selecting
  /-- in front of `updateTimerForNextPacket` -/
  | updating
  /-- in `processReadyPackets` with the time received from the timer -/
  | processing (now : Int)
  /-- in front of `scheduleNextPacketTimer` -/
  | scheduling
  /-- in `drainRemainingPackets` -/
  | draining
  | exited
  deriving DecidableEq, Repr

/-- Where a call of `Close` is. -/
inductive CloserAt
  /-- in `wg.Wait` -/
  | waiting
  | returned
  deriving DecidableEq, Repr

/-- The filter with its goroutines and the clock. -/
structure DelayFilter (β : Type) where
  delay : Int
  now : Int
  queue : List (TimedChunk β) := []
  done : Bool := false
  timer : Option Int
  loop : LoopAt := .selecting
  producers : List (Producer β) := []
  closer : Option CloserAt := none
  /-- every chunk that was pushed to the queue -/
  queued : List (TimedChunk β) := []
  /-- every chunk handed to the wrapped NIC, with the time received from the timer, if any -/
  forwarded : List (TimedChunk β × Option Int) := []
  /-- how many chunks had been queued when the run loop received from `done` -/
  observed : Option Nat := none
  deriving DecidableEq, Repr

/-- The options of `NewDelayFilter`, applied in order; nil options are skipped. -/
def applyOptions (delay : Int) : List (Option Int) → Except DelayError Int
  | [] => .ok delay
  | none :: opts => applyOptions delay opts
  | some d :: opts => if d < 0 then .error .invalidDelay else applyOptions d opts

/-- `NewDelayFilter` at a time; the run loop starts with a timer that is due at once. -/
def newDelayFilter {β : Type} (now : Int) (opts : List (Option Int)) :
    Except DelayError (DelayFilter β) := do
  let delay ← applyOptions 0 opts
  return { delay, now, timer := some now }

/-- What `NewDelayFilter` makes. -/
theorem newDelayFilter_ok {β : Type} {now : Int} {opts : List (Option Int)} {f : DelayFilter β}
    (h : newDelayFilter now opts = .ok f) :
    ∃ delay, f = { delay := delay, now := now, timer := some now } := by
  unfold newDelayFilter at h
  cases hopts : applyOptions 0 opts with
  | error e =>
    rw [hopts] at h
    cases h
  | ok delay =>
    rw [hopts] at h
    cases h
    exact ⟨delay, rfl⟩

/-- The nanoseconds of `time.Minute`. -/
def minute : Int := 60 * 1000 * 1000 * 1000

/-- The steps of the goroutines. -/
inductive Event (β : Type)
  /-- time passes -/
  | elapse (d : Nat)
  | setDelay (newDelay : Int)
  /-- `onInboundChunk` is called and reads the clock and the delay -/
  | call (c : β)
  /-- a call pushes its chunk to the queue -/
  | enqueue (i : Nat)
  /-- the run loop receives the signal of a call -/
  | signal (i : Nat)
  /-- `updateTimerForNextPacket` -/
  | update
  /-- the run loop receives this time from the timer -/
  | fire (now : Int)
  /-- one round of `processReadyPackets` -/
  | process
  /-- `scheduleNextPacketTimer` -/
  | schedule
  /-- the run loop receives from `done` -/
  | observe
  /-- one round of `drainRemainingPackets` -/
  | drain
  /-- `Close` closes `done` -/
  | close
  /-- `Close` returns -/
  | closeReturn
  deriving DecidableEq, Repr

/-- What a step is seen to do. -/
inductive Outcome
  | blocked
  | moved
  deriving DecidableEq, Repr

namespace DelayFilter

variable {β : Type}

/-- A step that cannot be taken. -/
def blocked (f : DelayFilter β) : Option (DelayFilter β × Outcome) := some (f, .blocked)

/-- Move a call of `onInboundChunk`. -/
def moveProducer (f : DelayFilter β) (i : Nat) (pos : ProducerAt) : DelayFilter β :=
  { f with producers := f.producers.modify i fun p => { p with pos } }

/-- `timer.Reset(time.Until(deadline))`. -/
def resetUntil (f : DelayFilter β) (deadline : Int) : DelayFilter β :=
  { f with timer := some (f.now + max 0 (deadline - f.now)) }

/-- `onInboundChunk` up to its push. -/
def onInboundChunk (f : DelayFilter β) (c : β) : Option (DelayFilter β × Outcome) :=
  some ({ f with producers := f.producers ++ [{ timed := ⟨c, f.now, f.delay⟩ }] }, .moved)

/-- `queue.push`. -/
def enqueue (f : DelayFilter β) (i : Nat) : Option (DelayFilter β × Outcome) :=
  match f.producers[i]? with
  | some ⟨timed, .stamped⟩ =>
    some ({ f.moveProducer i .signalling with
      queue := f.queue ++ [timed], queued := f.queued ++ [timed] }, .moved)
  | _ => f.blocked

/-- The send to `push` meets the receive of the run loop. -/
def signal (f : DelayFilter β) (i : Nat) : Option (DelayFilter β × Outcome) :=
  match f.producers[i]?, f.loop with
  | some ⟨_, .signalling⟩, .selecting =>
    some ({ f.moveProducer i .returned with loop := .updating }, .moved)
  | _, _ => f.blocked

/-- `Stop` fails exactly if the timer has been received from, and then the receive of the source
waits for ever. -/
def updateTimerForNextPacket (f : DelayFilter β) : Option (DelayFilter β × Outcome) :=
  match f.loop, f.queue, f.timer with
  | .updating, [], _ => some ({ f with loop := .selecting }, .moved)
  | .updating, c :: _, some _ => some ({ f.resetUntil c.deadline with loop := .selecting }, .moved)
  | _, _, _ => f.blocked

/-- The run loop receives a time that is not before the timer was due. -/
def fire (f : DelayFilter β) (now : Int) : Option (DelayFilter β × Outcome) :=
  match f.loop, f.timer with
  | .selecting, some due =>
    if due ≤ now ∧ now ≤ f.now then
      some ({ f with timer := none, loop := .processing now }, .moved)
    else f.blocked
  | _, _ => f.blocked

/-- One iteration of `processReadyPackets`. -/
def processReadyPackets (f : DelayFilter β) : Option (DelayFilter β × Outcome) :=
  match f.loop, f.queue with
  | .processing now, c :: rest =>
    if c.deadline ≤ now then
      some ({ f with queue := rest, forwarded := f.forwarded ++ [(c, some now)] }, .moved)
    else some ({ f with loop := .scheduling }, .moved)
  | .processing _, [] => some ({ f with loop := .scheduling }, .moved)
  | _, _ => f.blocked

/-- The timer is set for the next packet, or for a minute. -/
def scheduleNextPacketTimer (f : DelayFilter β) : Option (DelayFilter β × Outcome) :=
  match f.loop, f.queue with
  | .scheduling, [] => some ({ f with timer := some (f.now + minute), loop := .selecting }, .moved)
  | .scheduling, c :: _ => some ({ f.resetUntil c.deadline with loop := .selecting }, .moved)
  | _, _ => f.blocked

/-- The run loop receives from `done`. -/
def observeDone (f : DelayFilter β) : Option (DelayFilter β × Outcome) :=
  if f.loop = .selecting ∧ f.done then
    some ({ f with loop := .draining, observed := some f.queued.length }, .moved)
  else f.blocked

/-- One iteration of `drainRemainingPackets`. -/
def drainRemainingPackets (f : DelayFilter β) : Option (DelayFilter β × Outcome) :=
  match f.loop, f.queue with
  | .draining, c :: rest =>
    some ({ f with queue := rest, forwarded := f.forwarded ++ [(c, none)] }, .moved)
  | .draining, [] => some ({ f with loop := .exited }, .moved)
  | _, _ => f.blocked

/-- `Close` up to its wait; closing `done` again is a panic. -/
def close (f : DelayFilter β) : Option (DelayFilter β × Outcome) :=
  if f.done then none else some ({ f with done := true, closer := some .waiting }, .moved)

/-- `Close` returns after the run loop. -/
def closeReturn (f : DelayFilter β) : Option (DelayFilter β × Outcome) :=
  if f.closer = some .waiting ∧ f.loop = .exited then
    some ({ f with closer := some .returned }, .moved)
  else f.blocked

/-- One step of one goroutine. -/
def step (f : DelayFilter β) : Event β → Option (DelayFilter β × Outcome)
  | .elapse d => some ({ f with now := f.now + d }, .moved)
  | .setDelay newDelay => some ({ f with delay := newDelay }, .moved)
  | .call c => f.onInboundChunk c
  | .enqueue i => f.enqueue i
  | .signal i => f.signal i
  | .update => f.updateTimerForNextPacket
  | .fire now => f.fire now
  | .process => f.processReadyPackets
  | .schedule => f.scheduleNextPacketTimer
  | .observe => f.observeDone
  | .drain => f.drainRemainingPackets
  | .close => f.close
  | .closeReturn => f.closeReturn

end DelayFilter

open DelayFilter

/-- What one step can do. -/
inductive Transition {β : Type} (f : DelayFilter β) : Event β → DelayFilter β → Prop
  | stutter {e} : Transition f e f
  | elapse {d} : Transition f (.elapse d) { f with now := f.now + d }
  | setDelay {d} : Transition f (.setDelay d) { f with delay := d }
  | call {c} : Transition f (.call c)
      { f with producers := f.producers ++ [{ timed := ⟨c, f.now, f.delay⟩ }] }
  | enqueue {i timed} : f.producers[i]? = some ⟨timed, .stamped⟩ →
      Transition f (.enqueue i) { f.moveProducer i .signalling with
        queue := f.queue ++ [timed], queued := f.queued ++ [timed] }
  | signal {i timed} : f.producers[i]? = some ⟨timed, .signalling⟩ → f.loop = .selecting →
      Transition f (.signal i) { f.moveProducer i .returned with loop := .updating }
  | updateIdle : f.loop = .updating → f.queue = [] →
      Transition f .update { f with loop := .selecting }
  | update {c rest due} : f.loop = .updating → f.queue = c :: rest → f.timer = some due →
      Transition f .update { f.resetUntil c.deadline with loop := .selecting }
  | fire {due now} : f.loop = .selecting → f.timer = some due → due ≤ now → now ≤ f.now →
      Transition f (.fire now) { f with timer := none, loop := .processing now }
  | forward {now c rest} : f.loop = .processing now → f.queue = c :: rest → c.deadline ≤ now →
      Transition f .process
        { f with queue := rest, forwarded := f.forwarded ++ [(c, some now)] }
  | processed {now} : f.loop = .processing now →
      Transition f .process { f with loop := .scheduling }
  | scheduleIdle : f.loop = .scheduling → f.queue = [] →
      Transition f .schedule { f with timer := some (f.now + minute), loop := .selecting }
  | schedule {c rest} : f.loop = .scheduling → f.queue = c :: rest →
      Transition f .schedule { f.resetUntil c.deadline with loop := .selecting }
  | observe : f.loop = .selecting → f.done = true →
      Transition f .observe { f with loop := .draining, observed := some f.queued.length }
  | drain {c rest} : f.loop = .draining → f.queue = c :: rest →
      Transition f .drain { f with queue := rest, forwarded := f.forwarded ++ [(c, none)] }
  | exit : f.loop = .draining → f.queue = [] → Transition f .drain { f with loop := .exited }
  | close : f.done = false →
      Transition f .close { f with done := true, closer := some .waiting }
  | closeReturn : f.closer = some .waiting → f.loop = .exited →
      Transition f .closeReturn { f with closer := some .returned }

variable {β : Type} {f f' : DelayFilter β} {e : Event β} {o : Outcome}

theorem blocked_transition (h : f.blocked = some (f', o)) : Transition f e f' := by
  cases h
  exact .stutter

/-- A step of the filter is one of the listed ones. -/
theorem step_transition (h : f.step e = some (f', o)) : Transition f e f' := by
  -- where the event does not apply it is blocked; the other branches follow in the events' order
  cases e <;> simp only [step, onInboundChunk, enqueue, signal, updateTimerForNextPacket, fire,
    processReadyPackets, scheduleNextPacketTimer, observeDone, drainRemainingPackets,
    DelayFilter.close, closeReturn] at h <;> (repeat' split at h) <;>
    first | exact blocked_transition h | cases h
  · exact .elapse
  · exact .setDelay
  · exact .call
  · exact .enqueue ‹_›
  · exact .signal ‹_› ‹_›
  · exact .updateIdle ‹_› ‹_›
  · exact .update ‹_› ‹_› ‹_›
  next hl ht hdue => exact .fire hl ht hdue.1 hdue.2
  · exact .forward ‹_› ‹_› ‹_›
  · exact .processed ‹_›
  · exact .processed ‹_›
  · exact .scheduleIdle ‹_› ‹_›
  · exact .schedule ‹_› ‹_›
  next hd => exact .observe hd.1 hd.2
  · exact .drain ‹_› ‹_›
  · exact .exit ‹_› ‹_›
  · exact .close (eq_false_of_ne_true ‹_›)
  next hc => exact .closeReturn hc.1 hc.2

end PionTransport.Vnet.Delay
