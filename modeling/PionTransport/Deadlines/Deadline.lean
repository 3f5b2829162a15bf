import Mathlib.Algebra.Group.Int.Defs
import PionTransport.Core.Run

/-!
# The updatable deadline

A `Deadline` and what it shares with other goroutines: the channels and the
contexts that it has made, the callbacks of its timer that have expired and not
yet run, and the cancel functions that a firing has returned and nobody has
called yet. A step is one critical section, one call of such a cancel function,
or the expiry of the timer. Channels, contexts and calls of `Set` are known by
their numbers; `none` is a panic.
-/

namespace PionTransport.Deadlines

/-- The states of a deadline. -/
inductive DeadlineState
  | suspended
  | started
  | exceeded
  deriving DecidableEq, Repr

/-- Why a context is cancelled. -/
inductive Cause
  | canceled
  | deadlineExceeded
  deriving DecidableEq, Repr

/-- The timer of `AfterFunc` while it runs: the call of `Set` that armed it, and when it is due. -/
structure Arming where
  set : Nat
  due : Int
  deriving DecidableEq, Repr

/-- The timer, with what it is armed for. -/
structure Timer where
  armed : Option Arming := none
  deriving DecidableEq, Repr

/-- An armed timer is stopped and will not run its callback; whether there was one is returned. -/
def Timer.stop (t : Timer) : Timer × Bool := ({ armed := none }, t.armed.isSome)

/-- `Reset`. -/
def Timer.reset (_ : Timer) (a : Arming) : Timer := { armed := some a }

/-- `AfterFunc`. -/
def afterFunc (a : Arming) : Timer := { armed := some a }

/-- The least `time.Duration`. -/
def minDuration : Int := -2 ^ 63

/-- The greatest `time.Duration`. -/
def maxDuration : Int := 2 ^ 63 - 1

/-- `time.Until`, which does not overflow. -/
def timeUntil (setTo now : Int) : Int := max minDuration (min maxDuration (setTo - now))

/-- A deadline, with what its goroutines share. -/
structure Deadline where
  timer : Option Timer := none
  done : Nat := 0
  ctx : Option Nat := none
  /-- cancels the context with this number -/
  cancel : Option Nat := none
  /-- `none` is the zero time -/
  deadline : Option Int := none
  state : DeadlineState := .suspended
  pending : UInt8 := 0
  /-- the channels made so far, and whether each is closed -/
  chans : List Bool := [false]
  /-- the contexts made so far, and why each is cancelled -/
  contexts : List (Option Cause) := []
  /-- the callbacks that have expired and not run, by the call of `Set` that armed them -/
  running : List Nat := []
  /-- the cancel functions that are about to be called -/
  cancelling : List Nat := []
  /-- the calls of `Set` so far -/
  sets : Nat := 0
  deriving DecidableEq, Repr

/-- `New`. -/
def new : Deadline := {}

/-- What `Context` returns. -/
inductive Context
  | exceededContext
  | ofNat (n : Nat)
  deriving DecidableEq, Repr

/-- The steps of the callers, of the timer and of its callbacks. -/
inductive Event
  /-- `Set` up to its unlock, with the reading of the clock -/
  | set (setTo : Option Int) (now : Int)
  /-- the timer expires -/
  | expire (now : Int)
  /-- an expired callback runs `timeout` up to its unlock -/
  | timeout (i : Nat)
  /-- a cancel function that a firing has returned is called -/
  | cancel (i : Nat)
  | context
  | done
  | err
  | deadline
  deriving DecidableEq, Repr

/-- What a step is seen to do. -/
inductive Outcome
  | blocked
  /-- `Set` is done, and whether it fired -/
  | set (fired : Bool)
  /-- the timer armed by this call of `Set` expires -/
  | expired (set : Nat)
  /-- its callback has run, and whether it fired -/
  | ran (set : Nat) (fired : Bool)
  | cancelled (n : Nat)
  | context (c : Context)
  | done (ch : Nat)
  | err (cause : Option Cause)
  | deadline (t : Option Int)
  deriving DecidableEq, Repr

namespace Deadline

/-- Mark the deadline as exceeded and close `done`; the cancel function is returned. -/
def fire (d : Deadline) : Option (Deadline × Option Nat) :=
  if d.chans[d.done]? = some false then
    some ({ d with
      state := .exceeded
      chans := d.chans.set d.done true
      ctx := none
      cancel := none }, d.cancel)
  else none

/-- A returned cancel function is called after the unlock. -/
def after (r : Deadline × Option Nat) : Deadline :=
  { r.1 with cancelling := r.1.cancelling ++ r.2.toList }

/-- Stop the timer of a started deadline. -/
def stopTimer (d : Deadline) : Option Deadline :=
  if d.state = .started then
    d.timer.map fun t =>
      { d with
        timer := some t.stop.1
        pending := if t.stop.2 then d.pending - 1 else d.pending }
  else some d

/-- `set` up to the choice by the new deadline. -/
def renew (d : Deadline) (setTo : Option Int) : Option Deadline := do
  let d ← d.stopTimer
  let d := { d with deadline := setTo, pending := d.pending + 1, sets := d.sets + 1 }
  if d.state = .exceeded then
    return { d with done := d.chans.length, chans := d.chans ++ [false] }
  else return d

/-- `Set` up to its unlock; a cancel function is returned if it fires. -/
def set (d : Deadline) (setTo : Option Int) (now : Int) : Option (Deadline × Option Nat) := do
  let d ← d.renew setTo
  match setTo with
  | none => return ({ d with pending := d.pending - 1, state := .suspended }, none)
  | some t =>
    let dur := timeUntil t now
    if 0 < dur then
      let timer :=
        match d.timer with
        | none => afterFunc ⟨d.sets, now + dur⟩
        | some timer => timer.reset ⟨d.sets, now + dur⟩
      return ({ d with state := .started, timer := some timer }, none)
    else fire { d with pending := d.pending - 1 }

/-- The timer expires, not before it is due. -/
def expire (d : Deadline) (now : Int) : Deadline × Outcome :=
  match d.timer with
  | some ⟨some a⟩ =>
    if a.due ≤ now then
      ({ d with timer := some { armed := none }, running := d.running ++ [a.set] }, .expired a.set)
    else (d, .blocked)
  | _ => (d, .blocked)

/-- An expired callback fires if it is the last one pending. -/
def timeout (d : Deadline) (i : Nat) : Option (Deadline × Outcome) :=
  match d.running[i]? with
  | none => some (d, .blocked)
  | some k =>
    let d := { d with running := d.running.eraseIdx i, pending := d.pending - 1 }
    if d.pending ≠ 0 ∨ d.state ≠ .started then some (d, .ran k false)
    else d.fire.map fun r => (after r, .ran k true)

/-- A context keeps the cause that it was first cancelled with. -/
def callCancel (d : Deadline) (i : Nat) : Deadline × Outcome :=
  match d.cancelling[i]? with
  | none => (d, .blocked)
  | some n =>
    ({ d with
      cancelling := d.cancelling.eraseIdx i
      contexts := d.contexts.modify n fun cause => cause <|> some .deadlineExceeded },
      .cancelled n)

/-- `Context`, which makes a context if there is none. -/
def context (d : Deadline) : Deadline × Context :=
  if d.state = .exceeded then (d, .exceededContext)
  else
    match d.ctx with
    | some n => (d, .ofNat n)
    | none =>
      let n := d.contexts.length
      ({ d with ctx := some n, cancel := some n, contexts := d.contexts ++ [none] }, .ofNat n)

/-- `Err`. -/
def err (d : Deadline) : Option Cause :=
  if d.state = .exceeded then some .deadlineExceeded else none

/-- One step of one goroutine. -/
def step (d : Deadline) : Event → Option (Deadline × Outcome)
  | .set setTo now =>
    (d.set setTo now).map fun r => (after r, .set (r.1.state = .exceeded))
  | .expire now => some (d.expire now)
  | .timeout i => d.timeout i
  | .cancel i => some (d.callCancel i)
  | .context => some (d.context.1, .context d.context.2)
  | .done => some (d, .done d.done)
  | .err => some (d, .err d.err)
  | .deadline => some (d, .deadline d.deadline)

end Deadline

end PionTransport.Deadlines
