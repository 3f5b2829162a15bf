import PionTransport.Deadlines.Deadline

/-!
# The restartable timer of wasm

A `jsTimer` makes a new underlying timer for every arming. A stopped or replaced one may
have fired already, and its callback may come late: so the callback compares the version
that it was made with to the current one, under the lock, before it calls `f`. A step is
one critical section, the firing of an underlying timer, or the call of `f`. Underlying
timers are known by their numbers, and `none` is a panic. Seen from a deadline it is the
timer of `AfterFunc`, which expires when a callback finds its version.
-/

namespace PionTransport.Deadlines

open PionTransport.Core

/-- Where the callback of an underlying timer is. -/
inductive CallbackAt
  /-- the timer has not fired -/
  | sleeping
  /-- in front of the lock -/
  | running
  /-- has found its version, in front of the call of `f` -/
  | passed
  | called
  /-- has found another version -/
  | left
  deriving DecidableEq, Repr

/-- An underlying timer: what it was armed for, and its callback with its version. Whether it was
stopped does not matter. -/
structure Underlying where
  arming : Arming
  version : UInt64
  callback : CallbackAt := .sleeping
  deriving DecidableEq, Repr

/-- The timer for JavaScript, with its version. -/
structure JSTimer where
  timer : Option Nat := none
  version : UInt64 := 0
  started : Bool := false
  /-- the underlying timers made so far -/
  timers : List Underlying := []
  deriving DecidableEq, Repr

/-- The steps of the callers and of the underlying timers. -/
inductive JSEvent
  /-- `Reset` -/
  | reset (a : Arming)
  /-- `Stop` -/
  | stop
  /-- an underlying timer fires -/
  | fire (k : Nat)
  /-- its callback compares the versions -/
  | check (k : Nat)
  /-- its callback calls `f` -/
  | call (k : Nat)
  deriving DecidableEq, Repr

/-- What a step is seen to do. -/
inductive JSOutcome
  | blocked
  /-- what `Reset` or `Stop` returns -/
  | returned (started : Bool)
  | fired
  | passed
  | left
  | called (k : Nat)
  deriving DecidableEq, Repr

namespace JSTimer

variable {t t' : JSTimer} {a : Arming} {k : Nat}

/-- `Reset`. -/
def reset (t : JSTimer) (a : Arming) : JSTimer × Bool :=
  ({ timer := some t.timers.length
     version := t.version + 1
     started := true
     timers := t.timers ++ [⟨a, t.version + 1, .sleeping⟩] }, t.started)

/-- `afterFunc`. -/
def afterFunc (a : Arming) : JSTimer := (reset {} a).1

/-- `Stop`, which needs an underlying timer. -/
def stop (t : JSTimer) : Option (JSTimer × Bool) :=
  t.timer.map fun _ => ({ t with version := t.version + 1, started := false }, t.started)

/-- Move a callback. -/
def move (t : JSTimer) (k : Nat) (callback : CallbackAt) : JSTimer :=
  { t with timers := t.timers.modify k fun u => { u with callback } }

/-- An underlying timer fires. -/
def fire (t : JSTimer) (k : Nat) : JSTimer × JSOutcome :=
  match t.timers[k]? with
  | some ⟨_, _, .sleeping⟩ => (t.move k .running, .fired)
  | _ => (t, .blocked)

/-- The callback up to its unlock. -/
def check (t : JSTimer) (k : Nat) : JSTimer × JSOutcome :=
  match t.timers[k]? with
  | some ⟨_, version, .running⟩ =>
    if version ≠ t.version then (t.move k .left, .left)
    else ({ t.move k .passed with started := false }, .passed)
  | _ => (t, .blocked)

/-- A callback that has found its version calls `f`. -/
def call (t : JSTimer) (k : Nat) : JSTimer × JSOutcome :=
  match t.timers[k]? with
  | some ⟨_, _, .passed⟩ => (t.move k .called, .called k)
  | _ => (t, .blocked)

/-- One step of one goroutine. -/
def step (t : JSTimer) : JSEvent → Option (JSTimer × JSOutcome)
  | .reset a => some ((t.reset a).1, .returned (t.reset a).2)
  | .stop => t.stop.map fun r => (r.1, .returned r.2)
  | .fire k => some (t.fire k)
  | .check k => some (t.check k)
  | .call k => some (t.call k)

section Abstraction

/-- The timer that a deadline sees. -/
def toTimer (t : JSTimer) : Timer :=
  { armed := if t.started then t.timer.bind fun k => (t.timers[k]?).map (·.arming) else none }

/-- The current underlying timer is there. -/
def Current (t : JSTimer) : Prop := ∃ k u, t.timer = some k ∧ t.timers[k]? = some u

/-- The deadline sees an armed timer exactly if one is started. -/
theorem toTimer_armed_isSome (h : t.Current) : t.toTimer.armed.isSome = t.started := by
  obtain ⟨k, u, htimer, hu⟩ := h
  unfold toTimer
  cases t.started with
  | false => rfl
  | true => simp [htimer, hu]

/-- The deadline sees `Reset` as that of `AfterFunc`. -/
theorem reset_toTimer (h : t.Current) :
    (t.reset a).1.toTimer = t.toTimer.reset a ∧ (t.reset a).2 = t.toTimer.armed.isSome := by
  refine ⟨?_, (toTimer_armed_isSome h).symm⟩
  simp [toTimer, reset, Timer.reset]

/-- A callback that moves keeps its arming. -/
theorem arming_move {j : Nat} {callback : CallbackAt} :
    ((t.move k callback).timers[j]?).map (·.arming) = (t.timers[j]?).map (·.arming) := by
  by_cases hkj : k = j
  · subst hkj
    cases hu : t.timers[k]? <;> simp [move, hu]
  · simp [move, hkj]

/-- Where the callbacks are does not matter to the deadline. -/
theorem move_toTimer (callback : CallbackAt) : (t.move k callback).toTimer = t.toTimer := by
  unfold toTimer
  simp only [arming_move]
  rfl

end Abstraction

end JSTimer

end PionTransport.Deadlines
