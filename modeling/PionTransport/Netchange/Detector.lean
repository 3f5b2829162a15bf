import PionTransport.Core.Run
import PionTransport.Netchange.Snapshot

/-!
# The change detector

`Check` delivers the initial list and afterwards refreshes and waits in turn
until it has changes to return. Draining, enumerating and waiting may fail, and
the context may be cancelled, between any two of its steps; what has been
consumed by then is remembered in `pending`.
-/

namespace PionTransport.Netchange

/-- The errors of `Check` and `Close`; `ε` are those of contexts and of the system. -/
inductive Err (ε : Type)
  /-- `os.ErrClosed` -/
  | errClosed
  | errBusy
  /-- `context.Cause` of the context -/
  | cause (e : ε)
  /-- returned by `drain`, `enumerate` or `wait` -/
  | failed (e : ε)
  deriving DecidableEq, Repr

/-- Where a `Check` is. -/
inductive CheckAt (π ε : Type)
  /-- at the head of its loop -/
  | looping
  /-- in front of `drain` -/
  | draining
  /-- in front of the look at the context before `enumerate` -/
  | looking
  /-- in `enumerate` -/
  | enumerating
  /-- in front of the look at the context after `enumerate` -/
  | enumerated (r : Except ε (List (InterfaceState π)))
  /-- in `wait` -/
  | waiting

/-- A `Check` under way, with the cause if its context is cancelled. -/
structure Check (π ε : Type) where
  cause : Option ε
  pc : CheckAt π ε

/-- The detector, with the `Check` under way. -/
structure Detector (π ε : Type) where
  checking : Option (Check π ε) := none
  closed : Bool := false
  state : StateDetector π
  /-- there is a source of notifications -/
  source : Bool
  pending : Bool := false
  /-- none after the initial result has been delivered -/
  initial : Option (List Change)
  /-- the platform timeout is positive -/
  platformTimeout : Bool

/-- How waiting for a notification or a poll ends. -/
inductive WaitResult (ε : Type)
  | woke
  /-- the platform timeout has passed -/
  | expired
  | failed (e : ε)

/-- The steps of `Check`, of its context and of `Close`. -/
inductive Event (π ε : Type)
  /-- `Check` is called, with a context that may be cancelled already -/
  | check (cause : Option ε)
  /-- the context of the `Check` under way is cancelled -/
  | cancel (cause : ε)
  | loop
  | drain (notified : Bool) (err : Option ε)
  | look
  | enumerate (r : Except ε (List (InterfaceState π)))
  /-- look at the context and compare what was enumerated -/
  | compare
  | wait (r : WaitResult ε)
  | close (err : Option ε)

/-- What a step is seen to do. -/
inductive Outcome (ε : Type)
  | blocked
  | moved
  /-- a `Check` returns -/
  | returned (r : Except (Err ε) (List Change))
  /-- `Close` returns -/
  | closed (err : Option (Err ε))
  deriving DecidableEq

/-- The changes that a step returns. -/
def Outcome.changes {ε : Type} : Outcome ε → Option (List Change)
  | .returned (.ok changes) => some changes
  | .returned (.error _) | .blocked | .moved | .closed _ => none

section Steps

variable {π ε : Type} [DecidableEq π]

/-- The detector that `start` leaves after its first enumeration. -/
def start (source platformTimeout : Bool) (filter : Option (String → Bool))
    (interfaces : List (InterfaceState π)) : Detector π ε :=
  let r := ({ interfaceFilter := filter } : StateDetector π).update interfaces
  { state := r.1, source, initial := some r.2, platformTimeout }

namespace Detector

/-- The `Check` under way goes on. -/
def goto (d : Detector π ε) (c : Check π ε) (pc : CheckAt π ε) : Detector π ε × Outcome ε :=
  ({ d with checking := some { c with pc } }, .moved)

/-- The `Check` under way returns. -/
def finish (d : Detector π ε) (r : Except (Err ε) (List Change)) : Detector π ε × Outcome ε :=
  ({ d with checking := none }, .returned r)

/-- Enter `wait`. -/
def enterWait (d : Detector π ε) (c : Check π ε) : Detector π ε × Outcome ε :=
  goto { d with pending := d.pending || d.source } c .waiting

/-- The rest of `refresh` after a successful enumeration, and of the loop after it. -/
def compareWith (d : Detector π ε) (c : Check π ε) (interfaces : List (InterfaceState π)) :
    Detector π ε × Outcome ε :=
  let r := d.state.update interfaces
  let d := { d with pending := false, state := r.1 }
  if r.2 = [] then d.enterWait c else d.finish (.ok r.2)

/-- The end of `wait`. -/
def leaveWait (d : Detector π ε) (c : Check π ε) (r : WaitResult ε) : Detector π ε × Outcome ε :=
  if d.source = false then
    -- the timer or the context, whichever `select` takes
    match r, c.cause with
    | .woke, _ => d.goto c .looping
    | _, some e => d.finish (.error (.cause e))
    | _, none => (d, .blocked)
  else if d.platformTimeout = false then
    match r with
    | .woke => d.goto c .looping
    | .failed e => d.finish (.error (.failed e))
    | .expired => (d, .blocked)
  else
    match c.cause, r with
    | some e, _ => d.finish (.error (.cause e))
    | none, .woke | none, .expired => d.goto c .looping
    | none, .failed e => d.finish (.error (.failed e))

/-- One step. -/
def handle (d : Detector π ε) : Event π ε → Detector π ε × Outcome ε
  | .check cause =>
    if d.closed then (d, .returned (.error .errClosed))
    else if d.checking.isSome then (d, .returned (.error .errBusy))
    else
      match cause with
      | some e => (d, .returned (.error (.cause e)))
      | none => ({ d with checking := some ⟨none, .looping⟩ }, .moved)
  | .cancel e =>
    match d.checking with
    | some c => ({ d with checking := some { c with cause := c.cause <|> some e } }, .moved)
    | none => (d, .blocked)
  | .loop =>
    match d.checking with
    | some ⟨some e, .looping⟩ => d.finish (.error (.cause e))
    | some ⟨none, .looping⟩ =>
      match d.initial with
      | some changes => finish { d with initial := none } (.ok changes)
      | none => d.goto ⟨none, .looping⟩ (if d.source then .draining else .looking)
    | _ => (d, .blocked)
  | .drain notified err =>
    match d.checking with
    | some ⟨cause, .draining⟩ =>
      let d := { d with pending := d.pending || notified || err.isSome }
      match err with
      | some e => d.finish (.error (.failed e))
      | none =>
        if d.pending then d.goto ⟨cause, .draining⟩ .looking else d.enterWait ⟨cause, .draining⟩
    | _ => (d, .blocked)
  | .look =>
    match d.checking with
    | some ⟨some e, .looking⟩ => d.finish (.error (.cause e))
    | some ⟨none, .looking⟩ => d.goto ⟨none, .looking⟩ .enumerating
    | _ => (d, .blocked)
  | .enumerate r =>
    match d.checking with
    | some ⟨cause, .enumerating⟩ => d.goto ⟨cause, .enumerating⟩ (.enumerated r)
    | _ => (d, .blocked)
  | .compare =>
    match d.checking with
    | some ⟨some e, .enumerated _⟩ => d.finish (.error (.cause e))
    | some ⟨none, .enumerated (.error e)⟩ => d.finish (.error (.failed e))
    | some ⟨none, .enumerated (.ok interfaces)⟩ =>
      d.compareWith ⟨none, .enumerated (.ok interfaces)⟩ interfaces
    | _ => (d, .blocked)
  | .wait r =>
    match d.checking with
    | some ⟨cause, .waiting⟩ => d.leaveWait ⟨cause, .waiting⟩ r
    | _ => (d, .blocked)
  | .close err =>
    if d.closed then (d, .closed (some .errClosed))
    else if d.checking.isSome then (d, .closed (some .errBusy))
    else
      let d := { d with closed := true, state := { d.state with last := [] } }
      (d, .closed (if d.source then err.map .failed else none))

/-- No step fails. -/
def step (d : Detector π ε) (e : Event π ε) : Option (Detector π ε × Outcome ε) := some (d.handle e)

end Detector

/-- What one step can do. -/
inductive Transition (d : Detector π ε) : Event π ε → Detector π ε → Outcome ε → Prop
  | blocked {e} : Transition d e d .blocked
  | refused {cause err} : Transition d (.check cause) d (.returned (.error err))
  | refusedClose {err err'} : Transition d (.close err) d (.closed err')
  | close {err err'} : d.closed = false → d.checking = none →
      Transition d (.close err)
        { d with closed := true, state := { d.state with last := [] } } (.closed err')
  | enter : d.closed = false → d.checking = none →
      Transition d (.check none) { d with checking := some ⟨none, .looping⟩ } .moved
  | cancel {c e} : d.checking = some c →
      Transition d (.cancel e)
        { d with checking := some { c with cause := c.cause <|> some e } } .moved
  | deliver {changes} : d.checking = some ⟨none, .looping⟩ → d.initial = some changes →
      Transition d .loop { d with initial := none, checking := none } (.returned (.ok changes))
  | refresh : d.checking = some ⟨none, .looping⟩ → d.initial = none →
      Transition d .loop
        { d with checking := some ⟨none, if d.source then .draining else .looking⟩ } .moved
  | drainFailed {cause notified e} : d.checking = some ⟨cause, .draining⟩ →
      Transition d (.drain notified (some e)) { d with pending := true, checking := none }
        (.returned (.error (.failed e)))
  | notified {cause notified} : d.checking = some ⟨cause, .draining⟩ →
      d.pending = true ∨ notified = true →
      Transition d (.drain notified none)
        { d with pending := true, checking := some ⟨cause, .looking⟩ } .moved
  | unnotified {cause} : d.checking = some ⟨cause, .draining⟩ → d.pending = false →
      Transition d (.drain false none)
        { d with pending := d.source, checking := some ⟨cause, .waiting⟩ } .moved
  | look : d.checking = some ⟨none, .looking⟩ →
      Transition d .look { d with checking := some ⟨none, .enumerating⟩ } .moved
  | enumerate {cause r} : d.checking = some ⟨cause, .enumerating⟩ →
      Transition d (.enumerate r) { d with checking := some ⟨cause, .enumerated r⟩ } .moved
  /-- an error of the context or of the system ends the `Check` -/
  | fail {e c err} : d.checking = some c → e = .loop ∨ e = .look ∨ e = .compare →
      Transition d e { d with checking := none } (.returned (.error err))
  | unchanged {interfaces} : d.checking = some ⟨none, .enumerated (.ok interfaces)⟩ →
      (d.state.update interfaces).2 = [] →
      Transition d .compare
        { d with
          pending := d.source
          state := (d.state.update interfaces).1
          checking := some ⟨none, .waiting⟩ } .moved
  | changed {interfaces} : d.checking = some ⟨none, .enumerated (.ok interfaces)⟩ →
      (d.state.update interfaces).2 ≠ [] →
      Transition d .compare
        { d with pending := false, state := (d.state.update interfaces).1, checking := none }
        (.returned (.ok (d.state.update interfaces).2))
  | wake {cause r} : d.checking = some ⟨cause, .waiting⟩ →
      Transition d (.wait r) { d with checking := some ⟨cause, .looping⟩ } .moved
  | waitFailed {cause r err} : d.checking = some ⟨cause, .waiting⟩ →
      Transition d (.wait r) { d with checking := none } (.returned (.error err))

/-- What an event does is one of the listed moves. -/
theorem handle_transition (d : Detector π ε) (e : Event π ε) :
    Transition d e (d.handle e).1 (d.handle e).2 := by
  -- the other branches follow in the events' order
  cases e <;> simp only [Detector.handle] <;> split <;> try exact .blocked
  · exact .refused
  next hclosed =>
    split
    · exact .refused
    next hchecking =>
      split
      · exact .refused
      · exact .enter (by simpa using hclosed) (by simpa using hchecking)
  · exact .cancel ‹_›
  · exact .fail ‹_› (.inl rfl)
  · split
    · exact .deliver ‹_› ‹_›
    · exact .refresh ‹_› ‹_›
  next notified err _ cause hc =>
    cases err with
    | some e => simpa [Detector.finish] using Transition.drainFailed (e := e) hc
    | none =>
      by_cases hp : d.pending = true ∨ notified = true
      · have hor : (d.pending || notified) = true := by simpa using hp
        simpa [hor, Detector.goto] using Transition.notified hc hp
      · obtain ⟨hpending, rfl⟩ : d.pending = false ∧ notified = false := by simpa using hp
        simpa [hpending, Detector.enterWait, Detector.goto] using
          Transition.unnotified hc hpending
  · exact .fail ‹_› (.inr (.inl rfl))
  · exact .look ‹_›
  · exact .enumerate ‹_›
  · exact .fail ‹_› (.inr (.inr rfl))
  · exact .fail ‹_› (.inr (.inr rfl))
  · simp only [Detector.compareWith]
    split
    · exact .unchanged ‹_› ‹_›
    · exact .changed ‹_› ‹_›
  next hc =>
    simp only [Detector.leaveWait]
    repeat' split
    all_goals first
      | exact .wake hc
      | exact .waitFailed hc
      | exact .blocked
  · exact .refusedClose
  next hclosed =>
    split
    · exact .refusedClose
    next hchecking => exact .close (by simpa using hclosed) (by simpa using hchecking)

/-- A step is one of the listed moves. -/
theorem step_transition {d d' : Detector π ε} {e : Event π ε} {o : Outcome ε}
    (h : d.step e = some (d', o)) : Transition d e d' o := by
  have ht := handle_transition d e
  rwa [Option.some.inj h] at ht

end Steps

end PionTransport.Netchange
