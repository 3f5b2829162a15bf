import Mathlib.Data.Finset.Erase
import Mathlib.Data.Finset.Insert
import Mathlib.Data.List.AList
import PionTransport.Core.Heap
import PionTransport.Core.Run
import PionTransport.Core.Tagged
import PionTransport.Core.Word
import PionTransport.Vnet.Chunk

/-!
# The buckets of the duplication filter

An embedding of `scheduleDuplicate`, `onBucketFired` and `Close`. What a goroutine
does while it holds the mutex is one step, and so is every `push` and every
`Stop` after it. Timers are numbered in the order of their creation and are kept
for ever with the state of the callback they start; time that passes inside
`scheduleDuplicate` makes a timer late, and timers may be late anyway. A step that
cannot be taken changes nothing; `none` is a panic.
-/

namespace PionTransport.Vnet.Duplication

open PionTransport.Core

/-- A millisecond. -/
def duplicationBucketSize : Int := 1000000

/-- A duplicate with the time of its `scheduleDuplicate` and its delay. -/
structure Duplicate where
  chunk : Chunk
  scheduled : Int
  delay : Int
  deriving DecidableEq, Repr

/-- The time at which a duplicate is to leave. -/
def Duplicate.deadline (d : Duplicate) : Int := d.scheduled + d.delay

/-- The fields of `dupBucket`. -/
structure DupBucket where
  timer : Nat
  chunks : List Duplicate
  deriving DecidableEq, Repr

/-- Where a timer is, and the callback it starts. -/
inductive TimerAt
  | pending
  | stopped
  /-- the callback is in front of the mutex -/
  | fired
  /-- the callback has taken the chunks and pushed the first `i` of them -/
  | pushing (chunks : List Duplicate) (i : Nat)
  /-- the callback found the filter closed -/
  | returned
  deriving DecidableEq, Repr

/-- A timer of `time.AfterFunc` with the key in its closure. -/
structure Timer where
  key : Int
  due : Int
  pos : TimerAt := .pending
  deriving DecidableEq, Repr

/-- A call of the router's `push`. -/
structure Push where
  dup : Duplicate
  time : Int
  deriving DecidableEq, Repr

/-- The fields of `DuplicationFilter` that scheduling uses, the clock, the timers of the runtime and
those that `Close` has yet to stop. What was scheduled and pushed is recorded with the timer of its
bucket. -/
structure DuplicationFilter where
  now : Int
  timers : Finset Nat := ∅
  closed : Bool := false
  buckets : AList fun _ : Int => DupBucket := ∅
  runtime : List Timer := []
  stopping : Finset Nat := ∅
  scheduled : List (Nat × Duplicate) := []
  pushed : List (Nat × Push) := []

/-- The actions of the goroutines. -/
inductive Event
  | elapse (d : Nat)
  | schedule (dup : Chunk) (delay : Int)
  | fire (timer : Nat)
  | bucketFired (timer : Nat)
  | push (timer : Nat)
  | close
  | stop (timer : Nat)
  deriving DecidableEq, Repr

/-- What a step is seen to do. -/
inductive Outcome
  | moved
  | blocked
  deriving DecidableEq, Repr

/-- `fireAtN`, the deadline rounded up to a bucket boundary. -/
def fireAt (now delay : Int) : Int :=
  let deadlineN := int64 (now + delay)
  int64 ((int64 (deadlineN + duplicationBucketSize - 1)).tdiv duplicationBucketSize *
    duplicationBucketSize)

/-- `Time.Sub`, which saturates. -/
def timeSub (t u : Int) : Int := max (-2 ^ 63) (min (2 ^ 63 - 1) (t - u))

namespace DuplicationFilter

/-- A step that cannot be taken. -/
def blocked (f : DuplicationFilter) : Option (DuplicationFilter × Outcome) := some (f, .blocked)

/-- The duplicates scheduled into the bucket of a timer. -/
def scheduledIn (f : DuplicationFilter) (t : Nat) : List Duplicate := tagged t f.scheduled

/-- The duplicates pushed by the callback of a timer. -/
def pushedBy (f : DuplicationFilter) (t : Nat) : List Duplicate :=
  (tagged t f.pushed).map Push.dup

/-- Move the callback of a timer. -/
def moveTimer (f : DuplicationFilter) (t : Nat) (pos : TimerAt) : DuplicationFilter :=
  { f with runtime := f.runtime.modify t fun timer => { timer with pos := pos } }

/-- A duplicate goes into a bucket that exists. -/
def fill (f : DuplicationFilter) (key : Int) (bucket : DupBucket) (d : Duplicate) :
    DuplicationFilter :=
  { f with
    buckets := f.buckets.insert key { bucket with chunks := bucket.chunks ++ [d] }
    scheduled := f.scheduled ++ [(bucket.timer, d)] }

/-- A duplicate goes into a bucket of its own with a new timer. -/
def create (f : DuplicationFilter) (key : Int) (d : Duplicate) : DuplicationFilter :=
  { f with
    timers := insert f.runtime.length f.timers
    buckets := f.buckets.insert key ⟨f.runtime.length, [d]⟩
    runtime := f.runtime ++ [{ key := key, due := f.now + max (timeSub key f.now) 0 }]
    scheduled := f.scheduled ++ [(f.runtime.length, d)] }

/-- `scheduleDuplicate`. -/
def scheduleDuplicate (f : DuplicationFilter) (dup : Chunk) (delay : Int) :
    Option (DuplicationFilter × Outcome) :=
  if f.closed then f.blocked
  else
    match f.buckets.lookup (fireAt f.now delay) with
    | some bucket =>
      some (f.fill (fireAt f.now delay) bucket ⟨dup.markDuplicate, f.now, delay⟩, .moved)
    | none => some (f.create (fireAt f.now delay) ⟨dup.markDuplicate, f.now, delay⟩, .moved)

/-- The runtime starts the callback of a timer, which is not before it is due. -/
def fire (f : DuplicationFilter) (t : Nat) : Option (DuplicationFilter × Outcome) :=
  match f.runtime[t]? with
  | some ⟨_, due, .pending⟩ =>
    if due ≤ f.now then some (f.moveTimer t .fired, .moved) else f.blocked
  | _ => f.blocked

/-- A bucket is removed with its timer. -/
def remove (f : DuplicationFilter) (key : Int) (bucket : DupBucket) : DuplicationFilter :=
  { f with timers := f.timers.erase bucket.timer, buckets := f.buckets.erase key }

/-- `onBucketFired` up to the release of the mutex. A missing bucket of an open filter is
dereferenced. -/
def onBucketFired (f : DuplicationFilter) (t : Nat) : Option (DuplicationFilter × Outcome) :=
  match f.runtime[t]? with
  | some ⟨key, _, .fired⟩ =>
    match f.closed, f.buckets.lookup key with
    | true, some bucket => some ((f.remove key bucket).moveTimer t .returned, .moved)
    | true, none => some (f.moveTimer t .returned, .moved)
    | false, some bucket =>
      some ((f.remove key bucket).moveTimer t (.pushing bucket.chunks 0), .moved)
    | false, none => none
  | _ => f.blocked

/-- One iteration of the loop of `onBucketFired`. -/
def pushNext (f : DuplicationFilter) (t : Nat) : Option (DuplicationFilter × Outcome) :=
  match f.runtime[t]? with
  | some ⟨_, _, .pushing chunks i⟩ =>
    match chunks[i]? with
    | some d =>
      some ({ f.moveTimer t (.pushing chunks (i + 1)) with
        pushed := f.pushed ++ [(t, ⟨d, f.now⟩)] }, .moved)
    | none => f.blocked
  | _ => f.blocked

/-- `Close` up to the release of the mutex. -/
def close (f : DuplicationFilter) : Option (DuplicationFilter × Outcome) :=
  if f.closed then f.blocked else some ({ f with closed := true, stopping := f.timers }, .moved)

/-- `Close` stops one of its timers. -/
def stop (f : DuplicationFilter) (t : Nat) : Option (DuplicationFilter × Outcome) :=
  if t ∉ f.stopping then f.blocked
  else
    match f.runtime[t]? with
    | some ⟨_, _, .pending⟩ =>
      some ({ f.moveTimer t .stopped with stopping := f.stopping.erase t }, .moved)
    | _ => some ({ f with stopping := f.stopping.erase t }, .moved)

/-- One step of one goroutine. -/
def step (f : DuplicationFilter) : Event → Option (DuplicationFilter × Outcome)
  | .elapse d => some ({ f with now := f.now + d }, .moved)
  | .schedule dup delay => f.scheduleDuplicate dup delay
  | .fire t => f.fire t
  | .bucketFired t => f.onBucketFired t
  | .push t => f.pushNext t
  | .close => f.close
  | .stop t => f.stop t

/-- A call of `scheduleDuplicate` has a non-negative delay and ends before the clock overflows. -/
def InRange (f : DuplicationFilter) : Event → Prop
  | .schedule _ delay =>
    0 ≤ f.now ∧ 0 ≤ delay ∧ f.now + delay + duplicationBucketSize ≤ 2 ^ 63
  | _ => True

instance (f : DuplicationFilter) (e : Event) : Decidable (f.InRange e) := by
  cases e <;> unfold InRange <;> infer_instance

end DuplicationFilter

open DuplicationFilter

/-- What one step can do. -/
inductive Transition (f : DuplicationFilter) : Event → DuplicationFilter → Prop
  | stutter {e} : Transition f e f
  | elapse {d} : Transition f (.elapse d) { f with now := f.now + d }
  | fill {dup delay bucket} : f.closed = false →
      f.buckets.lookup (fireAt f.now delay) = some bucket →
      Transition f (.schedule dup delay)
        (f.fill (fireAt f.now delay) bucket ⟨dup.markDuplicate, f.now, delay⟩)
  | create {dup delay} : f.closed = false → f.buckets.lookup (fireAt f.now delay) = none →
      Transition f (.schedule dup delay)
        (f.create (fireAt f.now delay) ⟨dup.markDuplicate, f.now, delay⟩)
  | fire {t key due} : f.runtime[t]? = some ⟨key, due, .pending⟩ → due ≤ f.now →
      Transition f (.fire t) (f.moveTimer t .fired)
  | discard {t key due bucket} : f.runtime[t]? = some ⟨key, due, .fired⟩ → f.closed = true →
      f.buckets.lookup key = some bucket →
      Transition f (.bucketFired t) ((f.remove key bucket).moveTimer t .returned)
  | skip {t key due} : f.runtime[t]? = some ⟨key, due, .fired⟩ → f.closed = true →
      f.buckets.lookup key = none → Transition f (.bucketFired t) (f.moveTimer t .returned)
  | take {t key due bucket} : f.runtime[t]? = some ⟨key, due, .fired⟩ → f.closed = false →
      f.buckets.lookup key = some bucket →
      Transition f (.bucketFired t)
        ((f.remove key bucket).moveTimer t (.pushing bucket.chunks 0))
  | push {t key due chunks i d} : f.runtime[t]? = some ⟨key, due, .pushing chunks i⟩ →
      chunks[i]? = some d →
      Transition f (.push t) { f.moveTimer t (.pushing chunks (i + 1)) with
        pushed := f.pushed ++ [(t, ⟨d, f.now⟩)] }
  | close : f.closed = false →
      Transition f .close { f with closed := true, stopping := f.timers }
  | stop {t key due} : f.runtime[t]? = some ⟨key, due, .pending⟩ →
      Transition f (.stop t) { f.moveTimer t .stopped with stopping := f.stopping.erase t }
  | stopLate {t} : Transition f (.stop t) { f with stopping := f.stopping.erase t }

variable {f f' : DuplicationFilter} {e : Event} {o : Outcome}

theorem blocked_transition (h : f.blocked = some (f', o)) : Transition f e f' := by
  cases h
  exact .stutter

/-- A step of the filter is one of the listed ones. -/
theorem step_transition (h : f.step e = some (f', o)) : Transition f e f' := by
  -- where the event does not apply it is blocked; the other branches follow in the events' order
  cases e <;> simp only [step, scheduleDuplicate, DuplicationFilter.fire, onBucketFired, pushNext,
    DuplicationFilter.close, DuplicationFilter.stop] at h <;> (repeat' split at h) <;>
    first | exact blocked_transition h | cases h
  · exact .elapse
  · exact .fill (eq_false_of_ne_true ‹_›) ‹_›
  · exact .create (eq_false_of_ne_true ‹_›) ‹_›
  · exact .fire ‹_› ‹_›
  · exact .discard ‹_› ‹_› ‹_›
  · exact .skip ‹_› ‹_› ‹_›
  · exact .take ‹_› ‹_› ‹_›
  · exact .push ‹_› ‹_›
  · exact .close (eq_false_of_ne_true ‹_›)
  · exact .stop ‹_›
  · exact .stopLate

/-- The fire time is the next bucket boundary at or after the deadline. -/
theorem fireAt_bounds {now delay : Int} (hnow : 0 ≤ now) (hdelay : 0 ≤ delay)
    (hrange : now + delay + duplicationBucketSize ≤ 2 ^ 63) :
    now + delay ≤ fireAt now delay ∧ fireAt now delay < now + delay + duplicationBucketSize ∧
      fireAt now delay < 2 ^ 63 := by
  unfold duplicationBucketSize at hrange ⊢
  have hdeadline : int64 (now + delay) = now + delay := int64_eq (by omega) (by omega)
  have hround : int64 (now + delay + 1000000 - 1) = now + delay + 1000000 - 1 :=
    int64_eq (by omega) (by omega)
  have hfire : fireAt now delay = (now + delay + 1000000 - 1) / 1000000 * 1000000 := by
    simp only [fireAt, duplicationBucketSize]
    rw [hdeadline, hround, Int.tdiv_eq_ediv_of_nonneg (by omega)]
    exact int64_eq (by omega) (by omega)
  rw [hfire]
  omega

/-- A timer is created due at the fire time of its bucket. -/
theorem due_create {now key : Int} (hnow : 0 ≤ now) (hle : now ≤ key) (hkey : key < 2 ^ 63) :
    now + max (timeSub key now) 0 = key := by
  unfold timeSub
  omega

end PionTransport.Vnet.Duplication
