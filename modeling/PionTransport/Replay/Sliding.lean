import PionTransport.Replay.Api
import PionTransport.Replay.FixedBig

/-!
# The non-wrapping detector

An embedding of `slidingWindowDetector`. Sequence numbers are unsigned words;
every subtraction of the source is guarded so that it does not wrap, and the
remainder by a zero `maxSeq` is a panic.
-/

namespace PionTransport.Replay

open PionTransport.Core

/-- The fields of `slidingWindowDetector`. -/
structure SlidingWindowDetector where
  latestSeq : Nat
  maxSeq : Nat
  windowSize : Nat
  mask : FixedBigInt
  deriving DecidableEq, Repr

namespace SlidingWindowDetector

/-- `New`. -/
def new (windowSize maxSeq : Nat) : SlidingWindowDetector :=
  ⟨0, maxSeq, windowSize, newFixedBigInt windowSize⟩

/-- The unexported `checkSeq`, which does not change the detector. -/
def checkSeq (d : SlidingWindowDetector) (seq : Nat) : Option Bool :=
  if seq > d.maxSeq then
    -- exceeded upper limit
    some false
  else if seq ≤ d.latestSeq then
    if d.latestSeq - seq ≥ d.windowSize then some false
    else (d.mask.bit (d.latestSeq - seq)).map fun b => decide (b = 0)
  else some true

/-- `acceptSeq` moves the head if needed, marks the number and reports whether it is the latest. -/
def acceptSeq (d : SlidingWindowDetector) (seq : Nat) : Option (SlidingWindowDetector × Bool) := do
  let first : Option Bool :=
    if seq = 0 ∧ d.latestSeq = 0 then (d.mask.bit 0).map fun b => decide (b = 0)
    else some false
  let latest ← first
  let (d, latest) :=
    if seq > d.latestSeq then
      -- update the head of the window
      ({ d with
        mask := d.mask.lsh (min (seq - d.latestSeq) d.windowSize)
        latestSeq := seq }, true)
    else (d, latest)
  if d.maxSeq = 0 then
    none
  else
    let diff := (d.latestSeq - seq) % d.maxSeq
    let mask ← d.mask.setBit diff
    return ({ d with mask := mask }, latest)

/-- `Check`. -/
def check (d : SlidingWindowDetector) (seq : Nat) : Option (SlidingWindowDetector ×
    (SlidingWindowDetector → Option (SlidingWindowDetector × Bool)) × Bool) := do
  if !(← d.checkSeq seq) then
    return (d, nop, false)
  return (d, fun d => d.acceptSeq seq, true)

/-- `CheckSeq`. -/
def checkToken (d : SlidingWindowDetector) (seq : Nat) :
    Option (SlidingWindowDetector × Token) := do
  if !(← d.checkSeq seq) then
    return (d, rejectedToken seq)
  return (d, passedToken seq)

/-- `Accept`. -/
def accept (d : SlidingWindowDetector) (tok : Token) : Option (SlidingWindowDetector × Bool) :=
  if !tok.passed then some (d, false) else d.acceptSeq tok.seq

/-- The detector as a `CheckAccepter`. -/
def tokenApi : CheckAccepter SlidingWindowDetector := ⟨checkToken, accept⟩

/-- The detector as a `ReplayDetector`. -/
def closureApi : ReplayDetector SlidingWindowDetector := ⟨check⟩

end SlidingWindowDetector

end PionTransport.Replay
