import PionTransport.Core.Run
import PionTransport.Core.Word

/-!
# Packet loss

An embedding of `LossFilter` and its two handlers: chunks are dropped at random, or
by a shuffled block that has the configured share of drops. What the random
generator yields is part of a call: the number of `Intn`, and the index pairs that
`Shuffle` swaps. An index out of range panics.
-/

namespace PionTransport.Vnet.Loss

open PionTransport.Core

/-- The errors of the options. -/
inductive LossError
  | invalidChance
  | invalidShuffleBlockSize
  deriving DecidableEq, Repr

/-- The text of an error. -/
def LossError.string : LossError → String
  | invalidChance => "chance must be between 0 and 100 inclusive"
  | invalidShuffleBlockSize => "shuffleBlockSize must be greater than 0"

/-- `lossHandle` without its generator; a block size of 0 means random mode. -/
structure LossHandle where
  chance : Int
  shuffleBlockSize : Int := 0
  blockIdx : Nat := 0
  shuffledBlock : List Bool := []
  currentDrops : Int := 0
  pendingDrops : Int := 0
  deriving DecidableEq, Repr

/-- What the generator yields in one call. -/
structure Yield where
  intn : Int := 0
  swaps : List (Nat × Nat) := []
  deriving DecidableEq, Repr

/-- `calculateDropsPerBlock`, rounded to the nearest. -/
def calculateDropsPerBlock (chancePercent blockSize : Int) : Int :=
  (int64 (int64 (chancePercent * blockSize) + 50)).tdiv 100

/-- `validateChance`. -/
def validateChance (chance : Int) : Bool := 0 ≤ chance ∧ chance ≤ 100

/-- One swap of the closure that `Shuffle` gets. -/
def swap (block : List Bool) (i j : Nat) : Option (List Bool) := do
  let x ← block[i]?
  let y ← block[j]?
  some ((block.set i y).set j x)

/-- `Shuffle`. -/
def shuffle : List Bool → List (Nat × Nat) → Option (List Bool)
  | block, [] => some block
  | block, (i, j) :: swaps => (swap block i j).bind fun block => shuffle block swaps

/-- The loop of `shuffleBlock` over the rest of the block; it stops when the counts agree. -/
def adjust (pending : Int) : Int → List Bool → Int × List Bool
  | current, [] => (current, [])
  | current, drop :: block =>
    if pending = current then (current, drop :: block)
    else if pending > current ∧ drop = false then
      ((adjust pending (current + 1) block).1, true :: (adjust pending (current + 1) block).2)
    else if pending < current ∧ drop = true then
      ((adjust pending (current - 1) block).1, false :: (adjust pending (current - 1) block).2)
    else ((adjust pending current block).1, drop :: (adjust pending current block).2)

/-- The loop of `newShuffleLossHandle`. -/
def fill : Nat → List Bool → Option (List Bool)
  | 0, block => some block
  | _ + 1, [] => none
  | n + 1, _ :: block => (fill n block).map (true :: ·)

namespace LossHandle

/-- `shuffleBlock`: the pending number of drops, shuffled. -/
def shuffleBlock (r : LossHandle) (g : Yield) : Option LossHandle :=
  let adjusted := adjust r.pendingDrops r.currentDrops r.shuffledBlock
  (shuffle adjusted.2 g.swaps).map fun block =>
    { r with currentDrops := adjusted.1, shuffledBlock := block, blockIdx := 0 }

/-- `shouldDropShuffle`. -/
def shouldDropShuffle (r : LossHandle) (g : Yield) : Option (LossHandle × Bool) := do
  let r ← if r.blockIdx = r.shuffledBlock.length then r.shuffleBlock g else some r
  let res ← r.shuffledBlock[r.blockIdx]?
  some ({ r with blockIdx := r.blockIdx + 1 }, res)

/-- `shouldDrop`. -/
def shouldDrop (r : LossHandle) (g : Yield) : Option (LossHandle × Bool) :=
  if r.shuffleBlockSize > 0 then r.shouldDropShuffle g
  else some (r, g.intn < r.chance)

/-- `setLossRateShuffle`. -/
def setLossRateShuffle (r : LossHandle) (chance : Int) (resetImmediately : Bool) (g : Yield) :
    Option LossHandle :=
  let r := { r with
    chance := chance, pendingDrops := calculateDropsPerBlock chance r.shuffleBlockSize }
  if resetImmediately then r.shuffleBlock g else some r

/-- `setLossRate`. -/
def setLossRate (r : LossHandle) (chance : Int) (resetImmediately : Bool) (g : Yield) :
    Option LossHandle :=
  if r.shuffleBlockSize > 0 then r.setLossRateShuffle chance resetImmediately g
  else some { r with chance := chance }

end LossHandle

/-- `newRandomLossHandle`. -/
def newRandomLossHandle (chance : Int) : LossHandle := { chance := chance }

/-- `newShuffleLossHandle`. -/
def newShuffleLossHandle (chance shuffleBlockSize : Int) (g : Yield) : Option LossHandle := do
  let dropsPerBlock := calculateDropsPerBlock chance shuffleBlockSize
  let block ← fill dropsPerBlock.toNat (List.replicate shuffleBlockSize.toNat false)
  LossHandle.shuffleBlock
    { chance := chance, shuffleBlockSize := shuffleBlockSize, shuffledBlock := block,
      currentDrops := dropsPerBlock, pendingDrops := dropsPerBlock } g

/-- The options of a filter with a handler of this package. -/
inductive LossFilterOption
  | withShuffleLossHandler (blockSize : Int)
  | withLossSeed (seed : Int)
  deriving DecidableEq, Repr

/-- The block size after the options. -/
def configure : Int → List LossFilterOption → Except LossError Int
  | shuffleBlockSize, [] => .ok shuffleBlockSize
  | _, .withShuffleLossHandler blockSize :: options =>
    if blockSize < 1 then .error .invalidShuffleBlockSize else configure blockSize options
  | shuffleBlockSize, .withLossSeed _ :: options => configure shuffleBlockSize options

/-- `NewLossFilter`. -/
def newLossFilter (chance : Int) (options : List LossFilterOption) (g : Yield) :
    Option (Except LossError LossHandle) :=
  if ¬ validateChance chance then some (.error .invalidChance)
  else
    match configure 0 options with
    | .error err => some (.error err)
    | .ok shuffleBlockSize =>
      if shuffleBlockSize > 0 then (newShuffleLossHandle chance shuffleBlockSize g).map .ok
      else some (.ok (newRandomLossHandle chance))

/-- The calls of a filter; a chunk is passed on unless `shouldDrop` says otherwise. -/
inductive Call
  | shouldDrop (g : Yield)
  | setLossRate (chance : Int) (resetImmediately : Bool) (g : Yield)
  deriving DecidableEq, Repr

/-- What a call returns. -/
inductive Outcome
  | answer (drop : Bool)
  | set
  | refused (err : LossError)
  deriving DecidableEq, Repr

/-- One call. -/
def step (r : LossHandle) : Call → Option (LossHandle × Outcome)
  | .shouldDrop g => (r.shouldDrop g).map fun res => (res.1, .answer res.2)
  | .setLossRate chance resetImmediately g =>
    if ¬ validateChance chance then some (r, .refused .invalidChance)
    else (r.setLossRate chance resetImmediately g).map fun r => (r, .set)

end PionTransport.Vnet.Loss
