import PionTransport.Vnet.Duplication
import PionTransport.Vnet.Router

/-!
# Routers with duplication filters

A network whose routers have duplication filters among their chunk filters. A
filter lets every chunk pass, so it does not change what a router does with a
chunk; it schedules a marked clone, which it pushes to its own router later. The
draw of `shouldDuplicate` is part of an event. Beside the network stands the
history that its goroutines cannot read: for each chunk underway whether it comes
from a duplicate, which filters were passed by chunks that do not, and which
filters made a copy.
-/

namespace PionTransport.Vnet

/-- The chunk that is handed over. -/
def Handover.chunk : Handover → Chunk
  | .toNIC _ c => c
  | .toRouter _ c => c

namespace Duplicating

open Duplication

/-- A duplication filter and the router it pushes to. -/
structure Filter where
  router : Nat
  state : DuplicationFilter

/-- A place in a router's list of filters: which duplication filter stands there, and how many other
filters stand in front of it. -/
structure Registration where
  filter : Nat
  position : Nat
  deriving DecidableEq, Repr

/-- A chunk met a duplication filter of a router. Clones keep the tag of a chunk. -/
structure Visit where
  tag : String
  router : Nat
  registration : Registration
  deriving DecidableEq, Repr

/-- The network and its history. -/
structure FilteredRouters where
  routers : Routers
  filters : List Filter
  registered : Nat → List Registration
  /-- for the chunks of a router's queue, whether they come from a duplicate -/
  derived : Nat → List Bool := fun _ => []
  /-- the same for the chunk that a router's goroutine hands over -/
  carried : Nat → Bool := fun _ => false
  /-- the filters met by chunks that come from no duplicate -/
  passed : List Visit := []
  /-- the filters that made a copy of a chunk -/
  copies : List Visit := []

/-- The actions of hosts, routers and filters. -/
inductive Event
  | write (router : Nat) (now : Int) (c : Chunk)
  | process (router : Nat) (entered now : Int) (draws : List (Option Int))
  | handOver (router : Nat) (now : Int)
  | filter (filter : Nat) (e : Duplication.Event)
  deriving DecidableEq, Repr

/-- `shouldDuplicate` with what it would draw: no copy, or the delay of one. -/
def shouldDuplicate (f : DuplicationFilter) (draw : Option Int) : Option Int :=
  if f.closed then none else draw

/-- The chunk that a callback pushes next. -/
def nextPush (f : DuplicationFilter) (t : Nat) : Option Duplicate :=
  match f.runtime[t]? with
  | some ⟨_, _, .pushing chunks i⟩ => chunks[i]?
  | _ => none

namespace FilteredRouters

/-- A chunk is pushed to a router. -/
def arrive (n : FilteredRouters) (i : Nat) (now : Int) (c : Chunk) (derived : Bool) :
    FilteredRouters :=
  match (n.routers i).push now c with
  | (r, true) =>
    { n with
      routers := n.routers.set i r
      derived := Function.update n.derived i (n.derived i ++ [derived]) }
  | (r, false) => { n with routers := n.routers.set i r }

/-- A host writes a chunk of its own, which no filter has marked. -/
def write (n : FilteredRouters) (i : Nat) (now : Int) (c : Chunk) : FilteredRouters × Outcome :=
  if c.isDuplicate then (n, .idle) else (n.arrive i now c false, .received i c)

/-- A chunk that comes from no duplicate meets a filter. -/
def pass (n : FilteredRouters) (v : Visit) (derived : Bool) : FilteredRouters :=
  if derived then n else { n with passed := n.passed ++ [v] }

/-- The filter schedules a clone. -/
def duplicate (n : FilteredRouters) (v : Visit) (c : Chunk) (delay : Int) : FilteredRouters :=
  match n.filters[v.registration.filter]? with
  | none => n
  | some f =>
    match f.state.scheduleDuplicate c.clone delay with
    | none => n
    | some (state, _) =>
      { n with
        filters := n.filters.set v.registration.filter { f with state := state }
        copies := n.copies ++ [v] }

/-- `ChunkFilter` of one registration. -/
def chunkFilter (n : FilteredRouters) (v : Visit) (c : Chunk) (derived : Bool)
    (draw : Option Int) : FilteredRouters :=
  if c.isDuplicate then n.pass v derived
  else
    match (n.filters[v.registration.filter]?).bind fun f => shouldDuplicate f.state draw with
    | none => n.pass v derived
    | some delay => (n.pass v derived).duplicate v c delay

/-- A chunk meets the filters of a list, each with its own draw. -/
def meet (n : FilteredRouters) (i : Nat) (c : Chunk) (derived : Bool) :
    List Registration → List (Option Int) → FilteredRouters
  | [], _ => n
  | r :: rest, draws =>
    (n.chunkFilter ⟨c.tag, i, r⟩ c derived draws.head?.join).meet i c derived rest draws.tail

/-- The duplication filters of a router that see a chunk: no filter in front of them drops it. -/
def seen (n : FilteredRouters) (i : Nat) (c : Chunk) : List Registration :=
  (n.registered i).filter fun r =>
    ((n.routers i).chunkFilters.take r.position).all fun filter => filter c

/-- The goroutine of a router takes a chunk. -/
def taking (n : FilteredRouters) (i : Nat) (c : Chunk) (draws : List (Option Int))
    (rs : Routers) : FilteredRouters :=
  { n.meet i c ((n.derived i).headD false) (n.seen i c) draws with
    routers := rs
    derived := Function.update n.derived i (n.derived i).tail }

/-- The goroutine of a router processes a chunk, which meets the filters of that router. -/
def process (n : FilteredRouters) (i : Nat) (entered now : Int) (draws : List (Option Int)) :
    Option (FilteredRouters × Outcome) :=
  match n.routers.process i entered now with
  | none => none
  | some (rs, .finished j fate c) => some (n.taking i c draws rs, .finished j fate c)
  | some (rs, .routed j c) =>
    some ({ n.taking i c draws rs with
      carried := Function.update n.carried i ((n.derived i).headD false) }, .routed j c)
  | some (rs, o) => some ({ n with routers := rs }, o)

/-- A router hands its chunk over; the next one learns whether it is a duplicate. -/
def handOver (n : FilteredRouters) (i : Nat) (now : Int) : Option (FilteredRouters × Outcome) :=
  match n.routers.handOver i now with
  | none => none
  | some (rs, .forwarded j k c) =>
    some ({ n with
      routers := rs
      derived := Function.update n.derived k (n.derived k ++ [n.carried i]) }, .forwarded j k c)
  | some (rs, o) => some ({ n with routers := rs }, o)

/-- A goroutine of a filter makes a step; the chunk of a push goes to the filter's router. -/
def filterStep (n : FilteredRouters) (k : Nat) (e : Duplication.Event) :
    Option (FilteredRouters × Outcome) :=
  match n.filters[k]? with
  | none => some (n, .idle)
  | some f =>
    match e, f.state.step e with
    -- only chunks that meet the filter are scheduled
    | .schedule _ _, _ => some (n, .idle)
    | _, none => none
    | .push t, some (state, _) =>
      match nextPush f.state t with
      | none => some (n, .idle)
      | some d =>
        some ({ n with filters := n.filters.set k { f with state := state } }.arrive f.router
          f.state.now d.chunk true, .received f.router d.chunk)
    | _, some (state, _) =>
      some ({ n with filters := n.filters.set k { f with state := state } }, .idle)

/-- One action. -/
def step (n : FilteredRouters) : Event → Option (FilteredRouters × Outcome)
  | .write i now c => some (n.write i now c)
  | .process i entered now draws => n.process i entered now draws
  | .handOver i now => n.handOver i now
  | .filter k e => n.filterStep k e

end FilteredRouters

/-- A network with new filters that push to the given routers. -/
def start (routers : Routers) (targets : List Nat) (registered : Nat → List Registration)
    (now : Int) : FilteredRouters :=
  { routers, registered, filters := targets.map fun router => ⟨router, { now := now }⟩ }

end Duplicating

end PionTransport.Vnet
