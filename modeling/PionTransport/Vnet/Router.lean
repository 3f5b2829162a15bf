import Mathlib.Logic.Function.Basic
import PionTransport.Vnet.Translator

/-!
# Routers

An embedding of `Router` and of the calls between routers. Routers live in a
heap, a function from pointers to routers; hosts are known by their number
only. A router's goroutine takes a chunk off its queue in one step and hands
it over in later ones, since it releases its mutex in between. `none` is a
runtime panic.
-/

namespace PionTransport.Vnet

/-- `net.IPNet` as `net.ParseCIDR` returns it: an address and a prefix length. -/
structure IPNet where
  ip : IPv4
  ones : Nat
  deriving DecidableEq, Repr, Inhabited

/-- One byte of `net.CIDRMask`, where `n` mask bits are left. -/
def maskByte (n : Nat) : UInt8 := if n ≥ 8 then 0xff else ~~~ (0xff >>> UInt8.ofNat n)

namespace IPNet

/-- `IPNet.Mask`. -/
def mask (n : IPNet) : IPv4 :=
  ⟨maskByte n.ones, maskByte (n.ones - 8), maskByte (n.ones - 16), maskByte (n.ones - 24)⟩

/-- `IPNet.Contains`. -/
def contains (n : IPNet) (ip : IPv4) : Bool :=
  n.ip.a &&& n.mask.a == ip.a &&& n.mask.a && n.ip.b &&& n.mask.b == ip.b &&& n.mask.b &&
    n.ip.c &&& n.mask.c == ip.c &&& n.mask.c && n.ip.d &&& n.mask.d == ip.d &&& n.mask.d

/-- `IPNet.String`. -/
def string (n : IPNet) : String := n.ip.string ++ "/" ++ toString n.ones

end IPNet

/-- The fields of `chunkQueue`. -/
structure ChunkQueue where
  chunks : List Chunk
  maxSize : Int
  maxBytes : Int
  currentBytes : Int
  deriving DecidableEq, Repr

/-- `newChunkQueue`. -/
def newChunkQueue (maxSize maxBytes : Int) : ChunkQueue := ⟨[], maxSize, maxBytes, 0⟩

namespace ChunkQueue

/-- `chunkQueue.push`, with whether the chunk was taken. -/
def push (q : ChunkQueue) (c : Chunk) : ChunkQueue × Bool :=
  if q.maxSize > 0 ∧ (q.chunks.length : Int) ≥ q.maxSize then (q, false)
  else if q.maxBytes > 0 ∧ q.currentBytes + c.userData.length ≥ q.maxBytes then (q, false)
  else
    ({ q with chunks := q.chunks ++ [c], currentBytes := q.currentBytes + c.userData.length }, true)

/-- `chunkQueue.pop`. -/
def pop (q : ChunkQueue) : Option (Chunk × ChunkQueue) :=
  match q.chunks with
  | [] => none
  | c :: rest =>
    some (c, { q with chunks := rest, currentBytes := q.currentBytes - c.userData.length })

/-- `chunkQueue.peek`. -/
def peek (q : ChunkQueue) : Option Chunk := q.chunks.head?

end ChunkQueue

/-- What a `NIC` of a router can be. -/
inductive NIC
  | host (id : Nat)
  | router (id : Nat)
  deriving DecidableEq, Repr

/-- The errors of setting up routers. -/
inductive RouterError
  | invalidLocalIPinStaticIPs
  | localIPBeyondStaticIPsSubset (locIP : IPv4)
  | localIPNoStaticsIPsAssociated
  | staticIPisBeyondSubnet (subnet : IPNet)
  | addressSpaceExhausted
  | noIPAddrEth0
  | nat (e : NATError)
  deriving DecidableEq, Repr

/-- The text of an error. -/
def RouterError.string : RouterError → String
  | invalidLocalIPinStaticIPs => "invalid local IP in StaticIPs"
  | localIPBeyondStaticIPsSubset locIP =>
    "local IP " ++ locIP.string ++ " mapped in StaticIPs is beyond subnet"
  | localIPNoStaticsIPsAssociated => "all StaticIPs must have associated local IPs"
  | staticIPisBeyondSubnet subnet => "static IP is beyond subnet: " ++ subnet.string
  | addressSpaceExhausted => "address space exhausted"
  | noIPAddrEth0 => "no IP address is assigned for eth0"
  | nat e => e.string

/-- The call in which a router's goroutine is, outside its mutex. -/
inductive Handover
  | toNIC (nic : NIC) (c : Chunk)
  | toRouter (router : Nat) (c : Chunk)
  deriving DecidableEq, Repr

/-- The fields of `RouterConfig`, with its CIDR parsed. -/
structure RouterConfig where
  ipv4Net : IPNet
  staticIPs : List String
  queueSize : Int
  natType : Option NATType
  minDelay : Int
  deriving DecidableEq, Repr

/-- The fields of `Router`, with the addresses of its `eth0` and the state of its goroutine. -/
structure Router where
  ipv4Net : IPNet
  staticIPs : List IPv4
  staticLocalIPs : AList fun _ : String => IPv4
  lastID : UInt8
  eth0 : List IPv4
  queue : ChunkQueue
  parent : Option Nat
  natType : Option NATType
  nat : Option NetworkAddressTranslator
  nics : AList fun _ : String => NIC
  chunkFilters : List (Chunk → Bool)
  minDelay : Int
  started : Bool
  halted : Bool
  pending : Option Handover

/-- One entry of `RouterConfig.StaticIPs`, an address with an optional local address. -/
def addStaticIP (ipv4Net : IPNet) (acc : List IPv4 × AList fun _ : String => IPv4)
    (ipStr : String) : Except RouterError (List IPv4 × AList fun _ : String => IPv4) :=
  let ipPair := ipStr.toList.splitOn '/'
  match ipPair.head?.bind parseIP, ipPair[1]? with
  | none, _ => .ok acc
  | some ip, none => .ok (acc.1 ++ [ip], acc.2)
  | some ip, some localText =>
    match parseIP localText with
    | none => .error .invalidLocalIPinStaticIPs
    | some locIP =>
      if ¬ ipv4Net.contains locIP then .error (.localIPBeyondStaticIPsSubset locIP)
      else .ok (acc.1 ++ [ip], acc.2.insert ip.string locIP)

/-- `NewRouter`. -/
def newRouter (config : RouterConfig) : Except RouterError Router := do
  let (staticIPs, staticLocalIPs) ←
    config.staticIPs.foldlM (addStaticIP config.ipv4Net) ([], ∅)
  if staticLocalIPs.keys.length > 0 ∧ staticLocalIPs.keys.length ≠ staticIPs.length then
    throw .localIPNoStaticsIPsAssociated
  return {
    ipv4Net := config.ipv4Net, staticIPs := staticIPs, staticLocalIPs := staticLocalIPs
    lastID := 0, eth0 := []
    queue := newChunkQueue (if config.queueSize > 0 then config.queueSize else 0) 0
    parent := none, natType := config.natType, nat := none, nics := ∅, chunkFilters := []
    minDelay := config.minDelay, started := false, halted := false, pending := none }

/-- The type of translation of a router that was given none. -/
def defaultNATType : NATType :=
  ⟨.natModeNormal, .endpointIndependent, .endpointAddrPortDependent, 30 * 1000000000⟩

/-- What became of a chunk that a router's goroutine is done with. -/
inductive Fate
  | blocked
  | unreachable
  | noRoute
  | untranslated
  | failed (e : Failure)
  | refused (router : Nat) (e : Failure)
  | dropped (router : Nat)
  | delivered (host : Nat)
  deriving DecidableEq, Repr

namespace Router

/-- `assignIPAddress`. -/
def assignIPAddress (r : Router) : Router × Except RouterError IPv4 :=
  if r.lastID = 0xfe then (r, .error .addressSpaceExhausted)
  else ({ r with lastID := r.lastID + 1 }, .ok { r.ipv4Net.ip with d := r.lastID + 1 })

/-- The addresses of a NIC that is added: its static ones, or one that is assigned. -/
def addresses (r : Router) (staticIPs : List IPv4) : Router × Except RouterError (List IPv4) :=
  if staticIPs = [] then (r.assignIPAddress.1, r.assignIPAddress.2.map fun ip => [ip])
  else (r, .ok staticIPs)

/-- The loop of `addNIC` over a NIC's addresses, with the addresses the NIC was given. -/
def register (nic : NIC) : Router → List IPv4 → Router × List IPv4 × Option RouterError
  | r, [] => (r, [], none)
  | r, ip :: ips =>
    if ¬ r.ipv4Net.contains ip then (r, [], some (.staticIPisBeyondSubnet r.ipv4Net))
    else
      let result := register nic { r with nics := r.nics.insert ip.string nic } ips
      (result.1, ip :: result.2.1, result.2.2)

/-- Addresses are added to `eth0`. -/
def addAddresses (r : Router) (ips : List IPv4) : Router := { r with eth0 := r.eth0 ++ ips }

/-- The configuration of a router's translator, which maps to the addresses of `eth0`. -/
def natConfig (r : Router) : NATConfig where
  natType := r.natType.getD defaultNATType
  mappedIPs := r.eth0
  localIPs := r.eth0.filterMap fun ip => r.staticLocalIPs.lookup ip.string

/-- `setRouter`. -/
def setRouter (r : Router) (parent : Nat) : Router × Option RouterError :=
  if r.eth0 = [] then ({ r with parent := some parent }, some .noIPAddrEth0)
  else
    match newNAT r.natConfig with
    | .error e =>
      ({ r with parent := some parent, natType := some r.natConfig.natType, nat := none },
        some (.nat e))
    | .ok nat =>
      ({ r with parent := some parent, natType := some r.natConfig.natType, nat := some nat }, none)

/-- `push` at time `now`, with whether the chunk is in the queue. -/
def push (r : Router) (now : Int) (c : Chunk) : Router × Bool :=
  if r.started then
    ({ r with queue := (r.queue.push (c.setTimestamp now)).1 },
      (r.queue.push (c.setTimestamp now)).2)
  else (r, false)

/-- The body of the loop of `processChunks` for a due chunk, up to the release of the mutex. -/
def route (r : Router) (now : Int) (c : Chunk) : Option (Router × Except Fate Handover) :=
  if ¬ r.chunkFilters.all (fun filter => filter c) then some (r, .error .blocked)
  else if r.ipv4Net.contains c.getDestinationIP then
    match r.nics.lookup c.getDestinationIP.string with
    | none => some (r, .error .unreachable)
    | some nic => some (r, .ok (.toNIC nic c))
  else
    match r.parent with
    | none => some (r, .error .noRoute)
    | some parent =>
      match r.nat with
      | none => none
      | some nat =>
        match nat.translateOutbound now c with
        | none => none
        | some (nat, .error e) =>
          some ({ r with nat := some nat, halted := true }, .error (.failed e))
        | some (nat, .ok none) => some ({ r with nat := some nat }, .error .untranslated)
        | some (nat, .ok (some toParent)) =>
          some ({ r with nat := some nat }, .ok (.toRouter parent toParent))

end Router

/-- The heap of routers. -/
abbrev Routers := Nat → Router

/-- What a step of the network does. -/
inductive Outcome
  | idle
  | received (router : Nat) (c : Chunk)
  | routed (router : Nat) (c : Chunk)
  | forwarded (router target : Nat) (c : Chunk)
  | finished (router : Nat) (fate : Fate) (c : Chunk)
  deriving DecidableEq, Repr

namespace Routers

/-- Store a router. -/
def set (rs : Routers) (i : Nat) (r : Router) : Routers := Function.update rs i r

/-- `addNIC`. The addresses of hosts are not kept. -/
def addNIC (rs : Routers) (i : Nat) (nic : NIC) (staticIPs : List IPv4) :
    Routers × Option RouterError :=
  match (rs i).addresses staticIPs with
  | (r, .error e) => (rs.set i r, some e)
  | (r, .ok ips) =>
    match nic, r.register nic ips with
    | .host _, (r, _, err) => (rs.set i r, err)
    | .router k, (r, added, some e) =>
      ((rs.set i r).set k ((rs.set i r k).addAddresses added), some e)
    | .router k, (r, added, none) =>
      ((rs.set i r).set k (((rs.set i r k).addAddresses added).setRouter i).1,
        (((rs.set i r k).addAddresses added).setRouter i).2)

/-- `AddNet`. -/
def addNet (rs : Routers) (i host : Nat) (staticIPs : List IPv4) : Routers × Option RouterError :=
  rs.addNIC i (.host host) staticIPs

/-- `AddRouter`, which sets the router of the child twice. -/
def addRouter (rs : Routers) (i child : Nat) : Routers × Option RouterError :=
  match rs.addNIC i (.router child) (rs child).staticIPs with
  | (rs, some e) => (rs, some e)
  | (rs, none) => (rs.set child ((rs child).setRouter i).1, ((rs child).setRouter i).2)

/-- One iteration of the loop of `processChunks`, entered at `entered`, by an idle goroutine. -/
def process (rs : Routers) (i : Nat) (entered now : Int) : Option (Routers × Outcome) :=
  if ¬ (rs i).started ∨ (rs i).halted ∨ (rs i).pending.isSome then some (rs, .idle)
  else
    match (rs i).queue.peek with
    | none => some (rs, .idle)
    | some c =>
      if c.getTimestamp > entered - (rs i).minDelay then some (rs, .idle)
      else
        match (rs i).queue.pop with
        | none => some (rs, .idle)
        | some (c, queue) =>
          match { rs i with queue := queue }.route now c with
          | none => none
          | some (r, .error fate) => some (rs.set i r, .finished i fate c)
          | some (r, .ok handover) =>
            some (rs.set i { r with pending := some handover }, .routed i c)

/-- The call that a router's goroutine is in next. -/
def setPending (rs : Routers) (i : Nat) (handover : Option Handover) : Routers :=
  rs.set i { rs i with pending := handover }

/-- A translator was called. -/
def setNAT (rs : Routers) (i : Nat) (nat : NetworkAddressTranslator) : Routers :=
  rs.set i { rs i with nat := some nat }

/-- The next call that a router's goroutine makes outside its mutex: `onInboundChunk` of a host or
of a child, which translates and then pushes, or `push` of another router. -/
def handOver (rs : Routers) (i : Nat) (now : Int) : Option (Routers × Outcome) :=
  match (rs i).pending with
  | none => some (rs, .idle)
  | some (.toNIC (.host host) c) =>
    some (rs.setPending i none, .finished i (.delivered host) c)
  | some (.toNIC (.router k) c) =>
    match (rs k).nat with
    | none => none
    | some nat =>
      match nat.translateInbound now c with
      | (nat, .error e) => some ((rs.setNAT k nat).setPending i none, .finished i (.refused k e) c)
      | (_, .ok none) => none
      | (nat, .ok (some fromParent)) =>
        some ((rs.setNAT k nat).setPending i (some (.toRouter k fromParent)), .routed i c)
  | some (.toRouter k c) =>
    match (rs.setPending i none k).push now c with
    | (r, true) => some ((rs.setPending i none).set k r, .forwarded i k c)
    | (r, false) => some ((rs.setPending i none).set k r, .finished i (.dropped k) c)

end Routers

/-- The events of a network: a chunk written to a router, and the steps of its goroutine. -/
inductive Event
  | push (router : Nat) (now : Int) (c : Chunk)
  | process (router : Nat) (entered now : Int)
  | handOver (router : Nat) (now : Int)
  deriving DecidableEq, Repr

/-- The time of an event. -/
def Event.time : Event → Int
  | push _ now _ => now
  | process _ _ now => now
  | handOver _ now => now

/-- Perform one event. -/
def Routers.step (rs : Routers) : Event → Option (Routers × Outcome)
  | .push i now c => some (rs.set i ((rs i).push now c).1, .received i c)
  | .process i entered now => rs.process i entered now
  | .handOver i now => rs.handOver i now

end PionTransport.Vnet
