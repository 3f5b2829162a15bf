import Mathlib.Data.List.AList
import PionTransport.Vnet.Chunk

/-!
# The network address translator

An embedding of `networkAddressTranslator`. Mappings live in a heap, the list
`mappings`, and both tables hold pointers into it, so that a refresh through
one table is seen through the other. Every call takes the time `now` at which
it reads the clock. `none` is a runtime panic; the only one is the access to
the first mapped address of a translator that has none.
-/

namespace PionTransport.Vnet

/-- `EndpointDependencyType`. -/
inductive EndpointDependencyType
  | endpointIndependent
  | endpointAddrDependent
  | endpointAddrPortDependent
  deriving DecidableEq, Repr

/-- `NATMode`. -/
inductive NATMode
  | natModeNormal
  | natModeNAT1To1
  deriving DecidableEq, Repr

/-- The fields of `NATType` that are implemented. -/
structure NATType where
  mode : NATMode
  mappingBehavior : EndpointDependencyType
  filteringBehavior : EndpointDependencyType
  mappingLifeTime : Int
  deriving DecidableEq, Repr

/-- `defaultNATMappingLifeTime`, 30 seconds. -/
def defaultNATMappingLifeTime : Int := 30 * 1000000000

/-- The errors of the translator. -/
inductive NATError
  | natRequiresMapping
  | mismatchLengthIP
  | noAssociatedLocalAddress
  | noNATBindingFound
  | hasNoPermission
  | portSpaceExhausted
  | unresolvedAddress
  deriving DecidableEq, Repr

/-- The text of an error. -/
def NATError.string : NATError → String
  | natRequiresMapping => "1:1 NAT requires at least one mapping"
  | mismatchLengthIP => "length mismatch between mappedIPs and localIPs"
  | noAssociatedLocalAddress => "no associated local address"
  | noNATBindingFound => "no NAT binding found"
  | hasNoPermission => "has no permission"
  | portSpaceExhausted => "port space exhausted"
  | unresolvedAddress => "address does not resolve"

/-- An error with its text, which may wrap the text of its cause. -/
structure Failure where
  cause : NATError
  message : String
  deriving DecidableEq, Repr

/-- An error that is returned as it is. -/
def NATError.failure (e : NATError) : Failure := ⟨e, e.string⟩

/-- The fields of `natConfig`. -/
structure NATConfig where
  natType : NATType
  mappedIPs : List IPv4
  localIPs : List IPv4
  deriving DecidableEq, Repr

/-- The fields of `mapping`. -/
structure Mapping where
  proto : String
  localAddr : String
  mapped : String
  bound : String
  filters : List String
  expires : Int
  deriving DecidableEq, Repr

/-- The fields of `networkAddressTranslator`, with the heap its tables point into. -/
structure NetworkAddressTranslator where
  natType : NATType
  mappedIPs : List IPv4
  localIPs : List IPv4
  mappings : List Mapping
  outboundMap : AList fun _ : String => Nat
  inboundMap : AList fun _ : String => Nat
  udpPortCounter : Nat
  tcpPortCounter : Nat

/-- `newNAT`. -/
def newNAT (config : NATConfig) : Except NATError NetworkAddressTranslator :=
  match config.natType.mode with
  | .natModeNAT1To1 =>
    if config.mappedIPs.length = 0 then .error .natRequiresMapping
    else if config.mappedIPs.length ≠ config.localIPs.length then .error .mismatchLengthIP
    else .ok
      { natType :=
          { config.natType with
            mappingBehavior := .endpointIndependent
            filteringBehavior := .endpointIndependent
            mappingLifeTime := 0 }
        mappedIPs := config.mappedIPs, localIPs := config.localIPs
        mappings := [], outboundMap := ∅, inboundMap := ∅
        udpPortCounter := 0, tcpPortCounter := 0 }
  | .natModeNormal => .ok
      { natType :=
          { config.natType with
            mappingLifeTime :=
              if config.natType.mappingLifeTime = 0 then defaultNATMappingLifeTime
              else config.natType.mappingLifeTime }
        mappedIPs := config.mappedIPs, localIPs := config.localIPs
        mappings := [], outboundMap := ∅, inboundMap := ∅
        udpPortCounter := 0, tcpPortCounter := 0 }

/-- The key of a remote endpoint under a behaviour, used for both bounds and filters. -/
def endpointKey (behavior : EndpointDependencyType) (remote : Addr) : String :=
  match behavior with
  | .endpointIndependent => ""
  | .endpointAddrDependent => remote.ip.string
  | .endpointAddrPortDependent => remote.string

/-- A key of `outboundMap`. -/
def outboundKey (proto localAddr bound : String) : String :=
  proto ++ ":" ++ localAddr ++ ":" ++ bound

/-- A key of `inboundMap`. -/
def inboundKey (proto mapped : String) : String := proto ++ ":" ++ mapped

/-- The key of a mapping in `outboundMap`. -/
def Mapping.oKey (m : Mapping) : String := outboundKey m.proto m.localAddr m.bound

/-- The key of a mapping in `inboundMap`. -/
def Mapping.iKey (m : Mapping) : String := inboundKey m.proto m.mapped

namespace NetworkAddressTranslator

/-- `getPairedMappedIP`. -/
def getPairedMappedIP (n : NetworkAddressTranslator) (locIP : IPv4) : Option IPv4 :=
  (n.localIPs.idxOf? locIP).bind fun i => n.mappedIPs[i]?

/-- `getPairedLocalIP`. -/
def getPairedLocalIP (n : NetworkAddressTranslator) (mappedIP : IPv4) : Option IPv4 :=
  (n.mappedIPs.idxOf? mappedIP).bind fun i => n.localIPs[i]?

/-- `removeMapping` deletes both keys of a mapping. -/
def removeMapping (n : NetworkAddressTranslator) (m : Mapping) : NetworkAddressTranslator :=
  { n with
    outboundMap := n.outboundMap.erase m.oKey
    inboundMap := n.inboundMap.erase m.iKey }

/-- The mapping behind a key of a table, with its pointer. -/
def deref (n : NetworkAddressTranslator) (table : AList fun _ : String => Nat) (key : String) :
    Option (Nat × Mapping) :=
  (table.lookup key).bind fun p => (n.mappings[p]?).map fun m => (p, m)

/-- `findOutboundMapping` refreshes a live mapping and removes an expired one. -/
def findOutboundMapping (n : NetworkAddressTranslator) (now : Int) (oKey : String) :
    NetworkAddressTranslator × Option (Nat × Mapping) :=
  match n.deref n.outboundMap oKey with
  | none => (n, none)
  | some (p, m) =>
    if now > m.expires then (n.removeMapping m, none)
    else
      let m := { m with expires := now + n.natType.mappingLifeTime }
      ({ n with mappings := n.mappings.set p m }, some (p, m))

/-- `findInboundMapping` removes an expired mapping, but does not refresh a live one. -/
def findInboundMapping (n : NetworkAddressTranslator) (now : Int) (iKey : String) :
    NetworkAddressTranslator × Option Mapping :=
  match n.deref n.inboundMap iKey with
  | none => (n, none)
  | some (_, m) => if now > m.expires then (n.removeMapping m, none) else (n, some m)

/-- The port counter of a network. -/
def portCounter (n : NetworkAddressTranslator) : Network → Nat
  | .udp => n.udpPortCounter
  | .tcp => n.tcpPortCounter

/-- Increment the port counter of a network. -/
def countPort (n : NetworkAddressTranslator) : Network → NetworkAddressTranslator
  | .udp => { n with udpPortCounter := n.udpPortCounter + 1 }
  | .tcp => { n with tcpPortCounter := n.tcpPortCounter + 1 }

section CountPort

variable (n : NetworkAddressTranslator) (network : Network)

@[simp] theorem natType_countPort : (n.countPort network).natType = n.natType := by
  cases network <;> rfl
@[simp] theorem mappedIPs_countPort : (n.countPort network).mappedIPs = n.mappedIPs := by
  cases network <;> rfl
@[simp] theorem mappings_countPort : (n.countPort network).mappings = n.mappings := by
  cases network <;> rfl
@[simp] theorem outboundMap_countPort : (n.countPort network).outboundMap = n.outboundMap := by
  cases network <;> rfl
@[simp] theorem inboundMap_countPort : (n.countPort network).inboundMap = n.inboundMap := by
  cases network <;> rfl
/-- Only the counter of the network itself moves. -/
@[simp] theorem portCounter_countPort (other : Network) :
    (n.countPort network).portCounter other =
      if network = other then n.portCounter other + 1 else n.portCounter other := by
  cases network <;> cases other <;> rfl

end CountPort

/-- The end of an outbound translation: the source becomes the mapped address. -/
def setMappedSource (n : NetworkAddressTranslator) (c : Chunk) (mapped : String) :
    NetworkAddressTranslator × Except Failure (Option Chunk) :=
  match c.clone.setSourceAddr mapped with
  | none => (n, .error NATError.unresolvedAddress.failure)
  | some translated => (n, .ok (some translated))

/-- The closure `translateOutboundNAPT`. -/
def translateOutboundNAPT (n : NetworkAddressTranslator) (now : Int) (c : Chunk)
    (proto : Network) (portBase : Nat) :
    Option (NetworkAddressTranslator × Except Failure (Option Chunk)) :=
  let bound := endpointKey n.natType.mappingBehavior c.destinationAddr
  let filterKey := endpointKey n.natType.filteringBehavior c.destinationAddr
  let oKey := outboundKey proto.string c.sourceAddr.string bound
  match n.findOutboundMapping now oKey with
  | (n, none) =>
    let mappedPort := portBase + n.portCounter proto
    if mappedPort > 65535 then some (n, .error NATError.portSpaceExhausted.failure)
    else do
      let n := n.countPort proto
      let ip ← n.mappedIPs[0]?
      let m : Mapping :=
        { proto := c.network.string
          localAddr := c.sourceAddr.string
          bound := bound
          mapped := hostPort ip mappedPort
          filters := [filterKey]
          expires := now + n.natType.mappingLifeTime }
      let n :=
        { n with
          mappings := n.mappings ++ [m]
          outboundMap := n.outboundMap.insert oKey n.mappings.length
          inboundMap := n.inboundMap.insert (inboundKey proto.string m.mapped) n.mappings.length }
      return n.setMappedSource c m.mapped
  | (n, some (p, m)) =>
    let n :=
      if filterKey ∈ m.filters then n
      else { n with mappings := n.mappings.set p { m with filters := filterKey :: m.filters } }
    some (n.setMappedSource c m.mapped)

/-- The 1:1 branch of `translateOutbound`: the address is replaced, the port kept. -/
def translateOutboundNAT1To1 (n : NetworkAddressTranslator) (c : Chunk) :
    NetworkAddressTranslator × Except Failure (Option Chunk) :=
  match n.getPairedMappedIP c.getSourceIP with
  | none => (n, .ok none)
  | some srcIP => n.setMappedSource c (hostPort srcIP c.sourceAddr.port.toNat)

/-- The first external port of a network. -/
def portBase : Network → Nat
  | .udp => 0xC000
  | .tcp => 0x8000

/-- `translateOutbound` at time `now`; a missing chunk is a drop without an error. -/
def translateOutbound (n : NetworkAddressTranslator) (now : Int) (c : Chunk) :
    Option (NetworkAddressTranslator × Except Failure (Option Chunk)) :=
  match n.natType.mode with
  | .natModeNAT1To1 => some (n.translateOutboundNAT1To1 c)
  | .natModeNormal => n.translateOutboundNAPT now c c.network (portBase c.network)

/-- The closure `translateInboundNAT1To1`. -/
def translateInboundNAT1To1 (n : NetworkAddressTranslator) (c : Chunk) :
    NetworkAddressTranslator × Except Failure (Option Chunk) :=
  match n.getPairedLocalIP c.getDestinationIP with
  | none =>
    let e := NATError.noAssociatedLocalAddress
    (n, .error ⟨e, "drop " ++ c.string ++ " as " ++ e.string⟩)
  | some dstIP =>
    match c.clone.setDestinationAddr (hostPort dstIP c.destinationAddr.port.toNat) with
    | none => (n, .error NATError.unresolvedAddress.failure)
    | some translated => (n, .ok (some translated))

/-- The closure `translateInboundNAPT`. -/
def translateInboundNAPT (n : NetworkAddressTranslator) (now : Int) (c : Chunk)
    (proto : Network) : NetworkAddressTranslator × Except Failure (Option Chunk) :=
  match n.findInboundMapping now (inboundKey proto.string c.destinationAddr.string) with
  | (n, none) =>
    let e := NATError.noNATBindingFound
    (n, .error ⟨e, "drop " ++ c.string ++ " as " ++ e.string⟩)
  | (n, some m) =>
    let filterKey := endpointKey n.natType.filteringBehavior c.sourceAddr
    if filterKey ∉ m.filters then
      let e := NATError.hasNoPermission
      (n, .error ⟨e, "drop " ++ c.string ++ " as the remote " ++ filterKey ++ " " ++ e.string⟩)
    else
      match c.clone.setDestinationAddr m.localAddr with
      | none => (n, .error NATError.unresolvedAddress.failure)
      | some translated => (n, .ok (some translated))

/-- `translateInbound` at time `now`. -/
def translateInbound (n : NetworkAddressTranslator) (now : Int) (c : Chunk) :
    NetworkAddressTranslator × Except Failure (Option Chunk) :=
  match n.natType.mode with
  | .natModeNAT1To1 => n.translateInboundNAT1To1 c
  | .natModeNormal => n.translateInboundNAPT now c c.network

end NetworkAddressTranslator

/-- One call to a translator. -/
inductive NATCall
  | outbound (now : Int) (c : Chunk)
  | inbound (now : Int) (c : Chunk)
  deriving DecidableEq, Repr

/-- The time of a call. -/
def NATCall.time : NATCall → Int
  | outbound now _ => now
  | inbound now _ => now

/-- Perform one call. -/
def NetworkAddressTranslator.step (n : NetworkAddressTranslator) :
    NATCall → Option (NetworkAddressTranslator × Except Failure (Option Chunk))
  | .outbound now c => n.translateOutbound now c
  | .inbound now c => some (n.translateInbound now c)

end PionTransport.Vnet
