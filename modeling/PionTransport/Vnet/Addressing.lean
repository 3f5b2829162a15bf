import PionTransport.Core.Table
import PionTransport.Vnet.IP
import PionTransport.Vnet.Router

/-!
# Addresses of interfaces and of routing tables

An embedding of the calls that attach a NIC to a router and that add or remove an
address later, for addresses of both families. Hosts and routers have interfaces
of their own; a filter is a NIC that hands every call on to the NIC it wraps. The
key of a routing table is the text of an address, which tells apart what
`IP.equal` tells apart; the canonical form of the address stands for it. A router
that is attached to itself waits for its own mutex, which is `none`.
-/

namespace PionTransport.Vnet.Addressing

open PionTransport.Core

/-- `net.IPNet` as `net.ParseCIDR` returns it, for either family. -/
structure Subnet where
  ip : IP
  mask : List UInt8
  family : ip.bytes.length = 4 ∨ ip.bytes.length = 16
  mask_length : mask.length = ip.bytes.length
  deriving DecidableEq, Repr

namespace Subnet

/-- `IPNet.Contains`. An IPv4 network in sixteen bytes is compared by its last four. -/
def contains (n : Subnet) (ip : IP) : Bool :=
  let number := n.ip.canonical.bytes
  let mask := n.mask.drop (n.mask.length - number.length)
  let bytes := ip.canonical.bytes
  bytes.length == number.length &&
    List.zipWith (· &&& ·) number mask == List.zipWith (· &&& ·) bytes mask

/-- `net.ParseCIDR` on an IPv4 address and a prefix length. -/
def parseCIDR (ip : IPv4) (ones : Nat) : Subnet where
  ip := ⟨[ip.a &&& maskByte ones, ip.b &&& maskByte (ones - 8), ip.c &&& maskByte (ones - 16),
    ip.d &&& maskByte (ones - 24)]⟩
  mask := [maskByte ones, maskByte (ones - 8), maskByte (ones - 16), maskByte (ones - 24)]
  family := Or.inl rfl
  mask_length := rfl

end Subnet

/-- The values of `net.Addr` that an interface may hold. -/
inductive IfcAddr
  | ipNet (ip : IP) (mask : List UInt8)
  | ipAddr (ip : IP) (zone : String)
  | other (text : String)
  deriving DecidableEq, Repr

/-- The address of an `IPNet` or an `IPAddr`. -/
def IfcAddr.ip : IfcAddr → Option IP
  | ipNet ip _ => some ip
  | ipAddr ip _ => some ip
  | other _ => none

/-- `transport.Interface`, by its name and its addresses. -/
structure Interface where
  name : String
  addrs : List IfcAddr := []
  deriving DecidableEq, Repr

/-- `Interface.RemoveAddress`: the first equal address goes. -/
def removeFirst (addrs : List IfcAddr) (ip : IP) : List IfcAddr :=
  addrs.eraseP fun addr => addr.ip.any fun x => x.equal ip

/-- Change the addresses of the first interface of a name. -/
def changeAddrs (ifName : String) (f : List IfcAddr → List IfcAddr) :
    List Interface → List Interface
  | [] => []
  | ifc :: ifcs =>
    if ifc.name = ifName then { ifc with addrs := f ifc.addrs } :: ifcs
    else ifc :: changeAddrs ifName f ifcs

/-- The first interface of a name. -/
def findInterface (ifName : String) (ifcs : List Interface) : Option Interface :=
  ifcs.find? fun ifc => ifc.name = ifName

/-- What a NIC stands for in the end: a host, which is a `Net`, or a router. -/
inductive Node
  | host (n : Nat)
  | router (k : Nat)
  deriving DecidableEq, Repr

/-- `NIC`: a node, possibly behind filters. -/
structure NIC where
  base : Node
  filters : List Nat := []
  deriving DecidableEq, Repr

/-- The fields that `Net` and `Router` have in common as NICs. -/
structure Endpoint where
  interfaces : List Interface
  staticIPs : List IP
  router : Option Nat
  deriving DecidableEq, Repr

/-- `NewNet`, with the texts of its configuration parsed. -/
def newNet (staticIPs : List IP) : Endpoint where
  interfaces :=
    [⟨"lo0String", [.ipNet (.v4 127 0 0 1) [255, 0, 0, 0],
      .ipNet .v6loopback (List.replicate 16 255)]⟩, ⟨"eth0", []⟩]
  staticIPs := staticIPs
  router := none

/-- The NIC of a router as `NewRouter` makes it. -/
def newRouterNIC (staticIPs : List IP) : Endpoint where
  interfaces := [⟨"lo0String", [.ipAddr (.v4 127 0 0 1) ""]⟩, ⟨"eth0", []⟩]
  staticIPs := staticIPs
  router := none

/-- The fields of `Router` that concern addresses, but for those of its own NIC. -/
structure Router where
  subnet : Subnet
  staticLocalIPs : AList fun _ : IP => IP
  lastID : UInt8
  nics : AList fun _ : IP => NIC
  natType : Option NATType

/-- Hosts and routers. -/
structure Network where
  nodes : Node → Endpoint
  routers : Nat → Router

/-- The errors of the calls below. -/
inductive AddressError
  | noInterface (node : Node)
  | interfaceNotFound (ifName : String)
  | staticIPisBeyondSubnet (subnet : Subnet)
  | addressSpaceExhausted
  | noIPAddrEth0
  | nat (e : NATError)
  deriving DecidableEq, Repr

/-- The text of an error, for some text of networks. A router completes a sentence that is
complete already. -/
def AddressError.string (subnetString : Subnet → String) : AddressError → String
  | noInterface (.host _) => "no interface is available"
  | noInterface (.router _) => "no interface is available is available"
  | interfaceNotFound ifName => "interface not found: " ++ ifName
  | staticIPisBeyondSubnet subnet => "static IP is beyond subnet: " ++ subnetString subnet
  | addressSpaceExhausted => "address space exhausted"
  | noIPAddrEth0 => "no IP address is assigned for eth0"
  | nat e => e.string

/-- The checks of `newNAT`. -/
def checkNAT (natType : NATType) (mappedIPs localIPs : List IP) : Option NATError :=
  match natType.mode with
  | .natModeNAT1To1 =>
    if mappedIPs.length = 0 then some .natRequiresMapping
    else if mappedIPs.length ≠ localIPs.length then some .mismatchLengthIP
    else none
  | .natModeNormal => none

namespace Router

/-- The address that `assignIPAddress` makes next. -/
def nextIP (r : Router) : IP := ⟨r.subnet.ip.bytes.take 3 ++ [r.lastID + 1]⟩

/-- `assignIPAddress`. -/
def assignIPAddress (r : Router) : Router × Except AddressError IP :=
  if r.lastID = 0xfe then (r, .error .addressSpaceExhausted)
  else ({ r with lastID := r.lastID + 1 }, .ok r.nextIP)

/-- The addresses of a NIC that is added: its static ones, or one that is assigned. -/
def addresses (r : Router) (staticIPs : List IP) : Router × Except AddressError (List IP) :=
  if staticIPs = [] then (r.assignIPAddress.1, r.assignIPAddress.2.map fun ip => [ip])
  else (r, .ok staticIPs)

/-- `addIPToNIC`. -/
def addIPToNIC (r : Router) (nic : NIC) (ip : IP) : Router × Option AddressError :=
  if ¬ r.subnet.contains ip then (r, some (.staticIPisBeyondSubnet r.subnet))
  else ({ r with nics := r.nics.insert ip.canonical nic }, none)

/-- The loop of `addNIC`, with the addresses that the NIC was given. -/
def register (nic : NIC) : Router → List IP → Router × List IP × Option AddressError
  | r, [] => (r, [], none)
  | r, ip :: ips =>
    if ¬ r.subnet.contains ip then (r, [], some (.staticIPisBeyondSubnet r.subnet))
    else
      let result := register nic { r with nics := r.nics.insert ip.canonical nic } ips
      (result.1, ip :: result.2.1, result.2.2)

/-- `removeIPFromNIC`. -/
def removeIPFromNIC (r : Router) (ip : IP) : Router := { r with nics := r.nics.erase ip.canonical }

end Router

namespace Network

/-- Store a router. -/
def storeRouter (s : Network) (i : Nat) (r : Router) : Network :=
  { s with routers := Function.update s.routers i r }

/-- Store a node. -/
def storeNode (s : Network) (node : Node) (e : Endpoint) : Network :=
  { s with nodes := Function.update s.nodes node e }

/-- Change the addresses of an interface of a node. -/
def changeInterface (s : Network) (node : Node) (ifName : String)
    (f : List IfcAddr → List IfcAddr) : Network :=
  s.storeNode node
    { s.nodes node with interfaces := changeAddrs ifName f (s.nodes node).interfaces }

/-- `getInterface`. -/
def getInterface (s : Network) (node : Node) (ifName : String) : Except AddressError Interface :=
  if (s.nodes node).interfaces = [] then .error (.noInterface node)
  else
    match findInterface ifName (s.nodes node).interfaces with
    | none => .error (.interfaceNotFound ifName)
    | some ifc => .ok ifc

/-- `setRouter` of a host, and of a router, which makes its translator. -/
def setRouter (s : Network) (node : Node) (parent : Nat) : Network × Option AddressError :=
  let s := s.storeNode node { s.nodes node with router := some parent }
  match node with
  | .host _ => (s, none)
  | .router k =>
    match s.getInterface node "eth0" with
    | .error e => (s, some e)
    | .ok ifc =>
      if ifc.addrs = [] then (s, some .noIPAddrEth0)
      else
        let mappedIPs := (ifc.addrs.filterMap IfcAddr.ip).filter fun ip => ip.bytes ≠ []
        let localIPs := mappedIPs.filterMap fun ip =>
          (s.routers k).staticLocalIPs.lookup ip.canonical
        let natType := (s.routers k).natType.getD defaultNATType
        (s.storeRouter k { s.routers k with natType := some natType },
          (checkNAT natType mappedIPs localIPs).map .nat)

/-- `addNIC`. -/
def addNIC (s : Network) (i : Nat) (nic : NIC) : Option (Network × Option AddressError) :=
  if nic.base = .router i then none
  else
    match s.getInterface nic.base "eth0" with
    | .error e => some (s, some e)
    | .ok _ =>
      match (s.routers i).addresses (s.nodes nic.base).staticIPs with
      | (r, .error e) => some (s.storeRouter i r, some e)
      | (r, .ok ips) =>
        let (r, added, err) := r.register nic ips
        let s := (s.storeRouter i r).changeInterface nic.base "eth0"
          fun addrs => addrs ++ added.map fun ip => .ipNet ip r.subnet.mask
        match err with
        | some e => some (s, some e)
        | none => some (s.setRouter nic.base i)

/-- `AddNet`. -/
def addNet (s : Network) (i : Nat) (nic : NIC) : Option (Network × Option AddressError) :=
  s.addNIC i nic

/-- `AddRouter`, which sets the router of the child twice. -/
def addRouter (s : Network) (i child : Nat) : Option (Network × Option AddressError) :=
  match s.addNIC i ⟨.router child, []⟩ with
  | none => none
  | some (s, some e) => some (s, some e)
  | some (s, none) => some (s.setRouter (.router child) i)

/-- `Net.AddAddress`. -/
def addAddress (s : Network) (n : Nat) (ifName : String) (ip : IP) (mask : List UInt8) :
    Network × Option AddressError :=
  match s.getInterface (.host n) ifName with
  | .error e => (s, some e)
  | .ok _ =>
    let s := s.changeInterface (.host n) ifName fun addrs => addrs ++ [.ipNet ip mask]
    match (s.nodes (.host n)).router with
    | none => (s, none)
    | some i =>
      (s.storeRouter i ((s.routers i).addIPToNIC ⟨.host n, []⟩ ip).1,
        ((s.routers i).addIPToNIC ⟨.host n, []⟩ ip).2)

/-- `Net.RemoveAddress`. -/
def removeAddress (s : Network) (n : Nat) (ifName : String) (ip : IP) :
    Network × Option AddressError :=
  match s.getInterface (.host n) ifName with
  | .error e => (s, some e)
  | .ok _ =>
    let s := s.changeInterface (.host n) ifName fun addrs => removeFirst addrs ip
    match (s.nodes (.host n)).router with
    | none => (s, none)
    | some i => (s.storeRouter i ((s.routers i).removeIPFromNIC ip), none)

end Network

/-- One call. -/
inductive Call
  | addNet (router : Nat) (nic : NIC)
  | addRouter (router child : Nat)
  | addAddress (host : Nat) (ifName : String) (ip : IP) (mask : List UInt8)
  | removeAddress (host : Nat) (ifName : String) (ip : IP)
  deriving DecidableEq, Repr

/-- Perform one call. -/
def Network.step (s : Network) : Call → Option (Network × Option AddressError)
  | .addNet i nic => s.addNet i nic
  | .addRouter i child => s.addRouter i child
  | .addAddress n ifName ip mask => some (s.addAddress n ifName ip mask)
  | .removeAddress n ifName ip => some (s.removeAddress n ifName ip)

end PionTransport.Vnet.Addressing
