import Mathlib.Data.Finset.Insert
import Mathlib.Data.List.AList
import PionTransport.Core.Run
import PionTransport.Vnet.IP

/-!
# The sockets of a network stack

An embedding of `udpConnMap`, of the calls of `Net` that open a UDP socket and of
`UDPConn.Close`. A connection is known by its number and its read-only fields; the
`closed` flags are kept by the stack. The result of resolving an address and the
random offset of a port are part of a call. A call that fails returns before it
registers anything, so its connection is not kept.
-/

namespace PionTransport.Vnet.Sockets

/-- `net.UDPAddr`. -/
structure UDPAddr where
  ip : IP
  port : Int
  deriving DecidableEq, Repr

/-- A local address as a caller gives it; its address may be nil. -/
structure LocalAddr where
  ip : Option IP
  port : Int
  deriving DecidableEq, Repr

/-- The read-only fields of `UDPConn`, and the number of the connection. -/
structure UDPConn where
  id : Nat
  locAddr : UDPAddr
  remAddr : Option UDPAddr
  deriving DecidableEq, Repr

/-- The errors of `udpConnMap`. -/
inductive ConnMapError
  | addressAlreadyInUse
  | noSuchUDPConn
  | cannotRemoveUnspecifiedIP
  deriving DecidableEq, Repr

/-- The text of an error. -/
def ConnMapError.string : ConnMapError → String
  | addressAlreadyInUse => "address already in use"
  | noSuchUDPConn => "no such UDPConn"
  | cannotRemoveUnspecifiedIP => "cannot remove unspecified IP by the specified IP"

/-- `udpConnMap`. -/
structure UDPConnMap where
  portMap : AList fun _ : Int => List UDPConn := ∅

namespace UDPConnMap

/-- The connections of all ports. -/
def conns (m : UDPConnMap) : List UDPConn := m.portMap.entries.flatMap Sigma.snd

/-- `insert`. -/
def insert (m : UDPConnMap) (conn : UDPConn) : UDPConnMap × Option ConnMapError :=
  match m.portMap.lookup conn.locAddr.port with
  | some conns =>
    if conn.locAddr.ip.isUnspecified then (m, some .addressAlreadyInUse)
    else if conns.any fun c => c.locAddr.ip.serves conn.locAddr.ip then
      (m, some .addressAlreadyInUse)
    else (⟨m.portMap.insert conn.locAddr.port (conns ++ [conn])⟩, none)
  | none => (⟨m.portMap.insert conn.locAddr.port [conn]⟩, none)

/-- `find`. -/
def find (m : UDPConnMap) (addr : UDPAddr) : UDPConnMap × Option UDPConn :=
  match m.portMap.lookup addr.port with
  | some conns =>
    if addr.ip.isUnspecified then
      match conns with
      | [] => (⟨m.portMap.erase addr.port⟩, none)
      | conn :: _ => (m, some conn)
    else (m, conns.find? fun c => c.locAddr.ip.serves addr.ip)
  | none => (m, none)

/-- `delete`. -/
def delete (m : UDPConnMap) (addr : UDPAddr) : UDPConnMap × Option ConnMapError :=
  match m.portMap.lookup addr.port with
  | none => (m, some .noSuchUDPConn)
  | some conns =>
    if addr.ip.isUnspecified then (⟨m.portMap.erase addr.port⟩, none)
    else if conns.any fun c => c.locAddr.ip.isUnspecified then (m, some .cannotRemoveUnspecifiedIP)
    else
      match conns.filter fun c => !c.locAddr.ip.equal addr.ip with
      | [] => (⟨m.portMap.erase addr.port⟩, none)
      | newConns => (⟨m.portMap.insert addr.port newConns⟩, none)

end UDPConnMap

/-- `transport.Interface`, by its name and its addresses. -/
structure Interface where
  name : String
  addrs : List IP := []
  deriving DecidableEq, Repr

/-- What can be wrong with an address to listen on, in the `OpError` of a call. -/
inductive BindError
  | cantAssignRequestedAddr
  | addressAlreadyInUse
  | endPortLessThanStart
  | portSpaceExhausted
  deriving DecidableEq, Repr

/-- The text of an error. -/
def BindError.string : BindError → String
  | cantAssignRequestedAddr => "bind: can't assign requested address"
  | addressAlreadyInUse => "bind: address already in use"
  | endPortLessThanStart => "end port is less than the start"
  | portSpaceExhausted => "port space exhausted"

/-- The errors of the calls that open a socket. -/
inductive DialError
  | unexpectedNetwork (network : String)
  | unresolved
  | listen (network : String) (addr : UDPAddr) (err : BindError)
  | insert (err : ConnMapError)
  deriving DecidableEq, Repr

/-- The errors of the calls that look for an interface. -/
inductive InterfaceError
  | noInterface
  | interfaceNotFound (ifName : String)
  deriving DecidableEq, Repr

/-- The text of an error. -/
def InterfaceError.string : InterfaceError → String
  | noInterface => "no interface is available"
  | interfaceNotFound ifName => "interface not found: " ++ ifName

/-- `Net`, with every connection it returned and the numbers of the closed ones. -/
structure Net where
  interfaces : List Interface
  udpConns : UDPConnMap := {}
  conns : List UDPConn := []
  closed : Finset Nat := ∅

/-- The interfaces of `NewNet`. -/
def newNet : Net where
  interfaces := [⟨"lo0String", [IP.v4 127 0 0 1, IP.v6loopback]⟩, { name := "eth0" }]

/-- `udpZeroIP`. -/
def udpZeroIP (network : String) : IP :=
  if network = "udp6" then IP.v6unspecified else IP.v4zero

/-- The calls of a stack. -/
inductive Event
  | listenUDP (network : String) (locAddr : Option LocalAddr) (offset : Nat)
  | dialUDP (network : String) (locAddr : Option LocalAddr) (remAddr : Option UDPAddr)
      (offset : Nat)
  | listenPacket (network : String) (resolved : Option LocalAddr) (offset : Nat)
  | dial (network : String) (resolved : Option UDPAddr) (offset : Nat)
  | close (conn : Nat)
  | addAddress (ifName : String) (ip : IP)
  | removeAddress (ifName : String) (ip : IP)
  deriving DecidableEq, Repr

/-- What a call returns; `closed` has the error that `onClosed` ignores. -/
inductive Outcome
  | opened (conn : UDPConn)
  | failed (err : DialError)
  | closed (err : Option ConnMapError)
  | alreadyClosed
  | unknown
  | changed
  | unchanged (err : InterfaceError)
  deriving DecidableEq, Repr

namespace Net

/-- The connection was opened and has not been closed. -/
def IsOpen (n : Net) (c : UDPConn) : Prop := c ∈ n.conns ∧ c.id ∉ n.closed

/-- The addresses of all interfaces. -/
def addrs (n : Net) : List IP := n.interfaces.flatMap Interface.addrs

/-- `getAllIPAddrs`. -/
def getAllIPAddrs (n : Net) (ipv6 : Bool) : List IP :=
  n.addrs.filter fun ip => if ipv6 then ip.to4.isNone else ip.to4.isSome

/-- `hasIPAddr`. An address prints as `0.0.0.0` or `::` exactly if it equals one of the two. -/
def hasIPAddr (n : Net) (ip : IP) : Bool :=
  n.addrs.any fun locIP =>
    if ip.equal .v4zero then locIP.to4.isSome
    else if ip.equal .v6unspecified then locIP.to4.isNone
    else locIP.equal ip

/-- `find` on the stack's connections. -/
def findConn (n : Net) (addr : UDPAddr) : Net × Option UDPConn :=
  ({ n with udpConns := (n.udpConns.find addr).1 }, (n.udpConns.find addr).2)

/-- The loop of `allocateLocalAddr`. -/
def checkUnused (n : Net) (port : Int) : List IP → Net × Option BindError
  | [] => (n, none)
  | ip :: ips =>
    match n.findConn ⟨ip, port⟩ with
    | (n, some _) => (n, some .addressAlreadyInUse)
    | (n, none) => checkUnused n port ips

/-- `allocateLocalAddr`. Its caller only looks at whether there is an error. -/
def allocateLocalAddr (n : Net) (ip : IP) (port : Int) : Net × Option BindError :=
  let ips :=
    if ip.isUnspecified then n.getAllIPAddrs ip.to4.isNone
    else if n.hasIPAddr ip then [ip] else []
  if ips = [] then (n, some .cantAssignRequestedAddr) else n.checkUnused port ips

/-- The loop of `assignPort` over the indices `i`, of which `left` are left. -/
def tryPorts (n : Net) (ip : IP) (start : Int) (space offset : Nat) :
    (i left : Nat) → Net × Except BindError Int
  | _, 0 => (n, .error .portSpaceExhausted)
  | i, left + 1 =>
    match n.allocateLocalAddr ip (((offset + i) % space : Nat) + start) with
    | (n, none) => (n, .ok (((offset + i) % space : Nat) + start))
    | (n, some _) => tryPorts n ip start space offset (i + 1) left

/-- `assignPort`. -/
def assignPort (n : Net) (ip : IP) (start stop : Int) (offset : Nat) :
    Net × Except BindError Int :=
  if stop < start then (n, .error .endPortLessThanStart)
  else n.tryPorts ip start (stop + 1 - start).toNat offset 0 (stop + 1 - start).toNat

/-- The end of `_dialUDP`: a new connection is inserted. -/
def register (n : Net) (locAddr : UDPAddr) (remAddr : Option UDPAddr) :
    Net × Except DialError UDPConn :=
  match n.udpConns.insert ⟨n.conns.length, locAddr, remAddr⟩ with
  | (_, some err) => (n, .error (.insert err))
  | (m, none) =>
    ({ n with udpConns := m, conns := n.conns ++ [⟨n.conns.length, locAddr, remAddr⟩] },
      .ok ⟨n.conns.length, locAddr, remAddr⟩)

/-- `_dialUDP`. -/
def dialUDP (n : Net) (network : String) (locAddr : Option LocalAddr) (remAddr : Option UDPAddr)
    (offset : Nat) : Net × Except DialError UDPConn :=
  if network ∉ ["udp", "udp4", "udp6"] then (n, .error (.unexpectedNetwork network))
  else
    let ip := (locAddr.bind LocalAddr.ip).getD (udpZeroIP network)
    let port := (locAddr.map LocalAddr.port).getD 0
    if ¬ n.hasIPAddr ip then (n, .error (.listen network ⟨ip, port⟩ .cantAssignRequestedAddr))
    else if port = 0 then
      match n.assignPort ip 5000 5999 offset with
      | (n, .error err) => (n, .error (.listen network ⟨ip, port⟩ err))
      | (n, .ok port) => n.register ⟨ip, port⟩ remAddr
    else
      match n.findConn ⟨ip, port⟩ with
      | (n, some _) => (n, .error (.listen network ⟨ip, port⟩ .addressAlreadyInUse))
      | (n, none) => n.register ⟨ip, port⟩ remAddr

/-- `determineSourceIP`. -/
def determineSourceIP (n : Net) (locIP : Option IP) (dstIP : IP) : Option IP :=
  match locIP.filter fun ip => !ip.isUnspecified with
  | some ip => some ip
  | none =>
    -- the family to look for is that of the local address, if there is one
    let isIPv4 := ((locIP.getD dstIP).to4).isSome
    if dstIP.isLoopback then some (if isIPv4 then IP.v4 127 0 0 1 else IP.v6loopback)
    else
      match n.interfaces.find? fun ifc => ifc.name = "eth0" with
      | none => none
      | some ifc => ifc.addrs.find? fun ip => ip.to4.isSome = isIPv4

/-- A call that opens a socket, and what it returns. -/
def opening (r : Net × Except DialError UDPConn) : Net × Outcome :=
  match r with
  | (n, .ok conn) => (n, .opened conn)
  | (n, .error err) => (n, .failed err)

/-- `UDPConn.Close`. -/
def close (n : Net) (conn : Nat) : Net × Outcome :=
  match n.conns[conn]? with
  | none => (n, .unknown)
  | some c =>
    if c.id ∈ n.closed then (n, .alreadyClosed)
    else
      ({ n with udpConns := (n.udpConns.delete c.locAddr).1, closed := insert c.id n.closed },
        .closed (n.udpConns.delete c.locAddr).2)

/-- A change of the interface with a name. -/
def changeInterface (n : Net) (ifName : String) (f : Interface → Interface) : Net × Outcome :=
  if n.interfaces = [] then (n, .unchanged .noInterface)
  else
    match n.interfaces.findIdx? fun ifc => ifc.name = ifName with
    | none => (n, .unchanged (.interfaceNotFound ifName))
    | some i => ({ n with interfaces := n.interfaces.modify i f }, .changed)

/-- `AddAddress`, without the table of the router. -/
def addAddress (n : Net) (ifName : String) (ip : IP) : Net × Outcome :=
  n.changeInterface ifName fun ifc => { ifc with addrs := ifc.addrs ++ [ip] }

/-- `RemoveAddress`, without the table of the router; the first equal address goes. -/
def removeAddress (n : Net) (ifName : String) (ip : IP) : Net × Outcome :=
  n.changeInterface ifName fun ifc => { ifc with addrs := ifc.addrs.eraseP fun a => a.equal ip }

/-- One call. -/
def call (n : Net) : Event → Net × Outcome
  | .listenUDP network locAddr offset => opening (n.dialUDP network locAddr none offset)
  | .dialUDP network locAddr remAddr offset => opening (n.dialUDP network locAddr remAddr offset)
  | .listenPacket _ none _ => (n, .failed .unresolved)
  | .listenPacket network (some locAddr) offset =>
    opening (n.dialUDP network (some locAddr) none offset)
  | .dial _ none _ => (n, .failed .unresolved)
  | .dial network (some remAddr) offset =>
    opening (n.dialUDP network (some ⟨n.determineSourceIP none remAddr.ip, 0⟩) (some remAddr)
      offset)
  | .close conn => n.close conn
  | .addAddress ifName ip => n.addAddress ifName ip
  | .removeAddress ifName ip => n.removeAddress ifName ip

/-- No call panics. -/
def step (n : Net) (e : Event) : Option (Net × Outcome) := some (n.call e)

end Net

end PionTransport.Vnet.Sockets
