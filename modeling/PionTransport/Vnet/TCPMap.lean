import PionTransport.Core.Run
import PionTransport.Vnet.Sharing

/-!
# The tables of TCP sockets

An embedding of `tcpListenerMap` and `tcpConnMap`. A listener or a connection is
known by its number, which stands for the pointer, and its read-only addresses. Of
a TCP chunk the tables read the two addresses.
-/

namespace PionTransport.Vnet.TCPMap

open PionTransport.Core

/-- `net.TCPAddr`. -/
structure TCPAddr where
  ip : IP
  port : Int
  deriving DecidableEq, Repr

/-- A listener, known by its number. -/
structure TCPListener where
  id : Nat
  locAddr : TCPAddr
  deriving DecidableEq, Repr

/-- A connection, known by its number. -/
structure TCPConn where
  id : Nat
  locAddr : TCPAddr
  remAddr : TCPAddr
  deriving DecidableEq, Repr

/-- The addresses of a `chunkTCP`. -/
structure ChunkTCP where
  sourceAddr : TCPAddr
  destinationAddr : TCPAddr
  deriving DecidableEq, Repr

/-- The errors of the two tables. -/
inductive MapError
  | addressAlreadyInUse
  | noSuchTCPConn
  | noSuchTCPListener
  | tcpConnAlreadyUsed
  deriving DecidableEq, Repr

/-- The text of an error. -/
def MapError.string : MapError → String
  | addressAlreadyInUse => "address already in use"
  | noSuchTCPConn => "no such TCPConn"
  | noSuchTCPListener => "no such TCPListener"
  | tcpConnAlreadyUsed => "tcp connection tuple already in use"

/-- `tcpListenerMap`. -/
structure TCPListenerMap where
  portMap : AList fun _ : Int => List TCPListener := ∅

namespace TCPListenerMap

/-- The listeners of all ports. -/
def listeners (m : TCPListenerMap) : List TCPListener := members m.portMap

/-- `insert`. -/
def insert (m : TCPListenerMap) (listener : TCPListener) : TCPListenerMap × Option MapError :=
  match insertSocket (fun l => l.locAddr.ip) (fun l => l.locAddr.port) m.portMap listener with
  | some portMap => (⟨portMap⟩, none)
  | none => (m, some .addressAlreadyInUse)

/-- `find`. -/
def find (m : TCPListenerMap) (addr : TCPAddr) : Option TCPListener :=
  match m.portMap.lookup addr.port with
  | none => none
  | some listeners =>
    if addr.ip.isUnspecified then listeners.head?
    else listeners.find? fun l => l.locAddr.ip.serves addr.ip

/-- `delete`. -/
def delete (m : TCPListenerMap) (addr : TCPAddr) : TCPListenerMap × Option MapError :=
  match m.portMap.lookup addr.port with
  | none => (m, some .noSuchTCPListener)
  | some listeners =>
    if addr.ip.isUnspecified then (⟨m.portMap.erase addr.port⟩, none)
    else if listeners.any fun l => l.locAddr.ip.equal addr.ip then
      (⟨setGroup m.portMap addr.port (listeners.filter fun l => !l.locAddr.ip.equal addr.ip)⟩, none)
    else (m, some .noSuchTCPListener)

/-- The calls of a table of listeners. -/
inductive Call
  | insert (listener : TCPListener)
  | find (addr : TCPAddr)
  | delete (addr : TCPAddr)
  deriving DecidableEq, Repr

/-- What a call returns. -/
inductive Outcome
  | changed (err : Option MapError)
  | found (listener : Option TCPListener)
  deriving DecidableEq, Repr

/-- No call panics. -/
def step (m : TCPListenerMap) : Call → Option (TCPListenerMap × Outcome)
  | .insert listener => some ((m.insert listener).1, .changed (m.insert listener).2)
  | .find addr => some (m, .found (m.find addr))
  | .delete addr => some ((m.delete addr).1, .changed (m.delete addr).2)

end TCPListenerMap

/-- The test of `insert` between a stored connection and a new one. -/
def TCPConn.overlaps (existing conn : TCPConn) : Bool :=
  (existing.locAddr.ip.isUnspecified || conn.locAddr.ip.isUnspecified ||
    existing.locAddr.ip.equal conn.locAddr.ip) &&
    existing.remAddr.ip.equal conn.remAddr.ip && existing.remAddr.port == conn.remAddr.port

/-- The test of `findByChunk`. -/
def TCPConn.accepts (c : TCPConn) (tcp : ChunkTCP) : Bool :=
  c.locAddr.ip.serves tcp.destinationAddr.ip &&
    c.remAddr.ip.equal tcp.sourceAddr.ip && c.remAddr.port == tcp.sourceAddr.port

/-- The test of `deleteByAddr`. -/
def TCPConn.between (c : TCPConn) (laddr raddr : TCPAddr) : Bool :=
  c.locAddr.ip.equal laddr.ip && c.remAddr.ip.equal raddr.ip && c.remAddr.port == raddr.port

/-- `tcpConnMap`. -/
structure TCPConnMap where
  portMap : AList fun _ : Int => List TCPConn := ∅

namespace TCPConnMap

/-- The connections of all ports. -/
def conns (m : TCPConnMap) : List TCPConn := members m.portMap

/-- `insert`; a port that is not in the map has no connections. -/
def insert (m : TCPConnMap) (conn : TCPConn) : TCPConnMap × Option MapError :=
  if (groupAt m.portMap conn.locAddr.port).any fun existing => existing.overlaps conn then
    (m, some .tcpConnAlreadyUsed)
  else
    (⟨m.portMap.insert conn.locAddr.port (groupAt m.portMap conn.locAddr.port ++ [conn])⟩, none)

/-- `findByChunk`. -/
def findByChunk (m : TCPConnMap) (tcp : ChunkTCP) : Option TCPConn :=
  match m.portMap.lookup tcp.destinationAddr.port with
  | none => none
  | some conns => conns.find? fun c => c.accepts tcp

/-- The connections of a port that satisfy a test are removed. -/
def deleteIf (m : TCPConnMap) (port : Int) (p : TCPConn → Bool) : TCPConnMap × Option MapError :=
  match m.portMap.lookup port with
  | none => (m, some .noSuchTCPConn)
  | some conns =>
    let newConns := conns.filter fun c => !p c
    if newConns.length = conns.length then (m, some .noSuchTCPConn)
    else (⟨setGroup m.portMap port newConns⟩, none)

/-- `deleteConn`. -/
def deleteConn (m : TCPConnMap) (c : TCPConn) : TCPConnMap × Option MapError :=
  m.deleteIf c.locAddr.port fun existing => existing == c

/-- `deleteByAddr`. -/
def deleteByAddr (m : TCPConnMap) (laddr raddr : TCPAddr) : TCPConnMap × Option MapError :=
  m.deleteIf laddr.port fun c => c.between laddr raddr

/-- `portInUse`. -/
def portInUse (m : TCPConnMap) (ip : IP) (port : Int) : Bool :=
  match m.portMap.lookup port with
  | none => false
  | some conns => conns.any fun c => c.locAddr.ip.serves ip

/-- The calls that change a table of connections. -/
inductive Call
  | insert (conn : TCPConn)
  | deleteConn (c : TCPConn)
  | deleteByAddr (laddr raddr : TCPAddr)
  deriving DecidableEq, Repr

/-- Make a call. -/
def call (m : TCPConnMap) : Call → TCPConnMap × Option MapError
  | .insert conn => m.insert conn
  | .deleteConn c => m.deleteConn c
  | .deleteByAddr laddr raddr => m.deleteByAddr laddr raddr

/-- No call panics. -/
def step (m : TCPConnMap) (e : Call) : Option (TCPConnMap × Option MapError) := some (m.call e)

end TCPConnMap

end PionTransport.Vnet.TCPMap
