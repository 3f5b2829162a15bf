import Mathlib.Logic.Function.Basic
import PionTransport.Core.Run
import PionTransport.Vnet.Addr

/-!
# The UDP listener

One socket carries the packets of all remote addresses. The goroutines that
share a listener are the read loop, the calls of `Accept`, the call of
`listener.Close`, the calls of `Conn.Close` and the goroutine that closes the
socket once `connWG` is zero. A step is one action of one of them on the shared
state, so that the interleavings are the lists of steps. A step that its
goroutine cannot take yet is blocked and changes nothing; `none` is a panic.
-/

namespace PionTransport.Udp

/-- The method of `net.Addr` that the listener uses. -/
class NetAddr (α : Type) where
  string : α → String

instance : NetAddr Vnet.Addr := ⟨Vnet.Addr.string⟩

/-- The typed errors of the package. -/
inductive UdpError
  | closedListener
  | listenQueueExceeded
  | invalidBatchConfig
  deriving DecidableEq, Repr

/-- The text of an error. -/
def UdpError.text : UdpError → String
  | .closedListener => "udp: listener closed"
  | .listenQueueExceeded => "udp: listen queue exceeded"
  | .invalidBatchConfig => "udp: invalid batch config"

/-- Limits of batched reads and writes. -/
structure BatchIOConfig where
  enable : Bool := false
  readBatchSize : Int := 0
  writeBatchSize : Int := 0
  writeBatchInterval : Int := 0

/-- Options of `Listen`. -/
structure ListenConfig where
  backlog : Int := 0
  acceptFilter : Option (List UInt8 → Bool) := none
  batch : BatchIOConfig := {}

/-- The backlog if none is given. -/
def defaultListenBacklog : Nat := 128

/-- `sync.WaitGroup`, with whether a `Wait` that was called at the start has been released. In Go
this `Wait` panics if `Add` is called before it returns; here it returns. -/
structure WaitGroup where
  count : Nat
  released : Bool := false
  deriving DecidableEq, Repr

/-- `Add(1)`. -/
def WaitGroup.add (wg : WaitGroup) : WaitGroup := { wg with count := wg.count + 1 }

/-- `Done`, which panics on a negative counter. -/
def WaitGroup.done (wg : WaitGroup) : Option WaitGroup :=
  match wg.count with
  | 0 => none
  | n + 1 => some ⟨n, wg.released || n == 0⟩

/-- Where a connection is on its way from the backlog to the removal of its key. -/
inductive Phase
  /-- in `acceptCh` -/
  | backlog
  /-- received by an `Accept` call that has not yet added to `connWG` -/
  | taken
  /-- returned to the caller of `Accept` -/
  | accepted
  /-- its `Close` has called `connWG.Done` -/
  | released
  /-- its `Close` has closed `doneCh` -/
  | signalled
  /-- received by `listener.Close` -/
  | dropping
  /-- its key is deleted from `conns` -/
  | removed
  deriving DecidableEq, Repr

/-- A connection, with the writes attempted on its buffer in order. -/
structure Conn (α : Type) where
  rAddr : α
  writes : List (List UInt8) := []
  doneClosed : Bool := false
  phase : Phase := .backlog

/-- `newConn`. -/
def newConn {α : Type} (rAddr : α) : Conn α := { rAddr }

/-- Where the read loop is inside `dispatchMsg`. -/
inductive Reader (α : Type)
  | idle
  /-- `getConn` holds `connLock` and found no connection -/
  | missed (raddr : α) (buf : List UInt8)
  /-- `getConn` holds `connLock` and may create the connection -/
  | admitted (raddr : α) (buf : List UInt8)
  /-- `getConn` holds `connLock` and has sent the connection to `acceptCh` -/
  | sent (raddr : α) (id : Nat) (buf : List UInt8)
  /-- `getConn` has returned the connection -/
  | found (id : Nat) (buf : List UInt8)
  | ended

/-- Where the one effective call of `listener.Close` is. -/
inductive Closing
  | uncalled
  /-- `accepting` is false -/
  | stopped
  /-- `doneCh` is closed -/
  | signalled
  /-- holds `connLock`, in front of the `select` of its loop -/
  | draining
  /-- holds `connLock` and has received a connection -/
  | dropping (id : Nat)
  /-- has left the loop and released `connLock` -/
  | drained
  /-- has called `connWG.Done` -/
  | released
  deriving DecidableEq, Repr

/-- The shared state of a listener; connections are known by their place in `heap`. -/
structure Listener (α : Type) where
  readBatchSize : Int := 0
  backlog : Nat
  acceptFilter : Option (List UInt8 → Bool)
  accepting : Bool := true
  acceptCh : List Nat := []
  doneClosed : Bool := false
  conns : String → Option Nat := fun _ => none
  connWG : WaitGroup := ⟨1, false⟩
  readDone : Bool := false
  pConnClosed : Bool := false
  heap : List (Conn α) := []
  batch : List (α × List UInt8) := []
  reader : Reader α := .idle
  closing : Closing := .uncalled

/-- `ListenConfig.Listen`, once the socket is open. -/
def listen {α : Type} (lc : ListenConfig) : Option (Except UdpError (Listener α)) :=
  if lc.batch.enable ∧ (lc.batch.writeBatchSize ≤ 0 ∨ lc.batch.writeBatchInterval ≤ 0) then
    some (.error .invalidBatchConfig)
  else if lc.backlog < 0 then none
  else some (.ok {
    readBatchSize := if lc.batch.enable then lc.batch.readBatchSize else 0
    backlog := if lc.backlog = 0 then defaultListenBacklog else lc.backlog.toNat
    acceptFilter := lc.acceptFilter })

/-- The listener of the default configuration. -/
def defaultListener : Listener Vnet.Addr :=
  { backlog := defaultListenBacklog, acceptFilter := none }

/-- What `Listen` makes of the default configuration. -/
theorem listen_default : listen {} = some (.ok defaultListener) := rfl

/-- The steps of the goroutines. -/
inductive Event (α : Type)
  /-- `ReadFrom` or `ReadBatch` returns messages -/
  | receive (msgs : List (α × List UInt8))
  /-- `ReadFrom` or `ReadBatch` fails, which ends the read loop -/
  | readError
  /-- `getConn` locks `connLock` and looks up the address of the next message -/
  | lookup
  /-- `getConn` reads `accepting` and asks the filter -/
  | check
  /-- `getConn` sends the new connection to `acceptCh` -/
  | send
  /-- `getConn` stores the new connection in `conns` -/
  | register
  /-- `dispatchMsg` writes to the buffer -/
  | write
  /-- `Accept` receives from `acceptCh` -/
  | acceptConn
  /-- `Accept` receives from `readDoneCh` -/
  | acceptReadDone
  /-- `Accept` receives from `doneCh` -/
  | acceptDone
  /-- `Accept` adds to `connWG` and returns the connection -/
  | acceptReturn (id : Nat)
  /-- `listener.Close` clears `accepting` -/
  | closeStop
  /-- `listener.Close` closes `doneCh` -/
  | closeSignal
  /-- `listener.Close` locks `connLock` -/
  | closeLock
  /-- the `select` in the loop of `listener.Close` -/
  | closeSelect
  /-- `listener.Close` closes and deletes the connection it has received -/
  | closeDrop
  /-- `listener.Close` calls `connWG.Done` -/
  | closeRelease
  /-- `Conn.Close` calls `connWG.Done` -/
  | connRelease (id : Nat)
  /-- `Conn.Close` closes `doneCh` -/
  | connSignal (id : Nat)
  /-- `Conn.Close` deletes its key under `connLock` -/
  | connRemove (id : Nat)
  /-- `connWG.Wait` has returned and `pConn` is closed -/
  | closeSocket

/-- What a step is seen to do. -/
inductive Outcome (α : Type)
  | blocked
  | moved
  /-- `getConn` has looked up the address of a packet -/
  | looked (raddr : α) (buf : List UInt8)
  /-- `getConn` returns without a connection -/
  | refused (err : Option UdpError)
  /-- the packet has created a connection -/
  | created (id : Nat) (raddr : α) (buf : List UInt8)
  /-- a connection is returned from `Accept` -/
  | accepted (id : Nat)
  /-- `Accept` fails; the error of the read loop is none of the package's own -/
  | failed (err : Option UdpError)
  /-- the key of a connection has been deleted -/
  | removed (raddr : α)
  deriving DecidableEq

section Steps

variable {α : Type}

/-- `getConn` holds `connLock`. -/
def Reader.locks : Reader α → Bool
  | .missed .. | .admitted .. | .sent .. => true
  | .idle | .found .. | .ended => false

/-- `listener.Close` holds `connLock`. -/
def Closing.locks : Closing → Bool
  | .draining | .dropping _ => true
  | .uncalled | .stopped | .signalled | .drained | .released => false

namespace Listener

/-- `connLock` is held by `getConn` or by `listener.Close`. -/
def locked (l : Listener α) : Bool := l.reader.locks || l.closing.locks

/-- How many messages one read may return: `read` returns one, `readBatch` a batch. -/
def fits (l : Listener α) (msgs : List (α × List UInt8)) : Bool :=
  if 1 < l.readBatchSize then msgs.length ≤ l.readBatchSize.toNat else msgs.length = 1

/-- The packet passes `acceptFilter`. -/
def passes (l : Listener α) (buf : List UInt8) : Bool :=
  match l.acceptFilter with
  | none => true
  | some f => f buf

/-- Change the connection `id`. -/
def modify (l : Listener α) (id : Nat) (f : Conn α → Conn α) : Listener α :=
  { l with heap := l.heap.modify id f }

/-- Move the connection `id` to a phase. -/
def advance (l : Listener α) (id : Nat) (p : Phase) : Listener α :=
  l.modify id fun c => { c with phase := p }

/-- The phase of a connection. -/
def phase (l : Listener α) (id : Nat) : Option Phase := l.heap[id]?.map Conn.phase

/-- A step that cannot be taken. -/
def blocked (l : Listener α) : Option (Listener α × Outcome α) := some (l, .blocked)

/-- The read loop reads. -/
def receive (l : Listener α) (msgs : List (α × List UInt8)) : Option (Listener α × Outcome α) :=
  match l.reader, l.batch with
  | .idle, [] =>
    if !l.pConnClosed && l.fits msgs then some ({ l with batch := msgs }, .moved) else l.blocked
  | _, _ => l.blocked

/-- A read fails and the read loop ends. -/
def readError (l : Listener α) : Option (Listener α × Outcome α) :=
  match l.reader, l.batch with
  | .idle, [] => some ({ l with reader := .ended, readDone := true }, .moved)
  | _, _ => l.blocked

/-- `getConn` takes `connLock` and looks the address up. -/
def lookup [NetAddr α] (l : Listener α) : Option (Listener α × Outcome α) :=
  match l.reader, l.batch with
  | .idle, (raddr, buf) :: batch =>
    if l.locked then l.blocked
    else
      match l.conns (NetAddr.string raddr) with
      | some id => some ({ l with batch, reader := .found id buf }, .looked raddr buf)
      | none => some ({ l with batch, reader := .missed raddr buf }, .looked raddr buf)
  | _, _ => l.blocked

/-- `getConn` looks at `accepting` and asks `acceptFilter`. -/
def check (l : Listener α) : Option (Listener α × Outcome α) :=
  match l.reader with
  | .missed raddr buf =>
    if !l.accepting then some ({ l with reader := .idle }, .refused (some .closedListener))
    else if !l.passes buf then some ({ l with reader := .idle }, .refused none)
    else some ({ l with reader := .admitted raddr buf }, .moved)
  | _ => l.blocked

/-- `getConn` makes a connection and sends it to `acceptCh`, unless that is full. -/
def send (l : Listener α) : Option (Listener α × Outcome α) :=
  match l.reader with
  | .admitted raddr buf =>
    if l.acceptCh.length < l.backlog then
      some ({ l with
        heap := l.heap ++ [newConn raddr]
        acceptCh := l.acceptCh ++ [l.heap.length]
        reader := .sent raddr l.heap.length buf }, .created l.heap.length raddr buf)
    else some ({ l with reader := .idle }, .refused (some .listenQueueExceeded))
  | _ => l.blocked

/-- `getConn` puts the new connection into `conns`. -/
def register [NetAddr α] (l : Listener α) : Option (Listener α × Outcome α) :=
  match l.reader with
  | .sent raddr id buf =>
    some ({ l with
      conns := Function.update l.conns (NetAddr.string raddr) (some id)
      reader := .found id buf }, .moved)
  | _ => l.blocked

/-- The packet is written to the buffer of its connection. -/
def write (l : Listener α) : Option (Listener α × Outcome α) :=
  match l.reader with
  | .found id buf =>
    some ({ l.modify id fun c => { c with writes := c.writes ++ [buf] } with reader := .idle },
      .moved)
  | _ => l.blocked

/-- `Accept` receives a connection. -/
def acceptConn (l : Listener α) : Option (Listener α × Outcome α) :=
  match l.acceptCh with
  | id :: rest => some ({ l.advance id .taken with acceptCh := rest }, .moved)
  | [] => l.blocked

/-- `Accept` receives from `readDoneCh`. -/
def acceptReadDone (l : Listener α) : Option (Listener α × Outcome α) :=
  if l.readDone then some (l, .failed none) else l.blocked

/-- `Accept` receives from `doneCh`. -/
def acceptDone (l : Listener α) : Option (Listener α × Outcome α) :=
  if l.doneClosed then some (l, .failed (some .closedListener)) else l.blocked

/-- `Accept` adds to `connWG` and returns the connection. -/
def acceptReturn (l : Listener α) (id : Nat) : Option (Listener α × Outcome α) :=
  if l.phase id = some .taken then
    some ({ l.advance id .accepted with connWG := l.connWG.add }, .accepted id)
  else l.blocked

/-- `listener.Close` stops accepting. -/
def closeStop (l : Listener α) : Option (Listener α × Outcome α) :=
  if l.closing = .uncalled then some ({ l with accepting := false, closing := .stopped }, .moved)
  else l.blocked

/-- `listener.Close` closes `doneCh`. -/
def closeSignal (l : Listener α) : Option (Listener α × Outcome α) :=
  if l.closing = .stopped then
    if l.doneClosed then none
    else some ({ l with doneClosed := true, closing := .signalled }, .moved)
  else l.blocked

/-- `listener.Close` takes `connLock`. -/
def closeLock (l : Listener α) : Option (Listener α × Outcome α) :=
  if l.closing = .signalled ∧ !l.locked then some ({ l with closing := .draining }, .moved)
  else l.blocked

/-- `listener.Close` receives from `acceptCh`, or leaves its loop. -/
def closeSelect (l : Listener α) : Option (Listener α × Outcome α) :=
  if l.closing = .draining then
    match l.acceptCh with
    | id :: rest =>
      some ({ l.advance id .dropping with acceptCh := rest, closing := .dropping id }, .moved)
    | [] => some ({ l with closing := .drained }, .moved)
  else l.blocked

/-- `delete(conns, c.rAddr.String())`. -/
def remove [NetAddr α] (l : Listener α) (id : Nat) (c : Conn α) : Listener α :=
  { l.advance id .removed with conns := Function.update l.conns (NetAddr.string c.rAddr) none }

/-- `close(c.doneCh)`, which panics on a closed channel. -/
def signal (l : Listener α) (id : Nat) (c : Conn α) : Option (Listener α) :=
  if c.doneClosed then none else some (l.modify id fun c => { c with doneClosed := true })

/-- `listener.Close` closes a connection of the backlog and deletes its key. -/
def closeDrop [NetAddr α] (l : Listener α) : Option (Listener α × Outcome α) :=
  match l.closing with
  | .dropping id => do
    let c ← l.heap[id]?
    let l' ← l.signal id c
    return ({ l'.remove id c with closing := .draining }, .removed c.rAddr)
  | _ => l.blocked

/-- `listener.Close` calls `connWG.Done`. -/
def closeRelease (l : Listener α) : Option (Listener α × Outcome α) :=
  if l.closing = .drained then do
    let wg ← l.connWG.done
    return ({ l with connWG := wg, closing := .released }, .moved)
  else l.blocked

/-- `Conn.Close` calls `connWG.Done`. -/
def connRelease (l : Listener α) (id : Nat) : Option (Listener α × Outcome α) :=
  if l.phase id = some .accepted then do
    let wg ← l.connWG.done
    return ({ l.advance id .released with connWG := wg }, .moved)
  else l.blocked

/-- `Conn.Close` closes its `doneCh`. -/
def connSignal (l : Listener α) (id : Nat) : Option (Listener α × Outcome α) :=
  match l.heap[id]? with
  | some c =>
    if c.phase = .released then do
      let l' ← l.signal id c
      return (l'.advance id .signalled, .moved)
    else l.blocked
  | none => l.blocked

/-- `Conn.Close` takes `connLock` and deletes its key. -/
def connRemove [NetAddr α] (l : Listener α) (id : Nat) : Option (Listener α × Outcome α) :=
  match l.heap[id]? with
  | some c =>
    if c.phase = .signalled ∧ !l.locked then some (l.remove id c, .removed c.rAddr)
    else l.blocked
  | none => l.blocked

/-- The goroutine of `Listen` closes `pConn`. -/
def closeSocket (l : Listener α) : Option (Listener α × Outcome α) :=
  if l.connWG.released then some ({ l with pConnClosed := true }, .moved) else l.blocked

/-- One step of one goroutine. -/
def step [NetAddr α] (l : Listener α) : Event α → Option (Listener α × Outcome α)
  | .receive msgs => l.receive msgs
  | .readError => l.readError
  | .lookup => l.lookup
  | .check => l.check
  | .send => l.send
  | .register => l.register
  | .write => l.write
  | .acceptConn => l.acceptConn
  | .acceptReadDone => l.acceptReadDone
  | .acceptDone => l.acceptDone
  | .acceptReturn id => l.acceptReturn id
  | .closeStop => l.closeStop
  | .closeSignal => l.closeSignal
  | .closeLock => l.closeLock
  | .closeSelect => l.closeSelect
  | .closeDrop => l.closeDrop
  | .closeRelease => l.closeRelease
  | .connRelease id => l.connRelease id
  | .connSignal id => l.connSignal id
  | .connRemove id => l.connRemove id
  | .closeSocket => l.closeSocket

end Listener

end Steps

end PionTransport.Udp
