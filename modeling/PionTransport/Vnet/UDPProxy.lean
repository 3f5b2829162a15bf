import PionTransport.Vnet.Host

/-!
# Proxies between the virtual network and real servers

An embedding of `UDPProxy` and `aUDPProxyWorker`. A step is one action of one goroutine;
one that its goroutine cannot take yet is blocked and changes nothing. A worker has a
socket of the virtual network with the address of a server, one goroutine that reads
from it, and for each client whose datagrams it reads a real socket, with a goroutine
that reads from that one. What the operating system answers (whether a socket could be
dialled, whether a read or a write on a real socket fails) is part of a step. A closed
real socket fails every read and write. `sync.Map` is keyed by the text of an address, so
by `sameAddr`. No step panics.
-/

namespace PionTransport.Vnet.Proxies

open Sockets Hosts

/-- The buffers that the goroutines read into. -/
def bufSize : Nat := 1500

/-- Where the goroutine that reads from a real socket stands. -/
inductive RelayAt
  | reading
  /-- before `vnetSocket.WriteTo` -/
  | writing (bytes : List UInt8)
  | returned
  deriving DecidableEq, Repr

/-- A real socket that was dialled for a client. -/
structure Endpoint where
  client : UDPAddr
  closed : Bool := false
  /-- the packets of the server that the socket holds -/
  inbox : List (List UInt8) := []
  relay : RelayAt := .reading
  /-- every packet of the server that the socket took in -/
  served : List (List UInt8) := []
  /-- what the worker wrote to the socket -/
  sent : List (List UInt8) := []
  /-- what `Deliver` wrote to the socket -/
  direct : List (List UInt8) := []
  /-- what was written back to the client -/
  replied : List (List UInt8) := []
  deriving DecidableEq, Repr

/-- Where the goroutine that reads from the virtual network stands. -/
inductive MainAt
  /-- `worker.Proxy` has not returned yet -/
  | starting
  | reading
  /-- before `findEndpointBy` -/
  | finding (addr : UDPAddr) (bytes : List UInt8)
  /-- before `realSocket.Write` on some endpoint -/
  | writing (k : Nat) (addr : UDPAddr) (bytes : List UInt8)
  /-- it has returned, with what it could not write, or was never started -/
  | ended (unsent : List (UDPAddr × List UInt8))
  deriving DecidableEq, Repr

/-- An `aUDPProxyWorker`, with its socket in the virtual network. -/
structure Worker where
  server : UDPAddr
  main : MainAt := .starting
  /-- the socket in the virtual network is open -/
  listening : Bool := false
  /-- the chunks that it holds -/
  inbox : List Datagram := []
  cancelled : Bool := false
  endpoints : List Endpoint := []
  /-- the chunks that the socket took in -/
  accepted : List Datagram := []
  /-- what was read and is not dropped for being empty -/
  received : List (UDPAddr × List UInt8) := []
  /-- what was dropped since no real socket could be dialled -/
  dropped : List (UDPAddr × List UInt8) := []
  /-- what was written to clients -/
  replies : List (UDPAddr × List UInt8) := []
  deriving DecidableEq, Repr

/-- The steps of a worker's goroutines and of those around it. -/
inductive WorkerEvent
  /-- `worker.Proxy` makes the socket and starts the goroutine, or fails -/
  | start (ok : Bool)
  /-- a chunk comes to the socket in the virtual network -/
  | arrive (d : Datagram)
  /-- `vnetSocket.ReadFrom` returns -/
  | read
  /-- `findEndpointBy` returns; whether a socket can be dialled -/
  | find (dialed : Bool)
  /-- `realSocket.Write` returns -/
  | write (ok : Bool)
  /-- a packet of the server comes to a real socket -/
  | serve (k : Nat) (packet : List UInt8)
  /-- `realSocket.ReadFrom` returns -/
  | receive (k : Nat) (ok : Bool)
  /-- `vnetSocket.WriteTo` returns -/
  | reply (k : Nat) (ok : Bool)
  /-- `Deliver` on the worker -/
  | deliver (addr : UDPAddr) (b : List UInt8) (ok : Bool)
  /-- the first part of `Close` -/
  | cancel
  /-- a goroutine closes the socket in the virtual network -/
  | closeVnet
  /-- a goroutine closes a real socket -/
  | closeReal (k : Nat)
  /-- `wg.Wait` in `Close` returns -/
  | wait
  deriving DecidableEq, Repr

/-- What is done by `UDPProxy` on the workers of its map. -/
def WorkerEvent.fromProxy : WorkerEvent → Bool
  | deliver .. | cancel | wait => true
  | _ => false

/-- What a step does or returns. -/
inductive Outcome
  | blocked
  | moved
  /-- a goroutine whose real socket is closed goes on -/
  | draining
  | delivered (n : Nat)
  | failed
  deriving DecidableEq, Repr

/-- `endpoints.Load`. -/
def Worker.load (w : Worker) (addr : UDPAddr) : Option Nat :=
  w.endpoints.findIdx? fun ep => sameAddr ep.client addr

namespace Worker

/-- Change an endpoint. -/
def setEndpoint (w : Worker) (k : Nat) (f : Endpoint → Endpoint) : Worker :=
  { w with endpoints := w.endpoints.modify k f }

/-- `aUDPProxyWorker.Proxy`, up to the start of the goroutine. -/
def start (w : Worker) (ok : Bool) : Worker × Outcome :=
  if w.main = .starting then
    if ok then ({ w with main := .reading, listening := true }, .moved)
    else ({ w with main := .ended [] }, .failed)
  else (w, .blocked)

/-- `UDPConn.onInboundChunk` of the socket in the virtual network. -/
def arrive (w : Worker) (d : Datagram) : Worker × Outcome :=
  if w.listening && decide (w.inbox.length < maxReadQueueSize) then
    ({ w with inbox := w.inbox ++ [d], accepted := w.accepted ++ [d] }, .moved)
  else (w, .blocked)

/-- The loop of the worker, from `ReadFrom` to `findEndpointBy`. -/
def read (w : Worker) : Worker × Outcome :=
  match w.main, w.inbox with
  | .reading, d :: rest =>
    match d.copied bufSize with
    | .ok bytes addr false =>
      if bytes = [] then ({ w with inbox := rest }, .moved)
      else ({ w with
        inbox := rest, main := .finding addr bytes, received := w.received ++ [(addr, bytes)] },
        .moved)
    -- `io.ErrShortBuffer` is an error like any other
    | _ => ({ w with inbox := rest, main := .ended [] }, .moved)
  | .reading, [] => if w.listening then (w, .blocked) else ({ w with main := .ended [] }, .moved)
  | _, _ => (w, .blocked)

/-- `findEndpointBy`. -/
def find (w : Worker) (dialed : Bool) : Worker × Outcome :=
  match w.main with
  | .finding addr bytes =>
    match w.load addr with
    | some k => ({ w with main := .writing k addr bytes }, .moved)
    | none =>
      if dialed then
        ({ w with
          endpoints := w.endpoints ++ [{ client := addr }],
          main := .writing w.endpoints.length addr bytes }, .moved)
      else ({ w with main := .reading, dropped := w.dropped ++ [(addr, bytes)] }, .moved)
  | _ => (w, .blocked)

/-- The end of the loop of the worker. -/
def write (w : Worker) (ok : Bool) : Worker × Outcome :=
  match w.main with
  | .writing k addr bytes =>
    match w.endpoints[k]? with
    | none => (w, .blocked)
    | some ep =>
      if ok && !ep.closed then
        ({ w.setEndpoint k (fun ep => { ep with sent := ep.sent ++ [bytes] }) with
          main := .reading }, .moved)
      else ({ w with main := .ended [(addr, bytes)] }, .moved)
  | _ => (w, .blocked)

/-- A real socket takes in a packet of its server. -/
def serve (w : Worker) (k : Nat) (packet : List UInt8) : Worker × Outcome :=
  match w.endpoints[k]? with
  | some ep =>
    if ep.closed then (w, .blocked)
    else (w.setEndpoint k fun ep =>
      { ep with inbox := ep.inbox ++ [packet], served := ep.served ++ [packet] }, .moved)
  | none => (w, .blocked)

/-- Set where the goroutine of an endpoint stands. -/
def setRelay (w : Worker) (k : Nat) (relay : RelayAt) : Worker :=
  w.setEndpoint k fun ep => { ep with relay := relay }

/-- The loop of an endpoint, up to `vnetSocket.WriteTo`. The kernel cuts off what does not fit into
the buffer. -/
def receive (w : Worker) (k : Nat) (ok : Bool) : Worker × Outcome :=
  match w.endpoints[k]? with
  | some ep =>
    if ep.relay = .reading then
      if ep.closed then (w.setRelay k .returned, .draining)
      else if ok then
        match ep.inbox with
        | [] => (w, .blocked)
        | packet :: rest =>
          let bytes := packet.take bufSize
          (w.setEndpoint k fun ep =>
            { ep with inbox := rest, relay := if bytes = [] then .reading else .writing bytes },
            .moved)
      else (w.setRelay k .returned, .moved)
    else (w, .blocked)
  | none => (w, .blocked)

/-- The end of the loop of an endpoint. -/
def reply (w : Worker) (k : Nat) (ok : Bool) : Worker × Outcome :=
  match w.endpoints[k]? with
  | some ep =>
    match ep.relay with
    | .writing bytes =>
      let o := if ep.closed then .draining else .moved
      if ok then
        ({ w.setEndpoint k (fun ep =>
            { ep with relay := .reading, replied := ep.replied ++ [bytes] }) with
          replies := w.replies ++ [(ep.client, bytes)] }, o)
      else (w.setRelay k .returned, o)
    | _ => (w, .blocked)
  | none => (w, .blocked)

/-- `aUDPProxyWorker.Deliver`. -/
def deliver (w : Worker) (addr : UDPAddr) (b : List UInt8) (ok : Bool) : Worker × Outcome :=
  match w.load addr with
  | none => (w, .delivered 0)
  | some k =>
    if ok && w.endpoints[k]?.any (!·.closed) then
      (w.setEndpoint k fun ep => { ep with direct := ep.direct ++ [b] }, .delivered b.length)
    else (w, .failed)

/-- A real socket is closed, and what it holds is lost. -/
def closeReal (w : Worker) (k : Nat) : Worker × Outcome :=
  match w.endpoints[k]? with
  | some ep =>
    if w.cancelled && !ep.closed then
      (w.setEndpoint k fun ep => { ep with closed := true, inbox := [] }, .moved)
    else (w, .blocked)
  | none => (w, .blocked)

/-- The counter of the wait group is zero. -/
def idle (w : Worker) : Bool :=
  (match w.main with
    | .starting | .ended _ => true
    | _ => false) &&
  w.endpoints.all fun ep => ep.relay = .returned

/-- What the goroutines do at a step. -/
def move (w : Worker) : WorkerEvent → Worker × Outcome
  | .start ok => w.start ok
  | .arrive d => w.arrive d
  | .read => w.read
  | .find dialed => w.find dialed
  | .write ok => w.write ok
  | .serve k packet => w.serve k packet
  | .receive k ok => w.receive k ok
  | .reply k ok => w.reply k ok
  | .deliver addr b ok => w.deliver addr b ok
  | .cancel => ({ w with cancelled := true }, .moved)
  | .closeVnet =>
    if w.cancelled && w.listening then ({ w with listening := false }, .moved) else (w, .blocked)
  | .closeReal k => w.closeReal k
  | .wait => if w.cancelled && w.idle then (w, .moved) else (w, .blocked)

/-- A step of a worker. -/
def step (w : Worker) (e : WorkerEvent) : Option (Worker × Outcome) := some (w.move e)

end Worker

/-- What a step of a worker can do. -/
inductive Transition (w : Worker) : WorkerEvent → Outcome → Worker → Prop
  | blocked {e} : Transition w e .blocked w
  | started (hmain : w.main = .starting) :
      Transition w (.start true) .moved { w with main := .reading, listening := true }
  | unstarted (hmain : w.main = .starting) :
      Transition w (.start false) .failed { w with main := .ended [] }
  | arrived {d} (hlistening : w.listening = true) (hroom : w.inbox.length < maxReadQueueSize) :
      Transition w (.arrive d) .moved
        { w with inbox := w.inbox ++ [d], accepted := w.accepted ++ [d] }
  | readEmpty {d rest} (hmain : w.main = .reading) (hinbox : w.inbox = d :: rest)
      (hdata : d.data = []) : Transition w .read .moved { w with inbox := rest }
  | readSome {d rest} (hmain : w.main = .reading) (hinbox : w.inbox = d :: rest)
      (hdata : d.data ≠ []) (hfits : d.data.length ≤ bufSize) :
      Transition w .read .moved { w with
        inbox := rest, main := .finding d.src d.data, received := w.received ++ [(d.src, d.data)] }
  | readShort {d rest} (hmain : w.main = .reading) (hinbox : w.inbox = d :: rest)
      (hlong : bufSize < d.data.length) :
      Transition w .read .moved { w with inbox := rest, main := .ended [] }
  | readClosed (hmain : w.main = .reading) (hinbox : w.inbox = [])
      (hlistening : w.listening = false) : Transition w .read .moved { w with main := .ended [] }
  | found {dialed addr bytes k} (hmain : w.main = .finding addr bytes)
      (hload : w.load addr = some k) :
      Transition w (.find dialed) .moved { w with main := .writing k addr bytes }
  | dialed {addr bytes} (hmain : w.main = .finding addr bytes) (hload : w.load addr = none) :
      Transition w (.find true) .moved { w with
        endpoints := w.endpoints ++ [{ client := addr }],
        main := .writing w.endpoints.length addr bytes }
  | undialed {addr bytes} (hmain : w.main = .finding addr bytes) (hload : w.load addr = none) :
      Transition w (.find false) .moved
        { w with main := .reading, dropped := w.dropped ++ [(addr, bytes)] }
  | written {k addr bytes ep} (hmain : w.main = .writing k addr bytes)
      (hep : w.endpoints[k]? = some ep) (hopen : ep.closed = false) :
      Transition w (.write true) .moved
        { w.setEndpoint k (fun ep => { ep with sent := ep.sent ++ [bytes] }) with
          main := .reading }
  | unwritten {ok k addr bytes} (hmain : w.main = .writing k addr bytes) :
      Transition w (.write ok) .moved { w with main := .ended [(addr, bytes)] }
  | served {k packet ep} (hep : w.endpoints[k]? = some ep) (hopen : ep.closed = false) :
      Transition w (.serve k packet) .moved (w.setEndpoint k fun ep =>
        { ep with inbox := ep.inbox ++ [packet], served := ep.served ++ [packet] })
  | readFailed {k ok ep} (hep : w.endpoints[k]? = some ep) (hrelay : ep.relay = .reading) :
      Transition w (.receive k ok) (if ep.closed then .draining else .moved)
        (w.setRelay k .returned)
  | received {k ep packet rest} (hep : w.endpoints[k]? = some ep) (hrelay : ep.relay = .reading)
      (hopen : ep.closed = false) (hinbox : ep.inbox = packet :: rest) :
      Transition w (.receive k true) .moved (w.setEndpoint k fun ep =>
        { ep with
          inbox := rest,
          relay := if packet.take bufSize = [] then .reading
            else .writing (packet.take bufSize) })
  | replied {k ep bytes} (hep : w.endpoints[k]? = some ep) (hrelay : ep.relay = .writing bytes) :
      Transition w (.reply k true) (if ep.closed then .draining else .moved)
        { w.setEndpoint k (fun ep =>
            { ep with relay := .reading, replied := ep.replied ++ [bytes] }) with
          replies := w.replies ++ [(ep.client, bytes)] }
  | unreplied {k ep bytes} (hep : w.endpoints[k]? = some ep)
      (hrelay : ep.relay = .writing bytes) :
      Transition w (.reply k false) (if ep.closed then .draining else .moved)
        (w.setRelay k .returned)
  | unknown {addr b ok} (hload : w.load addr = none) :
      Transition w (.deliver addr b ok) (.delivered 0) w
  | delivered {addr b k} (hload : w.load addr = some k) :
      Transition w (.deliver addr b true) (.delivered b.length)
        (w.setEndpoint k fun ep => { ep with direct := ep.direct ++ [b] })
  | undelivered {addr b ok} : Transition w (.deliver addr b ok) .failed w
  | cancelled : Transition w .cancel .moved { w with cancelled := true }
  | vnetClosed (hcancelled : w.cancelled = true) (hlistening : w.listening = true) :
      Transition w .closeVnet .moved { w with listening := false }
  | realClosed {k ep} (hcancelled : w.cancelled = true) (hep : w.endpoints[k]? = some ep)
      (hopen : ep.closed = false) :
      Transition w (.closeReal k) .moved
        (w.setEndpoint k fun ep => { ep with closed := true, inbox := [] })
  | waited (hcancelled : w.cancelled = true) (hidle : w.idle = true) : Transition w .wait .moved w

section Moves

variable (w : Worker)

/-- What reading a datagram can do. -/
theorem read_transition : Transition w .read w.read.2 w.read.1 := by
  unfold Worker.read
  split
  next d rest hmain hinbox =>
    simp only [Datagram.copied]
    by_cases hlong : bufSize < d.data.length
    · simp only [decide_eq_true hlong]
      exact .readShort hmain hinbox hlong
    · have hfits : d.data.length ≤ bufSize := Nat.le_of_not_lt hlong
      simp only [decide_eq_false hlong, List.take_of_length_le hfits]
      split
      next hdata => exact .readEmpty hmain hinbox hdata
      next hdata => exact .readSome hmain hinbox hdata hfits
  next hmain hinbox =>
    split
    next => exact .blocked
    next hlistening => exact .readClosed hmain hinbox (Bool.eq_false_iff.mpr hlistening)
  next => exact .blocked

/-- What finding or making an endpoint can do. -/
theorem find_transition (dialed : Bool) :
    Transition w (.find dialed) (w.find dialed).2 (w.find dialed).1 := by
  unfold Worker.find
  split
  next addr bytes hmain =>
    split
    next k hload => exact .found hmain hload
    next hload =>
      cases dialed with
      | true => exact .dialed hmain hload
      | false => exact .undialed hmain hload
  next => exact .blocked

/-- What writing to the real server can do. -/
theorem write_transition (ok : Bool) :
    Transition w (.write ok) (w.write ok).2 (w.write ok).1 := by
  unfold Worker.write
  split
  next k addr bytes hmain =>
    split
    next => exact .blocked
    next ep hep =>
      split
      next h =>
        simp only [Bool.and_eq_true, Bool.not_eq_true'] at h
        rw [h.1]
        exact .written hmain hep h.2
      next => exact .unwritten hmain
  next => exact .blocked

/-- What the goroutine of an endpoint can do when it reads. -/
theorem receive_transition (k : Nat) (ok : Bool) :
    Transition w (.receive k ok) (w.receive k ok).2 (w.receive k ok).1 := by
  unfold Worker.receive
  split
  next ep hep =>
    split
    next hrelay =>
      have hfailed : Transition w (.receive k ok) (if ep.closed then .draining else .moved)
          (w.setRelay k .returned) := .readFailed hep hrelay
      split
      next hclosed =>
        rw [if_pos hclosed] at hfailed
        exact hfailed
      next hopen =>
        rw [if_neg hopen] at hfailed
        cases ok with
        | true =>
          simp only [if_true]
          split
          next => exact .blocked
          next packet rest hinbox =>
            exact .received hep hrelay (Bool.eq_false_iff.mpr hopen) hinbox
        | false => exact hfailed
    next => exact .blocked
  next => exact .blocked

/-- What it can do when it writes to the client. -/
theorem reply_transition (k : Nat) (ok : Bool) :
    Transition w (.reply k ok) (w.reply k ok).2 (w.reply k ok).1 := by
  unfold Worker.reply
  split
  next ep hep =>
    split
    next bytes hrelay =>
      cases ok with
      | true => exact .replied hep hrelay
      | false => exact .unreplied hep hrelay
    next => exact .blocked
  next => exact .blocked

/-- What `Deliver` can do. -/
theorem deliver_transition (addr : UDPAddr) (b : List UInt8) (ok : Bool) :
    Transition w (.deliver addr b ok) (w.deliver addr b ok).2 (w.deliver addr b ok).1 := by
  unfold Worker.deliver
  split
  next hload => exact .unknown hload
  next k hload =>
    split
    next h =>
      rw [Bool.and_eq_true] at h
      rw [h.1]
      exact .delivered hload
    next => exact .undelivered

/-- A move of the worker is one of the listed ones. -/
theorem move_transition (e : WorkerEvent) : Transition w e (w.move e).2 (w.move e).1 := by
  cases e with
  | start ok =>
    simp only [Worker.move, Worker.start]
    split
    next hmain =>
      cases ok with
      | true => exact .started hmain
      | false => exact .unstarted hmain
    next => exact .blocked
  | arrive d =>
    simp only [Worker.move, Worker.arrive]
    split
    next h =>
      simp only [Bool.and_eq_true, decide_eq_true_eq] at h
      exact .arrived h.1 h.2
    next => exact .blocked
  | read => exact read_transition w
  | find dialed => exact find_transition w dialed
  | write ok => exact write_transition w ok
  | serve k packet =>
    simp only [Worker.move, Worker.serve]
    split
    next ep hep =>
      split
      next => exact .blocked
      next hopen => exact .served hep (Bool.eq_false_iff.mpr hopen)
    next => exact .blocked
  | receive k ok => exact receive_transition w k ok
  | reply k ok => exact reply_transition w k ok
  | deliver addr b ok => exact deliver_transition w addr b ok
  | cancel => exact .cancelled
  | closeVnet =>
    simp only [Worker.move]
    split
    next h =>
      rw [Bool.and_eq_true] at h
      exact .vnetClosed h.1 h.2
    next => exact .blocked
  | closeReal k =>
    simp only [Worker.move, Worker.closeReal]
    split
    next ep hep =>
      split
      next h =>
        simp only [Bool.and_eq_true, Bool.not_eq_true'] at h
        exact .realClosed h.1 hep h.2
      next => exact .blocked
    next => exact .blocked
  | wait =>
    simp only [Worker.move]
    split
    next h =>
      rw [Bool.and_eq_true] at h
      exact .waited h.1 h.2
    next => exact .blocked

/-- A step of the worker is one of the listed ones. -/
theorem step_transition {w w' : Worker} {e : WorkerEvent} {o : Outcome}
    (h : w.step e = some (w', o)) : Transition w e o w' := by
  obtain ⟨rfl, rfl⟩ := Prod.mk.inj (Option.some.inj h)
  exact move_transition w e

end Moves

/-- A call of `UDPProxy.Proxy` that has not found a worker. -/
structure Call where
  server : UDPAddr
  stored : Bool := false
  deriving DecidableEq, Repr

/-- A `UDPProxy` with its workers. -/
structure UDPProxy where
  /-- the map from servers to workers -/
  table : List (UDPAddr × Nat) := []
  workers : List Worker := []
  calls : List Call := []
  deriving DecidableEq, Repr

/-- The steps of a proxy. -/
inductive Event
  /-- `Proxy` looks for the worker of a server -/
  | load (server : UDPAddr)
  /-- a call of `Proxy` makes a worker and stores it -/
  | store (c : Nat)
  /-- a step of a worker, or a part of `UDPProxy.Close` -/
  | worker (i : Nat) (e : WorkerEvent)
  /-- `UDPProxy.Deliver` goes through the workers in some order, with what their sockets answer -/
  | deliver (order : List (Nat × Bool)) (addr : UDPAddr) (b : List UInt8)
  deriving DecidableEq, Repr

namespace UDPProxy

/-- `workers.Load`. -/
def find (p : UDPProxy) (server : UDPAddr) : Option Nat :=
  (p.table.find? fun entry => sameAddr entry.1 server).map Prod.snd

/-- `workers.Store`. -/
def put (table : List (UDPAddr × Nat)) (server : UDPAddr) (i : Nat) : List (UDPAddr × Nat) :=
  (server, i) :: table.filter fun entry => !sameAddr entry.1 server

/-- The worker is in the map. -/
def stored (p : UDPProxy) (i : Nat) : Bool := p.table.any fun entry => entry.2 == i

/-- A worker moves. -/
def moveWorker (p : UDPProxy) (i : Nat) (e : WorkerEvent) : UDPProxy × Outcome :=
  match p.workers[i]? with
  | none => (p, .blocked)
  | some w =>
    let (w', o) := w.move e
    ({ p with workers := p.workers.set i w' }, o)

/-- The loop of `UDPProxy.Deliver`, with what it would return so far. -/
def deliver (p : UDPProxy) (addr : UDPAddr) (b : List UInt8) (last : Outcome) :
    List (Nat × Bool) → UDPProxy × Outcome
  | [] => (p, last)
  | (i, ok) :: order =>
    match p.moveWorker i (.deliver addr b ok) with
    | (p', .delivered n) =>
      if n = b.length then (p', .delivered n) else p'.deliver addr b (.delivered n) order
    | (p', o) => (p', o)

/-- What a step does. -/
def move (p : UDPProxy) : Event → UDPProxy × Outcome
  | .load server =>
    match p.find server with
    | some _ => (p, .moved)
    | none => ({ p with calls := p.calls ++ [{ server := server }] }, .moved)
  | .store c =>
    match p.calls[c]? with
    | some ⟨server, false⟩ =>
      ({ table := put p.table server p.workers.length
         workers := p.workers ++ [{ server := server }]
         calls := p.calls.modify c fun call => { call with stored := true } }, .moved)
    | _ => (p, .blocked)
  | .worker i e =>
    if e.fromProxy && !p.stored i then (p, .blocked) else p.moveWorker i e
  | .deliver order addr b =>
    p.deliver addr b (.delivered 0) (order.filter fun visit => p.stored visit.1)

/-- A step of the proxy. -/
def step (p : UDPProxy) (e : Event) : Option (UDPProxy × Outcome) := some (p.move e)

/-- `UDPProxy.Close` among the steps of a run: `Range` comes to the workers of `order`, which it
cancels one after another, each when `wg.Wait` of the one before has returned. -/
inductive Closes : Option Nat → List Nat → List Event → List Outcome → Prop
  | returned {es os} : Closes none [] es os
  /-- another goroutine takes a step -/
  | other {waiting order e es o os} (hrest : Closes waiting order es os) :
      Closes waiting order (e :: es) (o :: os)
  | cancel {i order es os} (hrest : Closes (some i) order es os) :
      Closes none (i :: order) (.worker i .cancel :: es) (.moved :: os)
  | wait {i order es os} (hrest : Closes none order es os) :
      Closes (some i) order (.worker i .wait :: es) (.moved :: os)

end UDPProxy

end PionTransport.Vnet.Proxies
