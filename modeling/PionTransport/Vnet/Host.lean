import Mathlib.Logic.Function.Basic
import PionTransport.Vnet.Bindings

/-!
# Reading and writing on the sockets of a stack

An embedding of the reads and writes of `UDPConn`, of `Net.write` and of
`Net.onInboundChunk`, over the sockets of a stack. A step is one action of one
goroutine; one that its goroutine cannot take yet is blocked and changes nothing. A
write to a loopback address finds its socket in one step and enters its
`onInboundChunk` in another, since the lock of the table is released in between. The
router calls `Net.onInboundChunk`, which keeps the stack's mutex, so that no socket is
opened between its two parts, and they are one step. The timer of a socket is one
without a buffer: what it has to send is received at most once and is lost when it is
set again. The tag of a chunk is part of a call. No step panics.
-/

namespace PionTransport.Vnet.Hosts

open Sockets

/-- A UDP chunk, without what only routers look at. -/
structure Datagram where
  tag : String
  src : UDPAddr
  dst : UDPAddr
  data : List UInt8
  deriving DecidableEq, Repr

/-- The capacity of `readCh`. -/
def maxReadQueueSize : Nat := 1024

/-- `math.MaxInt64`. -/
def maxInt64 : Int := 9223372036854775807

/-- What a read can fail with. -/
inductive ReadError
  | timeout
  | useClosedNetworkConn
  deriving DecidableEq, Repr

/-- The text of an error. -/
def ReadError.string : ReadError → String
  | timeout => "i/o timeout"
  | useClosedNetworkConn => "use of closed network connection"

/-- The `net.OpError` of a read. -/
structure OpError where
  op : String
  net : String
  addr : UDPAddr
  err : ReadError
  deriving DecidableEq, Repr

/-- What `ReadFrom` returns: the bytes and the source of a chunk and whether the buffer was too
short for it, or an error without an address. -/
inductive ReadResult
  | ok (bytes : List UInt8) (addr : UDPAddr) (short : Bool)
  | failed (err : OpError)
  deriving DecidableEq, Repr

/-- The errors of `ReadFromUDP`. -/
inductive UDPReadError
  | shortBuffer
  | notUDPAddress
  deriving DecidableEq, Repr

/-- `ReadFromUDP`, which looks at the address first: a read that failed has none. -/
def ReadResult.readFromUDP : ReadResult → Int × Option UDPAddr × Option UDPReadError
  | ok bytes addr short => (bytes.length, some addr, if short then some .shortBuffer else none)
  | failed _ => (-1, none, some .notUDPAddress)

/-- What a write can fail with. -/
inductive WriteError
  | noRemAddr
  | addrNotUDPAddr
  | locAddr
  | noRouterLinked
  deriving DecidableEq, Repr

/-- The text of an error. -/
def WriteError.string : WriteError → String
  | noRemAddr => "no remAddr defined"
  | addrNotUDPAddr => "addr is not a net.UDPAddr"
  | locAddr => "something went wrong with locAddr"
  | noRouterLinked => "no router linked"

/-- The channel and the timer of a `UDPConn`. -/
structure Mailbox where
  readCh : List Datagram := []
  /-- when the timer sends, if it still has to -/
  readTimer : Option Int := some maxInt64
  /-- the chunks that were put into the channel -/
  accepted : List Datagram := []
  /-- the chunks that were received from it, with the calls that received them -/
  taken : List (Nat × Datagram) := []
  deriving DecidableEq, Repr

/-- A call of `ReadFrom` on a connection with a buffer of some size. -/
structure Reader where
  conn : Nat
  size : Nat
  result : Option ReadResult := none
  deriving DecidableEq, Repr

/-- A call of `Net.write` that has found the connection of a loopback address. -/
structure Writer where
  conn : Nat
  chunk : Datagram
  returned : Bool := false
  deriving DecidableEq, Repr

/-- A stack with its calls and the clock. -/
structure Host where
  net : Net
  /-- whether `setRouter` was called -/
  linked : Bool := false
  now : Int := 0
  boxes : Nat → Mailbox := fun _ => {}
  readers : List Reader := []
  writers : List Writer := []
  /-- the chunks pushed to the router -/
  sent : List Datagram := []

/-- The steps of the goroutines. -/
inductive Event
  /-- time passes -/
  | elapse (d : Nat)
  /-- the stack is linked to its router -/
  | setRouter
  /-- a socket is opened or closed, or an address comes or goes -/
  | call (e : Sockets.Event)
  /-- `SetReadDeadline`; `none` is the zero time -/
  | setReadDeadline (conn : Nat) (t : Option Int)
  /-- `ReadFrom` is called -/
  | read (conn size : Nat)
  /-- a read receives from the channel -/
  | receive (r : Nat)
  /-- a read receives from the timer -/
  | timeout (r : Nat)
  /-- `Write` is called -/
  | write (conn : Nat) (tag : String) (payload : List UInt8)
  /-- `WriteTo` is called; `none` is an address that is not one of UDP -/
  | writeTo (conn : Nat) (tag : String) (payload : List UInt8) (addr : Option UDPAddr)
  /-- a write enters the `onInboundChunk` of the connection it found -/
  | deliver (w : Nat)
  /-- the router calls `onInboundChunk` -/
  | inbound (chunk : Datagram)
  deriving DecidableEq, Repr

/-- What a step does or returns. -/
inductive Outcome
  | blocked
  | moved
  | socket (o : Sockets.Outcome)
  | wrote (n : Nat)
  | failed (err : WriteError)
  deriving DecidableEq, Repr

/-- Addresses with the same text. -/
def sameAddr (a b : UDPAddr) : Bool := a.ip.equal b.ip && a.port == b.port

/-- A read on the connection returns the chunk; from any other source it is discarded. -/
def admits (c : UDPConn) (d : Datagram) : Bool := c.remAddr.all fun rem => sameAddr d.src rem

/-- What a read with a buffer of some size makes of a chunk. -/
def Datagram.copied (d : Datagram) (size : Nat) : ReadResult :=
  .ok (d.data.take size) d.src (decide (size < d.data.length))

/-- The error of a read on a connection. -/
def readError (c : UDPConn) (err : ReadError) : ReadResult :=
  .failed ⟨"read", "udp", c.locAddr, err⟩

namespace Host

/-- Change the channel or the timer of a connection. -/
def setBox (h : Host) (i : Nat) (b : Mailbox) : Host :=
  { h with boxes := Function.update h.boxes i b }

/-- A timer is set, or its value is received. -/
def setTimer (h : Host) (i : Nat) (timer : Option Int) : Host :=
  h.setBox i { h.boxes i with readTimer := timer }

/-- A call receives the first chunk of a channel, before the rest. -/
def taking (h : Host) (i r : Nat) (d : Datagram) (rest : List Datagram) : Host :=
  h.setBox i { h.boxes i with readCh := rest, taken := (h.boxes i).taken ++ [(r, d)] }

/-- A read returns. -/
def finish (h : Host) (r : Nat) (result : ReadResult) : Host :=
  { h with readers := h.readers.modify r fun reader => { reader with result := some result } }

/-- `UDPConn.onInboundChunk`. -/
def accept (h : Host) (i : Nat) (d : Datagram) : Host :=
  if i ∈ h.net.closed then h
  else if (h.boxes i).readCh.length < maxReadQueueSize then
    h.setBox i { h.boxes i with
      readCh := (h.boxes i).readCh ++ [d], accepted := (h.boxes i).accepted ++ [d] }
  else h

/-- When a timer that is set for a deadline sends. -/
def due (h : Host) : Option Int → Int
  | none => maxInt64
  | some t => min maxInt64 (max h.now t)

/-- `SetReadDeadline`, which sets the timer anew. -/
def setReadDeadline (h : Host) (i : Nat) (t : Option Int) : Host × Outcome :=
  match h.net.conns[i]? with
  | none => (h, .blocked)
  | some _ => (h.setTimer i (some (h.due t)), .moved)

/-- `ReadFrom` up to its `select`. -/
def read (h : Host) (i size : Nat) : Host × Outcome :=
  match h.net.conns[i]? with
  | none => (h, .blocked)
  | some _ => ({ h with readers := h.readers ++ [{ conn := i, size := size }] }, .moved)

/-- A read receives from `readCh`, which may be closed. -/
def receive (h : Host) (r : Nat) : Host × Outcome :=
  match h.readers[r]? with
  | some ⟨i, size, none⟩ =>
    match h.net.conns[i]? with
    | none => (h, .blocked)
    | some c =>
      match (h.boxes i).readCh with
      | [] =>
        if i ∈ h.net.closed then (h.finish r (readError c .useClosedNetworkConn), .moved)
        else (h, .blocked)
      | d :: rest =>
        if admits c d then ((h.taking i r d rest).finish r (d.copied size), .moved)
        else (h.taking i r d rest, .moved)
  | _ => (h, .blocked)

/-- A read receives from `readTimer`. -/
def timeout (h : Host) (r : Nat) : Host × Outcome :=
  match h.readers[r]? with
  | some ⟨i, _, none⟩ =>
    match h.net.conns[i]?, (h.boxes i).readTimer with
    | some c, some due =>
      if due ≤ h.now then
        ((h.setTimer i none).finish r (readError c .timeout), .moved)
      else (h, .blocked)
    | _, _ => (h, .blocked)
  | _ => (h, .blocked)

/-- `Net.write`, up to the lock of the connection it finds for a loopback address. -/
def transmit (h : Host) (d : Datagram) : Host × Outcome :=
  if d.dst.ip.isLoopback then
    match h.net.findConn d.dst with
    | (net, none) => ({ h with net := net }, .wrote d.data.length)
    | (net, some c) => ({ h with net := net, writers := h.writers ++ [⟨c.id, d, false⟩] }, .moved)
  else if ¬ h.linked then (h, .failed .noRouterLinked)
  else ({ h with sent := h.sent ++ [d] }, .wrote d.data.length)

/-- `WriteTo`. It does not look at whether the connection was closed. -/
def writeTo (h : Host) (i : Nat) (tag : String) (payload : List UInt8) (addr : Option UDPAddr) :
    Host × Outcome :=
  match h.net.conns[i]? with
  | none => (h, .blocked)
  | some c =>
    match addr with
    | none => (h, .failed .addrNotUDPAddr)
    | some dst =>
      match h.net.determineSourceIP (some c.locAddr.ip) dst.ip with
      | none => (h, .failed .locAddr)
      | some srcIP => h.transmit ⟨tag, ⟨srcIP, c.locAddr.port⟩, dst, payload⟩

/-- `Write`. -/
def write (h : Host) (i : Nat) (tag : String) (payload : List UInt8) : Host × Outcome :=
  match h.net.conns[i]? with
  | none => (h, .blocked)
  | some c =>
    match c.remAddr with
    | none => (h, .failed .noRemAddr)
    | some remAddr => h.writeTo i tag payload (some remAddr)

/-- The second part of `Net.write` for a loopback address. -/
def deliver (h : Host) (w : Nat) : Host × Outcome :=
  match h.writers[w]? with
  | some ⟨i, d, false⟩ =>
    ({ h.accept i d with
      writers := h.writers.modify w fun writer => { writer with returned := true } },
      .wrote d.data.length)
  | _ => (h, .blocked)

/-- `Net.onInboundChunk`. -/
def inbound (h : Host) (d : Datagram) : Host × Outcome :=
  match h.net.findConn d.dst with
  | (net, none) => ({ h with net := net }, .moved)
  | (net, some c) => ({ h with net := net }.accept c.id d, .moved)

/-- One step. -/
def move (h : Host) : Event → Host × Outcome
  | .elapse d => ({ h with now := h.now + d }, .moved)
  | .setRouter => ({ h with linked := true }, .moved)
  | .call e => ({ h with net := (h.net.call e).1 }, .socket (h.net.call e).2)
  | .setReadDeadline i t => h.setReadDeadline i t
  | .read i size => h.read i size
  | .receive r => h.receive r
  | .timeout r => h.timeout r
  | .write i tag payload => h.write i tag payload
  | .writeTo i tag payload addr => h.writeTo i tag payload addr
  | .deliver w => h.deliver w
  | .inbound d => h.inbound d

/-- No step panics. -/
def step (h : Host) (e : Event) : Option (Host × Outcome) := some (h.move e)

/-- The chunk that a call of `WriteTo` makes. -/
def chunkTo (h : Host) (i : Nat) (tag : String) (payload : List UInt8) (dst : UDPAddr) :
    Option Datagram := do
  let c ← h.net.conns[i]?
  let srcIP ← h.net.determineSourceIP (some c.locAddr.ip) dst.ip
  return ⟨tag, ⟨srcIP, c.locAddr.port⟩, dst, payload⟩

/-- The chunk that a step makes. -/
def chunkOf (h : Host) : Event → Option Datagram
  | .write i tag payload =>
    ((h.net.conns[i]?).bind UDPConn.remAddr).bind fun dst => h.chunkTo i tag payload dst
  | .writeTo i tag payload addr => addr.bind fun dst => h.chunkTo i tag payload dst
  | _ => none

end Host

/-- What a step can do, on a stack with a valid table. -/
inductive Transition (h : Host) : Event → Host → Outcome → Prop
  | blocked {e : Event} : Transition h e h .blocked
  | elapse {d : Nat} : Transition h (.elapse d) { h with now := h.now + d } .moved
  | setRouter : Transition h .setRouter { h with linked := true } .moved
  | call {e : Sockets.Event} :
      Transition h (.call e) { h with net := (h.net.call e).1 } (.socket (h.net.call e).2)
  | setReadDeadline {i : Nat} {t : Option Int} {c : UDPConn} : h.net.conns[i]? = some c →
      Transition h (.setReadDeadline i t) (h.setTimer i (some (h.due t))) .moved
  | read {i size : Nat} {c : UDPConn} : h.net.conns[i]? = some c →
      Transition h (.read i size) { h with readers := h.readers ++ [⟨i, size, none⟩] } .moved
  | take {r i size : Nat} {c : UDPConn} {d : Datagram} {rest : List Datagram} :
      h.readers[r]? = some ⟨i, size, none⟩ → h.net.conns[i]? = some c →
      (h.boxes i).readCh = d :: rest → admits c d = true →
      Transition h (.receive r) ((h.taking i r d rest).finish r (d.copied size)) .moved
  | discard {r i size : Nat} {c : UDPConn} {d : Datagram} {rest : List Datagram} :
      h.readers[r]? = some ⟨i, size, none⟩ → h.net.conns[i]? = some c →
      (h.boxes i).readCh = d :: rest → admits c d = false →
      Transition h (.receive r) (h.taking i r d rest) .moved
  | readClosed {r i size : Nat} {c : UDPConn} :
      h.readers[r]? = some ⟨i, size, none⟩ → h.net.conns[i]? = some c →
      (h.boxes i).readCh = [] → i ∈ h.net.closed →
      Transition h (.receive r) (h.finish r (readError c .useClosedNetworkConn)) .moved
  | timeout {r i size : Nat} {c : UDPConn} {due : Int} :
      h.readers[r]? = some ⟨i, size, none⟩ → h.net.conns[i]? = some c →
      (h.boxes i).readTimer = some due → due ≤ h.now →
      Transition h (.timeout r) ((h.setTimer i none).finish r (readError c .timeout)) .moved
  | refused {e : Event} {err : WriteError} : Transition h e h (.failed err)
  | unheard {e : Event} {d : Datagram} : h.chunkOf e = some d → d.dst.ip.isLoopback = true →
      (h.net.udpConns.find d.dst).2 = none → Transition h e h (.wrote d.data.length)
  | found {e : Event} {d : Datagram} {c : UDPConn} : h.chunkOf e = some d →
      d.dst.ip.isLoopback = true → (h.net.udpConns.find d.dst).2 = some c →
      Transition h e { h with writers := h.writers ++ [⟨c.id, d, false⟩] } .moved
  | send {e : Event} {d : Datagram} : h.chunkOf e = some d → d.dst.ip.isLoopback = false →
      h.linked = true → Transition h e { h with sent := h.sent ++ [d] } (.wrote d.data.length)
  | deliver {w i : Nat} {d : Datagram} : h.writers[w]? = some ⟨i, d, false⟩ →
      Transition h (.deliver w) { h.accept i d with
        writers := h.writers.modify w fun writer => { writer with returned := true } }
        (.wrote d.data.length)
  | unclaimed {d : Datagram} : (h.net.udpConns.find d.dst).2 = none →
      Transition h (.inbound d) h .moved
  | inbound {d : Datagram} {c : UDPConn} : (h.net.udpConns.find d.dst).2 = some c →
      Transition h (.inbound d) (h.accept c.id d) .moved

section Steps

variable {h : Host} {e : Event}

/-- Sending a datagram is one of the listed moves. -/
theorem transmit_transition (hvalid : h.net.udpConns.Valid) {d : Datagram}
    (hd : h.chunkOf e = some d) : Transition h e (h.transmit d).1 (h.transmit d).2 := by
  have hfst := findConn_fst hvalid d.dst
  unfold Host.transmit
  split
  next hloop =>
    split
    next net hfind =>
      rw [hfind] at hfst
      cases hfst
      exact .unheard hd hloop (congrArg Prod.snd hfind)
    next net c hfind =>
      rw [hfind] at hfst
      cases hfst
      exact .found hd hloop (congrArg Prod.snd hfind)
  next hloop =>
    rw [Bool.not_eq_true] at hloop
    split
    · exact .refused
    next hlinked => exact .send hd hloop (by simpa using hlinked)

/-- So is `WriteTo`. -/
theorem writeTo_transition (hvalid : h.net.udpConns.Valid) {i : Nat} {tag : String}
    {payload : List UInt8} {addr : Option UDPAddr}
    (he : h.chunkOf e = addr.bind fun dst => h.chunkTo i tag payload dst) :
    Transition h e (h.writeTo i tag payload addr).1 (h.writeTo i tag payload addr).2 := by
  unfold Host.writeTo
  split
  · exact .blocked
  next c hc =>
    cases addr with
    | none => exact .refused
    | some dst =>
      dsimp only
      split
      · exact .refused
      next srcIP hsrc =>
        apply transmit_transition hvalid
        simp [he, Host.chunkTo, hc, hsrc]

/-- A move is one of the listed ones. -/
theorem move_transition (hvalid : h.net.udpConns.Valid) :
    Transition h e (h.move e).1 (h.move e).2 := by
  cases e with
  | elapse d => exact .elapse
  | setRouter => exact .setRouter
  | call e => exact .call
  | write i tag payload =>
    rw [Host.move]
    unfold Host.write
    split
    · exact .blocked
    next c hc =>
      split
      · exact .refused
      next remAddr hrem =>
        apply writeTo_transition hvalid
        simp [Host.chunkOf, hc, hrem]
  | writeTo i tag payload addr => exact writeTo_transition hvalid rfl
  | inbound d =>
    have hfst := findConn_fst hvalid d.dst
    rw [Host.move]
    unfold Host.inbound
    split <;> rename_i hfind <;> rw [hfind] at hfst <;> cases hfst
    · exact .unclaimed (congrArg Prod.snd hfind)
    · exact .inbound (congrArg Prod.snd hfind)
  | _ =>
    simp only [Host.move, Host.setReadDeadline, Host.read, Host.receive, Host.timeout, Host.deliver]
    repeat' split
    all_goals first
      | exact .blocked
      | exact .setReadDeadline ‹_›
      | exact .read ‹_›
      | exact .readClosed ‹_› ‹_› ‹_› ‹_›
      | exact .take ‹_› ‹_› ‹_› ‹_›
      | exact .discard ‹_› ‹_› ‹_› (eq_false_of_ne_true ‹_›)
      | exact .timeout ‹_› ‹_› ‹_› ‹_›
      | exact .deliver ‹_›

/-- A step is one of the listed moves. -/
theorem step_transition {h' : Host} {o : Outcome} (hvalid : h.net.udpConns.Valid)
    (hstep : h.step e = some (h', o)) : Transition h e h' o := by
  have hmove : Transition h e (h.move e).1 (h.move e).2 := move_transition hvalid
  rw [Option.some.inj hstep] at hmove
  exact hmove

/-- `onInboundChunk` puts the chunk into the channel, or drops it. -/
theorem accept_cases (h : Host) (i : Nat) (d : Datagram) :
    h.accept i d = h ∨ (i ∉ h.net.closed ∧ (h.boxes i).readCh.length < maxReadQueueSize ∧
      h.accept i d = h.setBox i { h.boxes i with
        readCh := (h.boxes i).readCh ++ [d], accepted := (h.boxes i).accepted ++ [d] }) := by
  unfold Host.accept
  split
  · exact .inl rfl
  next hopen =>
    split
    next hroom => exact .inr ⟨hopen, hroom, rfl⟩
    · exact .inl rfl

end Steps

end PionTransport.Vnet.Hosts
