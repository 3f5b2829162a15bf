import PionTransport.Core.Potential
import PionTransport.Vnet.ProxySessions

/-!
# How the goroutines of a proxy end

The loops of a worker return at their first error, and nothing starts them again: the map
of the proxy keeps the worker, so that `Proxy` finds it there, and the map of the worker
keeps the endpoint. `Close` ends what it finds in the map. A worker that another call
of `Proxy` stored over is not there.
-/

namespace PionTransport.Vnet.Proxies

open PionTransport.Core Sockets Hosts

/-- Some workers of a proxy move. -/
inductive Moves : UDPProxy → UDPProxy → Prop
  | refl (p) : Moves p p
  | step {p p' i w e} (hw : p.workers[i]? = some w)
      (hallowed : e.fromProxy = true → p.stored i = true)
      (hrest : Moves { p with workers := p.workers.set i (w.move e).1 } p') : Moves p p'

/-- What a step of a proxy can do. -/
inductive ProxyTransition (p : UDPProxy) : Event → UDPProxy → Prop
  | same {e} : ProxyTransition p e p
  | loaded {server} (hfind : p.find server = none) : ProxyTransition p (.load server)
      { p with calls := p.calls ++ [{ server := server }] }
  | stored {c server} (hc : p.calls[c]? = some ⟨server, false⟩) : ProxyTransition p (.store c)
      { table := UDPProxy.put p.table server p.workers.length
        workers := p.workers ++ [{ server := server }]
        calls := p.calls.modify c fun call => { call with stored := true } }
  | moved {e p'} (hmoves : Moves p p') : ProxyTransition p e p'

section Steps

variable {p p' : UDPProxy} {i : Nat} {o : Outcome}

/-- Moving a worker is a sequence of moves. -/
theorem moveWorker_moves {e : WorkerEvent} (hallowed : e.fromProxy = true → p.stored i = true) :
    Moves p (p.moveWorker i e).1 := by
  unfold UDPProxy.moveWorker
  split
  next => exact .refl p
  next w hw => exact .step hw hallowed (.refl _)

theorem Moves.trans {p₁ p₂ p₃ : UDPProxy} (h : Moves p₁ p₂) (h' : Moves p₂ p₃) : Moves p₁ p₃ := by
  induction h with
  | refl => exact h'
  | step hw hallowed _ ih => exact .step hw hallowed (ih h')

/-- Moves of workers leave the map. -/
theorem Moves.table (h : Moves p p') : p'.table = p.table := by
  induction h with
  | refl => rfl
  | step _ _ _ ih => exact ih

/-- Moves of workers leave the calls of `Proxy`. -/
theorem Moves.calls (h : Moves p p') : p'.calls = p.calls := by
  induction h with
  | refl => rfl
  | step _ _ _ ih => exact ih

/-- What the moves of worker `i` keep holds of it after a move of any worker. -/
theorem exists_worker_set {P : Worker → Prop} {j : Nat} {w : Worker} {e : WorkerEvent}
    (hw : p.workers[j]? = some w) (hkeeps : j = i → P w → P (w.move e).1)
    (hi : ∃ w, p.workers[i]? = some w ∧ P w) :
    ∃ w', (p.workers.set j (w.move e).1)[i]? = some w' ∧ P w' := by
  obtain ⟨wi, hwi, hP⟩ := hi
  by_cases hij : j = i
  · subst hij
    cases hw.symm.trans hwi
    exact ⟨_, List.getElem?_set_self (List.getElem?_eq_some_iff.mp hwi).1, hkeeps rfl hP⟩
  · exact ⟨wi, (List.getElem?_set_ne hij).trans hwi, hP⟩

/-- `Deliver` moves stored workers. -/
theorem deliver_moves {addr : UDPAddr} {b : List UInt8} {order : List (Nat × Bool)}
    (hstored : ∀ visit ∈ order, p.stored visit.1 = true) (last : Outcome) :
    Moves p (p.deliver addr b last order).1 := by
  induction order generalizing p last with
  | nil => exact .refl p
  | cons visit order ih =>
    have hmoves : Moves p (p.moveWorker visit.1 (.deliver addr b visit.2)).1 :=
      moveWorker_moves fun _ => hstored visit List.mem_cons_self
    unfold UDPProxy.deliver
    generalize p.moveWorker visit.1 (.deliver addr b visit.2) = moved at hmoves
    obtain ⟨p₁, o⟩ := moved
    have hrest : ∀ visit ∈ order, p₁.stored visit.1 = true := by
      intro visit' hvisit
      have hbefore := hstored visit' (List.mem_cons_of_mem _ hvisit)
      rwa [UDPProxy.stored, ← hmoves.table] at hbefore
    cases o with
    | delivered n =>
      simp only
      split
      · exact hmoves
      · exact hmoves.trans (ih hrest _)
    | _ => exact hmoves

/-- A move of the proxy is one of the listed ones. -/
theorem proxyMove_transition (p : UDPProxy) (e : Event) : ProxyTransition p e (p.move e).1 := by
  cases e with
  | load server =>
    rw [UDPProxy.move]
    split
    next => exact .same
    next hfind => exact .loaded hfind
  | store c =>
    rw [UDPProxy.move]
    split
    next server hc => exact .stored hc
    next => exact .same
  | worker i e =>
    rw [UDPProxy.move]
    split
    next => exact .same
    next h =>
      refine .moved (moveWorker_moves fun he => ?_)
      simpa [he] using h
  | deliver order addr b =>
    exact .moved (deliver_moves (fun visit hvisit => (List.mem_filter.mp hvisit).2) _)

/-- A step of the proxy is one of the listed ones. -/
theorem proxy_transition {e : Event} (h : p.step e = some (p', o)) : ProxyTransition p e p' := by
  obtain ⟨rfl, -⟩ := Prod.mk.inj (Option.some.inj h)
  exact proxyMove_transition p e

end Steps

/-- The steps at which the loop of a worker ends for good. -/
inductive Fatal (w : Worker) : WorkerEvent → Prop
  /-- the socket could not be opened -/
  | start (hmain : w.main = .starting) : Fatal w (.start false)
  /-- a datagram is longer than the buffer -/
  | read {d rest} (hmain : w.main = .reading) (hinbox : w.inbox = d :: rest)
      (hlong : bufSize < d.data.length) : Fatal w .read
  /-- a real socket refuses a datagram -/
  | write {k addr bytes ep} (hmain : w.main = .writing k addr bytes)
      (hep : w.endpoints[k]? = some ep) : Fatal w (.write false)

/-- What the loop of the worker wrote to the real socket of each client. -/
def Worker.forwarded (w : Worker) : List (UDPAddr × List (List UInt8)) :=
  w.endpoints.map fun ep => (ep.client, ep.sent)

/-- The loop of a worker has ended, with what it had written until then. -/
structure Stopped (p : UDPProxy) (server : UDPAddr) (i workers : Nat)
    (forwarded : List (UDPAddr × List (List UInt8))) : Prop where
  found : p.find server = some i
  idle : ∀ c ∈ p.calls, sameAddr c.server server = true → c.stored = true
  workers : (p.workers.countP fun w => sameAddr w.server server) = workers
  ended : ∃ w, p.workers[i]? = some w ∧ w.main.isEnded = true ∧ w.forwarded = forwarded

section Stopping

variable {p p' : UDPProxy} {i : Nat} {o : Outcome} {w w' : Worker} {e : WorkerEvent}

/-- A fatal step ends the loop and forwards nothing. -/
theorem fatal_ends (h : Fatal w e) :
    (w.move e).1.main.isEnded = true ∧ (w.move e).1.forwarded = w.forwarded := by
  cases h with
  | start hmain => simp [Worker.move, Worker.start, hmain, MainAt.isEnded, Worker.forwarded]
  | read hmain hinbox hlong =>
    simp [Worker.move, Worker.read, hmain, hinbox, Datagram.copied, hlong, MainAt.isEnded,
      Worker.forwarded]
  | write hmain hep =>
    simp [Worker.move, Worker.write, hmain, hep, MainAt.isEnded, Worker.forwarded]

/-- A worker keeps its server. -/
theorem server_move (w : Worker) (e : WorkerEvent) : (w.move e).1.server = w.server := by
  have htransition := move_transition w e
  generalize (w.move e).1 = w', (w.move e).2 = o at htransition ⊢
  cases htransition <;> rfl

/-- A change of an endpoint that writes nothing. -/
theorem forwarded_setEndpoint (w : Worker) (k : Nat) {f : Endpoint → Endpoint}
    (hf : ∀ ep, ((f ep).client, (f ep).sent) = (ep.client, ep.sent)) :
    (w.setEndpoint k f).forwarded = w.forwarded :=
  map_modify hf w.endpoints k

/-- A loop that has ended writes nothing, and stays as it is. -/
theorem ended_move (hended : w.main.isEnded = true) (e : WorkerEvent) :
    (w.move e).1.main.isEnded = true ∧ (w.move e).1.forwarded = w.forwarded := by
  have htransition := move_transition w e
  generalize (w.move e).1 = w', (w.move e).2 = o at htransition ⊢
  cases htransition with
  | started hmain | unstarted hmain | readEmpty hmain | readSome hmain | readShort hmain
  | readClosed hmain | found hmain | dialed hmain | undialed hmain | written hmain
  | unwritten hmain =>
    rw [hmain] at hended
    cases hended
  | blocked | arrived | unknown | undelivered | cancelled | vnetClosed | waited =>
    exact ⟨hended, rfl⟩
  | served | readFailed | received | replied | unreplied | delivered | realClosed =>
    exact ⟨hended, forwarded_setEndpoint w _ fun _ => rfl⟩

/-- A move keeps the number of workers of a server. -/
theorem countP_set_server {server : UDPAddr} (hw : p.workers[i]? = some w) (e : WorkerEvent) :
    ((p.workers.set i (w.move e).1).countP fun w => sameAddr w.server server) =
      p.workers.countP fun w => sameAddr w.server server := by
  have hmodify : p.workers.set i (w.move e).1 = p.workers.modify i fun _ => (w.move e).1 := by
    rw [List.modify_eq_set_getElem?, hw]
    rfl
  have hcount := countP_modify (p := fun w : Worker => sameAddr w.server server)
    (f := fun _ => (w.move e).1) hw
  rw [hmodify]
  simp only [server_move] at hcount
  omega

variable {server : UDPAddr} {workers : Nat} {forwarded : List (UDPAddr × List (List UInt8))}

/-- Moves of workers do not start the loop again. -/
theorem Stopped.moves (h : Stopped p server i workers forwarded) (hmoves : Moves p p') :
    Stopped p' server i workers forwarded := by
  induction hmoves with
  | refl => exact h
  | @step p p' j wj e hw _ _ ih =>
    refine ih ⟨h.found, h.idle, (countP_set_server hw e).trans h.workers, ?_⟩
    refine exists_worker_set hw (fun _ ⟨hended, hforwarded⟩ => ?_) h.ended
    obtain ⟨hended', hforwarded'⟩ := ended_move hended e
    exact ⟨hended', hforwarded'.trans hforwarded⟩

/-- The map gives the same for addresses with the same text. -/
theorem find_congr (p : UDPProxy) {server' : UDPAddr} (h : sameAddr server' server = true) :
    p.find server' = p.find server := by
  rw [sameAddr_iff] at h
  simp only [UDPProxy.find, sameAddr_eq_decide, h]

/-- Storing a worker leaves those of other servers. -/
theorem find_put_of_ne (table : List (UDPAddr × Nat)) {server' : UDPAddr} (n : Nat)
    (h : sameAddr server' server = false) :
    (UDPProxy.put table server' n).find? (fun entry => sameAddr entry.1 server) =
      table.find? fun entry => sameAddr entry.1 server := by
  rw [UDPProxy.put, List.find?_cons_of_neg (by simp [h]), List.find?_filter]
  congr 1
  funext entry
  rw [sameAddr_eq_decide, decide_eq_false_iff_not] at h
  simp only [sameAddr_eq_decide]
  by_cases hentry : addrKey entry.1 = addrKey server
  · simp [hentry, Ne.symm h]
  · simp [hentry]

/-- A step does not start the loop again. -/
theorem Stopped.step {e : Event} (h : Stopped p server i workers forwarded)
    (hstep : p.step e = some (p', o)) : Stopped p' server i workers forwarded := by
  cases proxy_transition hstep with
  | same => exact h
  | loaded hfind =>
    refine ⟨h.found, fun c hc hsame => ?_, h.workers, h.ended⟩
    rcases List.mem_append.mp hc with hold | hnew
    · exact h.idle c hold hsame
    · -- the call would have found the worker
      cases List.mem_singleton.mp hnew
      rw [find_congr p hsame, h.found] at hfind
      cases hfind
  | @stored c server' hc =>
    have hother : sameAddr server' server = false := by
      cases hsame : sameAddr server' server with
      | false => rfl
      | true => cases h.idle _ (List.mem_of_getElem? hc) hsame
    obtain ⟨w, hw, hended⟩ := h.ended
    refine ⟨?_, fun c' hc' hsame => ?_, ?_, w, getElem?_snoc_iff.mpr (.inr hw), hended⟩
    · have hfound := h.found
      rwa [UDPProxy.find, ← find_put_of_ne p.table p.workers.length hother] at hfound
    · obtain ⟨j, hj⟩ := List.mem_iff_getElem?.mp hc'
      rcases (getElem?_modify_of_some hc).mp hj with ⟨-, rfl⟩ | ⟨-, hj⟩
      · rfl
      · exact h.idle c' (List.mem_of_getElem? hj) hsame
    · rw [List.countP_append, h.workers]
      simp [hother]
  | moved hmoves => exact h.moves hmoves

end Stopping

variable {p : UDPProxy} {es : List Event} {os os' : List Outcome} {i : Nat} {w : Worker}

/-- One datagram that is longer than the buffer, one failed write to a real socket, or a socket that
could not be opened, end the service to all clients of a server for good: whatever happens
afterwards, further calls of `Proxy` for the server included, the loop of the worker forwards
nothing more and no other worker is made for the server. -/
theorem fatal_step_ends_service {p' : UDPProxy} {e : WorkerEvent} (server : UDPAddr)
    (hfound : p.find server = some i)
    (hcalls : ∀ c ∈ p.calls, sameAddr c.server server = true → c.stored = true)
    (hw : p.workers[i]? = some w) (hfatal : Fatal w e)
    (hrun : run UDPProxy.step p (.worker i e :: es) = some (p', os)) :
    p'.find server = some i ∧
    (p'.workers.countP fun w => sameAddr w.server server) =
      (p.workers.countP fun w => sameAddr w.server server) ∧
    ∃ w', p'.workers[i]? = some w' ∧ w'.main.isEnded = true ∧ w'.forwarded = w.forwarded := by
  obtain ⟨p₁, o, os', hstep, hrest, -⟩ := run_cons_inv hrun
  have hp₁ : p₁ = { p with workers := p.workers.set i (w.move e).1 } := by
    have hown : e.fromProxy = false := by cases hfatal <;> rfl
    simp only [UDPProxy.step, UDPProxy.move, hown, UDPProxy.moveWorker, hw, Option.some.injEq,
      Bool.false_and, Bool.false_eq_true, if_false, Prod.mk.injEq] at hstep
    exact hstep.1.symm
  have hstopped : Stopped p₁ server i (p.workers.countP fun w => sameAddr w.server server)
      w.forwarded := by
    rw [hp₁]
    exact ⟨hfound, hcalls, countP_set_server hw e, _,
      List.getElem?_set_self (List.getElem?_eq_some_iff.mp hw).1, fatal_ends hfatal⟩
  have hend := keeps_of_step (I := fun p' => Stopped p' server i _ w.forwarded)
    (fun h hs => h.step hs) hstopped hrest
  exact ⟨hend.found, hend.workers, hend.ended⟩

/-- One byte too much for the buffer. -/
def longData : List UInt8 := List.replicate 1501 0

/-- A proxy whose worker has served one client and holds a datagram of another that is too long. -/
def beforeLong : List Event :=
  [.load realServer, .store 0, .worker 0 (.start true),
    .worker 0 (.arrive (datagramFrom 1 [1])), .worker 0 (.arrive (datagramFrom 2 longData)),
    .worker 0 (.arrive (datagramFrom 1 [3])),
    .worker 0 .read, .worker 0 (.find true), .worker 0 (.write true)]

/-- The worker at that point. -/
def longWorker : Worker where
  server := realServer
  main := .reading
  listening := true
  inbox := [datagramFrom 2 longData, datagramFrom 1 [3]]
  endpoints := [{ client := clientAt 1, sent := [[1]] }]
  accepted := [datagramFrom 1 [1], datagramFrom 2 longData, datagramFrom 1 [3]]
  received := [(clientAt 1, [1])]

/-- The first client is not served any more, and calling `Proxy` again does not help. -/
theorem fatal_step_ends_service_long : ∃ p os p' os',
    run UDPProxy.step {} beforeLong = some (p, os) ∧
    run UDPProxy.step p (.worker 0 .read :: [.load realServer, .store 0, .worker 0 .read]) =
      some (p', os') ∧
    p'.find realServer = some 0 ∧
    ∃ w', p'.workers[0]? = some w' ∧ w'.forwarded = [(clientAt 1, [[1]])] := by
  refine exists_runs (fun p _ _ _ => p = ⟨[(realServer, 0)], [longWorker], [⟨realServer, true⟩]⟩)
    (by decide +kernel) ?_
  rintro _ os p' os' - hrun' rfl
  have hlong : bufSize < longData.length := by
    rw [longData, List.length_replicate, bufSize]
    decide
  have hfatal : Fatal longWorker .read := .read rfl rfl hlong
  obtain ⟨hfound', -, w', hw', -, hforwarded'⟩ :=
    fatal_step_ends_service realServer (by decide +kernel) (by simp) rfl hfatal hrun'
  exact ⟨hfound', w', hw', hforwarded'⟩

/-- The goroutine of an endpoint has returned, with what it had written until then. -/
structure Unanswered (w : Worker) (k : Nat) (client : UDPAddr) (replied : List (List UInt8)) :
    Prop where
  apart : Apart w
  endpoint : ∃ ep, w.endpoints[k]? = some ep ∧ ep.client = client ∧ ep.relay = .returned ∧
    ep.replied = replied

section Answers

variable {w w' : Worker} {e : WorkerEvent} {o : Outcome} {k : Nat} {client : UDPAddr}
  {replied : List (List UInt8)}

/-- A change of an endpoint other than the one, or of the one without its answers. -/
theorem endpoint_setEndpoint {j : Nat} {f : Endpoint → Endpoint}
    (hf : ∀ ep, w.endpoints[j]? = some ep → ep.relay = .returned →
      (f ep).client = ep.client ∧ (f ep).relay = .returned ∧ (f ep).replied = ep.replied)
    (h : ∃ ep, w.endpoints[k]? = some ep ∧ ep.client = client ∧ ep.relay = .returned ∧
      ep.replied = replied) :
    ∃ ep, (w.endpoints.modify j f)[k]? = some ep ∧ ep.client = client ∧ ep.relay = .returned ∧
      ep.replied = replied := by
  obtain ⟨ep, hep, hclient, hrelay, hreplied⟩ := h
  refine ⟨_, getElem?_modify_iff.mpr ⟨ep, hep, rfl⟩, ?_⟩
  by_cases hjk : j = k
  · subst hjk
    obtain ⟨hclient', hrelay', hreplied'⟩ := hf ep hep hrelay
    rw [if_pos rfl]
    exact ⟨hclient'.trans hclient, hrelay', hreplied'.trans hreplied⟩
  · rw [if_neg hjk]
    exact ⟨hclient, hrelay, hreplied⟩

/-- A step of the worker leaves a returned endpoint silent. -/
theorem Unanswered.step (h : Unanswered w k client replied) (hstep : w.step e = some (w', o)) :
    Unanswered w' k client replied := by
  refine ⟨h.apart.step hstep, ?_⟩
  have hbefore := h.endpoint
  cases step_transition hstep with
  | dialed =>
    obtain ⟨ep, hep, hrest⟩ := hbefore
    exact ⟨ep, getElem?_snoc_iff.mpr (.inr hep), hrest⟩
  | written | served | delivered | realClosed =>
    exact endpoint_setEndpoint (fun ep _ hrelay => ⟨rfl, hrelay, rfl⟩) hbefore
  | readFailed | unreplied =>
    exact endpoint_setEndpoint (fun ep _ _ => ⟨rfl, rfl, rfl⟩) hbefore
  | received hep hreading =>
    refine endpoint_setEndpoint (fun ep hep' hrelay => ?_) hbefore
    cases hep.symm.trans hep'
    cases hreading.symm.trans hrelay
  | replied hep hwriting =>
    refine endpoint_setEndpoint (fun ep hep' hrelay => ?_) hbefore
    cases hep.symm.trans hep'
    cases hwriting.symm.trans hrelay
  | _ => exact hbefore

/-- The map gives the endpoint of a client. -/
theorem load_of_apart (h : Apart w) {ep : Endpoint} (hep : w.endpoints[k]? = some ep) :
    w.load ep.client = some k := by
  obtain ⟨hk, hget⟩ := List.getElem?_eq_some_iff.mp hep
  refine List.findIdx?_eq_some_iff_getElem.mpr ⟨hk, ?_, fun j hj => ?_⟩
  · rw [hget]
    exact sameAddr_iff.mpr rfl
  · have hother := List.pairwise_iff_getElem.mp h.distinct j k (Nat.lt_trans hj hk) hk hj
    rw [hget] at hother
    simp [hother]

end Answers

/-- A client is tied to its real socket. Once the goroutine that reads from the socket has returned,
after an error of the socket or of a write, nothing is ever written to the client again, although
its datagrams are still written to the same socket. -/
theorem returned_relay_is_not_replaced {server : UDPAddr} {es es' : List WorkerEvent} {w' : Worker}
    {k : Nat} {ep : Endpoint} (hrun : run Worker.step { server := server } es = some (w, os))
    (hep : w.endpoints[k]? = some ep) (hrelay : ep.relay = .returned)
    (hrun' : run Worker.step w es' = some (w', os')) :
    w'.load ep.client = some k ∧ payloads ep.client w'.replies = payloads ep.client w.replies := by
  have hapart : Apart w := apart_run hrun
  have hend := keeps_of_step (I := fun s => Unanswered s k ep.client ep.replied)
    (fun h hs => h.step hs) ⟨hapart, ep, hep, rfl, hrelay, rfl⟩ hrun'
  obtain ⟨ep', hep', hclient, -, hreplied⟩ := hend.endpoint
  have hload := load_of_apart hend.apart hep'
  have hafter := hend.apart.replies hep'
  rw [hclient] at hload hafter
  refine ⟨hload, ?_⟩
  rw [hafter, hreplied, hapart.replies hep]

/-- The server's port is closed when the first answer is awaited. -/
theorem returned_relay_is_not_replaced_refused : ∃ w os w' os',
    run Worker.step { server := realServer } [.start true, .arrive (datagramFrom 1 [1]), .read,
      .find true, .write true, .receive 0 false] = some (w, os) ∧
    run Worker.step w [.arrive (datagramFrom 1 [2]), .read, .find true, .write true, .serve 0 [9],
      .receive 0 true, .reply 0 true] = some (w', os') ∧
    w'.load (clientAt 1) = some 0 ∧ w'.endpoints.map Endpoint.sent = [[[1], [2]]] ∧
    payloads (clientAt 1) w'.replies = payloads (clientAt 1) w.replies := by
  refine exists_runs (fun w _ w' _ =>
    w.endpoints[0]? = some { client := clientAt 1, sent := [[1]], relay := .returned } ∧
      w'.endpoints.map Endpoint.sent = [[[1], [2]]]) (by decide +kernel) ?_
  rintro w os w' os' hrun hrun' ⟨hep, hsent⟩
  obtain ⟨hload, hreplies⟩ := returned_relay_is_not_replaced hrun hep rfl hrun'
  exact ⟨hload, hsent, hreplies⟩

/-- The steps that a worker takes to its end. -/
def winds : WorkerEvent → Outcome → Bool
  | .read, o | .find _, o | .write _, o | .closeReal _, o => o ≠ .blocked
  | .receive .., o | .reply .., o => o = .draining
  | _, _ => false

/-- How many steps the goroutine of the worker can take, with those of the endpoints it makes. -/
def MainAt.rank : MainAt → Nat
  | starting | ended _ => 0
  | reading => 1
  | finding .. => 6
  | writing .. => 2

/-- How many steps the goroutine of an endpoint can take. -/
def RelayAt.rank : RelayAt → Nat
  | reading => 1
  | writing _ => 2
  | returned => 0

/-- How many steps are left for an endpoint, from the one that closes its socket on. -/
def Endpoint.rank (ep : Endpoint) : Nat :=
  if ep.closed then ep.relay.rank
  else if ep.relay = .returned then 1 else 3

/-- How many steps are left for a worker whose socket is closed. -/
def Worker.rank (w : Worker) : Nat :=
  6 * w.inbox.length + w.main.rank + (w.endpoints.map Endpoint.rank).sum

/-- `Close` was called, and the socket in the virtual network is closed. -/
structure Winding (w : Worker) : Prop where
  apart : Apart w
  cancelled : w.cancelled = true
  started : w.main ≠ .starting
  deaf : w.listening = false

section Winding

variable {w w' : Worker} {e : WorkerEvent} {o : Outcome} {ep : Endpoint} {k : Nat}

/-- A change of one endpoint. -/
theorem rank_setEndpoint {f : Endpoint → Endpoint} {n : Nat} (hep : w.endpoints[k]? = some ep)
    (hf : n + (f ep).rank ≤ ep.rank) : n + (w.setEndpoint k f).rank ≤ w.rank := by
  have hsum := sum_map_modify (g := Endpoint.rank) (f := f) hep
  simp only [Worker.rank, Worker.setEndpoint]
  omega

/-- A closed worker stays closed. -/
theorem Winding.step (h : Winding w) (hstep : w.step e = some (w', o)) : Winding w' := by
  have hapart := h.apart.step hstep
  obtain ⟨-, hcancelled, hstarted, hdeaf⟩ := h
  suffices hrest : w'.cancelled = true ∧ w'.main ≠ .starting ∧ w'.listening = false from
    ⟨hapart, hrest.1, hrest.2.1, hrest.2.2⟩
  cases step_transition hstep with
  | started hmain | unstarted hmain => exact absurd hmain hstarted
  | vnetClosed => exact ⟨hcancelled, hstarted, rfl⟩
  | cancelled => exact ⟨rfl, hstarted, hdeaf⟩
  | readSome | readShort | readClosed | found | dialed | undialed | written | unwritten =>
    exact ⟨hcancelled, by simp, hdeaf⟩
  | _ => exact ⟨hcancelled, hstarted, hdeaf⟩

/-- Every step to the end is paid for. -/
theorem rank_step (h : Winding w) (hstep : w.step e = some (w', o)) :
    (if winds e o then 1 else 0) + w'.rank ≤ w.rank := by
  cases step_transition hstep with
  | blocked => cases e <;> simp [winds]
  | unknown | undelivered | cancelled | waited => simp [winds, Worker.rank]
  | started hmain | unstarted hmain => exact absurd hmain h.started
  | arrived hlistening | vnetClosed _ hlistening => cases h.deaf.symm.trans hlistening
  | readEmpty hmain hinbox | readSome hmain hinbox | readShort hmain hinbox
  | readClosed hmain hinbox =>
    simp only [winds, Worker.rank, hmain, hinbox, MainAt.rank, List.length_cons, List.length_nil]
    simp only [ne_eq, reduceCtorEq, not_false_eq_true, decide_true, if_true]
    omega
  | found hmain | undialed hmain | unwritten hmain =>
    simp only [winds, Worker.rank, hmain, MainAt.rank]
    simp only [ne_eq, reduceCtorEq, not_false_eq_true, decide_true, if_true]
    omega
  | dialed hmain =>
    simp only [winds, Worker.rank, hmain, MainAt.rank, List.map_append, List.sum_append]
    simp [Endpoint.rank]
    omega
  | @written k addr bytes ep hmain hep hopen =>
    have hle := rank_setEndpoint (f := fun ep => { ep with sent := ep.sent ++ [bytes] }) (n := 0)
      hep (Nat.le_of_eq (Nat.zero_add _))
    simp only [Worker.rank, Worker.setEndpoint, hmain, MainAt.rank] at hle ⊢
    simp only [winds, ne_eq, reduceCtorEq, not_false_eq_true, decide_true, if_true]
    omega
  | served hep hopen =>
    refine rank_setEndpoint hep ?_
    simp [winds, Endpoint.rank]
  | delivered hload =>
    obtain ⟨hk, -, -⟩ := List.findIdx?_eq_some_iff_getElem.mp hload
    refine rank_setEndpoint (List.getElem?_eq_getElem hk) ?_
    simp [winds, Endpoint.rank]
  | @readFailed k ok ep hep hrelay =>
    refine rank_setEndpoint hep ?_
    cases hclosed : ep.closed <;> simp [winds, Endpoint.rank, RelayAt.rank, hclosed, hrelay]
  | @received k ep packet rest hep hrelay hopen hinbox =>
    refine rank_setEndpoint hep ?_
    by_cases hempty : packet.take bufSize = [] <;>
      simp [winds, Endpoint.rank, hopen, hrelay, hempty]
  | @replied k ep bytes hep hrelay =>
    have hle : (if winds (.reply k true) (if ep.closed then .draining else .moved) then 1 else 0) +
        ({ ep with relay := .reading, replied := ep.replied ++ [bytes] } : Endpoint).rank ≤
          ep.rank := by
      cases hclosed : ep.closed <;> simp [winds, Endpoint.rank, RelayAt.rank, hclosed, hrelay]
    exact rank_setEndpoint
      (f := fun ep => { ep with relay := .reading, replied := ep.replied ++ [bytes] }) hep hle
  | @unreplied k ep bytes hep hrelay =>
    refine rank_setEndpoint hep ?_
    cases hclosed : ep.closed <;> simp [winds, Endpoint.rank, RelayAt.rank, hclosed, hrelay]
  | @realClosed k ep hcancelled hep hopen =>
    refine rank_setEndpoint hep ?_
    cases hrelay : ep.relay <;> simp [winds, Endpoint.rank, RelayAt.rank, hopen, hrelay]

/-- As long as a goroutine runs, one of them can go on. -/
theorem winds_of_busy (h : Winding w) (hbusy : w.idle = false) :
    ∃ e, winds e (w.move e).2 = true := by
  rw [Worker.idle, Bool.and_eq_false_iff] at hbusy
  rcases hbusy with hmain | hrelays
  · cases hw : w.main with
    | starting => exact absurd hw h.started
    | ended unsent => simp [hw] at hmain
    | reading =>
      refine ⟨.read, ?_⟩
      cases hinbox : w.inbox with
      | nil => simp [Worker.move, Worker.read, hw, hinbox, h.deaf, winds]
      | cons d rest =>
        simp only [Worker.move, Worker.read, hw, hinbox, winds]
        split
        · split <;> rfl
        · rfl
    | finding addr bytes =>
      refine ⟨.find true, ?_⟩
      cases hload : w.load addr <;> simp [Worker.move, Worker.find, hw, hload, winds]
    | writing k addr bytes =>
      obtain ⟨ep, hep, -⟩ := h.apart.bound k addr bytes hw
      refine ⟨.write true, ?_⟩
      cases hclosed : ep.closed <;> simp [Worker.move, Worker.write, hw, hep, hclosed, winds]
  · simp only [List.all_eq_false, decide_eq_true_eq] at hrelays
    obtain ⟨ep, hmem, hrelay⟩ := hrelays
    obtain ⟨k, hep⟩ := List.mem_iff_getElem?.mp hmem
    cases hclosed : ep.closed with
    | false =>
      refine ⟨.closeReal k, ?_⟩
      simp [Worker.move, Worker.closeReal, hep, h.cancelled, hclosed, winds]
    | true =>
      cases hr : ep.relay with
      | returned => exact absurd hr hrelay
      | reading =>
        refine ⟨.receive k true, ?_⟩
        simp [Worker.move, Worker.receive, hep, hr, hclosed, winds]
      | writing bytes =>
        refine ⟨.reply k true, ?_⟩
        simp [Worker.move, Worker.reply, hep, hr, hclosed, winds]

/-- The rank is bounded by what is left to do. -/
theorem rank_le (w : Worker) :
    w.rank ≤ 6 * (w.inbox.length + 1) + 3 * w.endpoints.length := by
  have hmain : w.main.rank ≤ 6 := by cases w.main <;> simp [MainAt.rank]
  have hsum : (w.endpoints.map Endpoint.rank).sum ≤ 3 * w.endpoints.length := by
    induction w.endpoints with
    | nil => simp
    | cons ep eps ih =>
      have hep : ep.rank ≤ 3 := by
        unfold Endpoint.rank
        split
        · cases ep.relay <;> simp [RelayAt.rank]
        · split <;> omega
      simp only [List.map_cons, List.sum_cons, List.length_cons]
      omega
  unfold Worker.rank
  omega

end Winding

/-- Once `Close` has cancelled a worker and its socket in the virtual network is closed, its
goroutines take a bounded number of steps more, whatever clients and servers send, apart from those
on real sockets that are still open; until all have returned one of these steps can be taken, and
then `Close` returns. -/
theorem worker_close_returns {server : UDPAddr} {es es' : List WorkerEvent} {w' : Worker}
    (hrun : run Worker.step { server := server } es = some (w, os))
    (hcancelled : w.cancelled = true) (hstarted : w.main ≠ .starting) (hdeaf : w.listening = false)
    (hrun' : run Worker.step w es' = some (w', os')) :
    counted winds es' os' ≤ 6 * (w.inbox.length + 1) + 3 * w.endpoints.length ∧
    ((∃ e, winds e (w'.move e).2 = true) ∨ (w'.move .wait).2 = .moved) := by
  have hwinding : Winding w := ⟨apart_run hrun, hcancelled, hstarted, hdeaf⟩
  obtain ⟨hend, hpaid⟩ := counted_le_of_potential winds Worker.rank
    (fun h hs => ⟨h.step hs, rank_step h hs⟩) hwinding hrun'
  have hle := rank_le w
  refine ⟨by omega, ?_⟩
  cases hidle : w'.idle with
  | false => exact .inl (winds_of_busy hend hidle)
  | true => exact .inr (by simp [Worker.move, hend.cancelled, hidle])

/-- The worker is closed while it holds a datagram of a new client and an answer to another. -/
theorem worker_close_returns_busy : ∃ w os w' os',
    run Worker.step { server := realServer } [.start true, .arrive (datagramFrom 1 [1]), .read,
      .find true, .write true, .serve 0 [9], .receive 0 true, .arrive (datagramFrom 2 [2]),
      .cancel, .closeVnet] = some (w, os) ∧
    run Worker.step w [.closeReal 0, .reply 0 true, .read, .find true, .receive 0 true, .write true,
      .closeReal 1, .read, .wait, .receive 1 true, .wait] = some (w', os') ∧
    os'.getLast? = some .moved ∧
    counted winds [.closeReal 0, .reply 0 true, .read, .find true, .receive 0 true, .write true,
      .closeReal 1, .read, .wait, .receive 1 true, .wait] os' ≤ 15 := by
  refine exists_runs (fun w _ _ os' => w.cancelled = true ∧ w.listening = false ∧
    w.main = .reading ∧ w.inbox.length = 1 ∧ w.endpoints.length = 1 ∧ os'.getLast? = some .moved)
    (by decide +kernel) ?_
  rintro w os w' os' hrun hrun' ⟨hcancelled, hdeaf, hmain, hinbox, hendpoints, hlast⟩
  have hbound := (worker_close_returns hrun hcancelled (by simp [hmain]) hdeaf hrun').1
  rw [hinbox, hendpoints] at hbound
  exact ⟨hlast, hbound⟩

/-- `Proxy` is not called for a server while another call for it has not stored its worker. -/
def Sequential (p : UDPProxy) : Event → Prop
  | .load server => ∀ c ∈ p.calls, sameAddr c.server server = true → c.stored = true
  | _ => True

instance (p : UDPProxy) : ∀ e, Decidable (Sequential p e)
  | .load server =>
    inferInstanceAs (Decidable (∀ c ∈ p.calls, sameAddr c.server server = true → c.stored = true))
  | .store _ | .worker .. | .deliver .. => inferInstanceAs (Decidable True)

/-- The map has every worker, and a call that makes another one is alone for its server. -/
structure Reached (p : UDPProxy) : Prop where
  reached : ∀ i < p.workers.length, p.stored i = true
  fresh : ∀ c ∈ p.calls, c.stored = false → p.find c.server = none
  single : p.calls.Pairwise fun c d =>
    c.stored = false → d.stored = false → sameAddr c.server d.server = false

section Reach

variable {p p' : UDPProxy} {e : Event} {o : Outcome} {server : UDPAddr}

/-- Moves of workers make none. -/
theorem Moves.length (h : Moves p p') : p'.workers.length = p.workers.length := by
  induction h with
  | refl => rfl
  | step _ _ _ ih => exact ih.trans (List.length_set ..)

/-- A server is not found if no entry is for it. -/
theorem find_eq_none_iff :
    p.find server = none ↔ ∀ entry ∈ p.table, sameAddr entry.1 server = false := by
  simp [UDPProxy.find]

variable {i : Nat}

/-- A worker is stored if some entry is its own. -/
theorem stored_iff : p.stored i = true ↔ ∃ server, (server, i) ∈ p.table := by
  simp [UDPProxy.stored]

/-- Storing a worker removes the ones of the same server only. -/
theorem mem_put {table : List (UDPAddr × Nat)} {n : Nat} {entry : UDPAddr × Nat} :
    entry ∈ UDPProxy.put table server n ↔
      entry = (server, n) ∨ entry ∈ table ∧ sameAddr entry.1 server = false := by
  simp [UDPProxy.put]

theorem sameAddr_comm (a b : UDPAddr) : sameAddr a b = sameAddr b a := by
  rw [Bool.eq_iff_iff, sameAddr_iff, sameAddr_iff]
  exact eq_comm

/-- A call of `Proxy` that finds no worker. -/
theorem Reached.loaded (h : Reached p) (hfind : p.find server = none)
    (hsequential : Sequential p (.load server)) :
    Reached { p with calls := p.calls ++ [{ server := server }] } where
  reached := h.reached
  fresh c hc hpending := by
    rcases List.mem_append.mp hc with hold | hnew
    · exact h.fresh c hold hpending
    · rw [List.mem_singleton.mp hnew]
      exact hfind
  single := by
    refine List.pairwise_append.mpr ⟨h.single, List.pairwise_singleton _ _, ?_⟩
    intro c hc d hd hpending _
    rw [List.mem_singleton.mp hd]
    cases hsame : sameAddr c.server server with
    | false => rfl
    | true => cases hpending.symm.trans (hsequential c hc hsame)

/-- A call of `Proxy` that stores its worker. -/
theorem Reached.stored {c : Nat} (h : Reached p) (hc : p.calls[c]? = some ⟨server, false⟩) :
    Reached ⟨UDPProxy.put p.table server p.workers.length, p.workers ++ [{ server := server }],
      p.calls.modify c fun call => { call with stored := true }⟩ := by
  obtain ⟨hreached, hfresh, hsingle⟩ := h
  obtain ⟨l, r, hsplit, hmodify⟩ := exists_split hc
  rw [hmodify]
  rw [hsplit] at hfresh hsingle
  obtain ⟨hl, hcons, hcross⟩ := List.pairwise_append.mp hsingle
  obtain ⟨hafter, hr⟩ := List.pairwise_cons.mp hcons
  have hnone := hfresh ⟨server, false⟩ (by simp) rfl
  refine ⟨fun i hi => ?_, fun call hcall hpending => ?_, ?_⟩
  · rw [List.length_append, List.length_singleton] at hi
    rcases Nat.lt_succ_iff_lt_or_eq.mp hi with hold | rfl
    · obtain ⟨server', hentry⟩ := stored_iff.mp (hreached i hold)
      exact stored_iff.mpr
        ⟨server', mem_put.mpr (.inr ⟨hentry, find_eq_none_iff.mp hnone _ hentry⟩)⟩
    · exact stored_iff.mpr ⟨server, mem_put.mpr (.inl rfl)⟩
  · -- the calls that are still to store a worker are for other servers
    have hother : call ∈ l ∨ call ∈ r := by
      rcases List.mem_append.mp hcall with hmem | hmem
      · exact .inl hmem
      · rcases List.mem_cons.mp hmem with rfl | hmem
        · cases hpending
        · exact .inr hmem
    have hne : sameAddr server call.server = false := by
      rcases hother with hmem | hmem
      · rw [sameAddr_comm]
        exact hcross call hmem _ List.mem_cons_self hpending rfl
      · exact hafter call hmem rfl hpending
    have hbefore : p.find call.server = none := by
      refine hfresh call ?_ hpending
      rcases hother with hmem | hmem
      · exact List.mem_append_left _ hmem
      · exact List.mem_append_right _ (List.mem_cons_of_mem _ hmem)
    rwa [UDPProxy.find, find_put_of_ne p.table p.workers.length hne]
  · refine List.pairwise_append.mpr ⟨hl, List.pairwise_cons.mpr ⟨?_, hr⟩, fun x hx y hy => ?_⟩
    · intro y _ hstored
      cases hstored
    · rcases List.mem_cons.mp hy with rfl | hmem
      · intro _ hstored
        cases hstored
      · exact hcross x hx y (List.mem_cons_of_mem _ hmem)

/-- Without concurrent calls a step keeps every worker in the map. -/
theorem Reached.step (h : Reached p) (hsequential : Sequential p e)
    (hstep : p.step e = some (p', o)) : Reached p' := by
  cases proxy_transition hstep with
  | same => exact h
  | loaded hfind => exact h.loaded hfind hsequential
  | stored hc => exact h.stored hc
  | moved hmoves =>
    obtain ⟨hreached, hfresh, hsingle⟩ := h
    unfold UDPProxy.stored at hreached
    unfold UDPProxy.find at hfresh
    rw [← hmoves.table, ← hmoves.length] at hreached
    rw [← hmoves.calls, ← hmoves.table] at hfresh
    rw [← hmoves.calls] at hsingle
    exact ⟨hreached, hfresh, hsingle⟩

/-- The workers that the map has are distinct. -/
structure Indexed (p : UDPProxy) : Prop where
  nodup : (p.table.map Prod.snd).Nodup
  known : ∀ entry ∈ p.table, entry.2 < p.workers.length

/-- The workers that the map has stay distinct. -/
theorem Indexed.step (h : Indexed p) (hstep : p.step e = some (p', o)) : Indexed p' := by
  obtain ⟨hnodup, hknown⟩ := h
  cases proxy_transition hstep with
  | same | loaded => exact ⟨hnodup, hknown⟩
  | stored hc =>
    refine ⟨?_, fun entry hentry => ?_⟩
    · rw [UDPProxy.put, List.map_cons, List.nodup_cons]
      refine ⟨fun hmem => ?_, hnodup.sublist (List.filter_sublist.map _)⟩
      obtain ⟨entry, hentry, heq⟩ := List.mem_map.mp hmem
      exact absurd heq (Nat.ne_of_lt (hknown entry (List.mem_of_mem_filter hentry)))
    · rw [List.length_append, List.length_singleton]
      rcases mem_put.mp hentry with rfl | ⟨hold, -⟩
      · exact Nat.lt_succ_self _
      · exact Nat.lt_succ_of_lt (hknown entry hold)
  | moved hmoves =>
    rw [← hmoves.table] at hnodup hknown
    rw [← hmoves.length] at hknown
    exact ⟨hnodup, hknown⟩

/-- The map has lost a worker that was not cancelled. -/
structure Forgotten (p : UDPProxy) (i : Nat) (listening : Bool) : Prop where
  lost : p.stored i = false
  running : ∃ w, p.workers[i]? = some w ∧ w.cancelled = false ∧
    (listening = true → w.listening = true)

/-- Only a cancellation cancels a worker. -/
theorem cancelled_move {w : Worker} {e : WorkerEvent} (hcancelled : w.cancelled = false)
    (he : e ≠ .cancel) :
    (w.move e).1.cancelled = false ∧ (w.listening = true → (w.move e).1.listening = true) := by
  have htransition := move_transition w e
  generalize (w.move e).1 = w', (w.move e).2 = o at htransition ⊢
  cases htransition with
  | cancelled => exact absurd rfl he
  | vnetClosed h => cases hcancelled.symm.trans h
  | started => exact ⟨hcancelled, fun _ => rfl⟩
  | _ => exact ⟨hcancelled, id⟩

/-- Moves of workers do not reach a lost one. -/
theorem Forgotten.moves {listening : Bool} (h : Forgotten p i listening) (hmoves : Moves p p') :
    Forgotten p' i listening := by
  induction hmoves with
  | refl => exact h
  | @step p p' j w e hw hallowed _ ih =>
    refine ih ⟨h.lost, ?_⟩
    refine exists_worker_set hw (fun hij ⟨hcancelled, hlistening⟩ => ?_) h.running
    have he : e ≠ .cancel := by
      rintro rfl
      cases h.lost.symm.trans (hij ▸ hallowed rfl)
    obtain ⟨hcancelled', hlistening'⟩ := cancelled_move hcancelled he
    exact ⟨hcancelled', fun hl => hlistening' (hlistening hl)⟩

/-- A lost worker stays lost and open. -/
theorem Forgotten.step {listening : Bool} (h : Forgotten p i listening)
    (hstep : p.step e = some (p', o)) : Forgotten p' i listening := by
  cases proxy_transition hstep with
  | same => exact h
  | loaded => exact ⟨h.lost, h.running⟩
  | stored hc =>
    obtain ⟨w, hw, hrest⟩ := h.running
    refine ⟨?_, w, getElem?_snoc_iff.mpr (.inr hw), hrest⟩
    by_contra hstored
    obtain ⟨server', hentry⟩ := stored_iff.mp (Bool.not_eq_false _ ▸ hstored)
    rcases mem_put.mp hentry with heq | ⟨hold, -⟩
    · have hlt := (List.getElem?_eq_some_iff.mp hw).1
      rw [(Prod.mk.inj heq).2] at hlt
      exact absurd hlt (Nat.lt_irrefl _)
    · have hlost := h.lost
      rw [stored_iff.mpr ⟨server', hold⟩] at hlost
      cases hlost
  | moved hmoves => exact h.moves hmoves

/-- A worker was cancelled. -/
def CancelledAt (p : UDPProxy) (i : Nat) : Prop := ∃ w, p.workers[i]? = some w ∧ w.cancelled = true

/-- A cancelled worker stays cancelled. -/
theorem CancelledAt.step (h : CancelledAt p i) (hstep : p.step e = some (p', o)) :
    CancelledAt p' i := by
  cases proxy_transition hstep with
  | same | loaded => exact h
  | stored =>
    obtain ⟨w, hw, hcancelled⟩ := h
    exact ⟨w, getElem?_snoc_iff.mpr (.inr hw), hcancelled⟩
  | moved hmoves =>
    clear hstep
    induction hmoves with
    | refl => exact h
    | @step _ _ j w e hw _ _ ih =>
      refine ih (exists_worker_set hw (fun _ hcancelled => ?_) h)
      have htransition := move_transition w e
      generalize (w.move e).1 = w', (w.move e).2 = o at htransition ⊢
      cases htransition with
      | cancelled => rfl
      | _ => exact hcancelled

/-- A worker that `Close` cancels is cancelled. -/
theorem cancelledAt_of_cancel (hstep : p.step (.worker i .cancel) = some (p', .moved)) :
    CancelledAt p' i := by
  simp only [UDPProxy.step, UDPProxy.move, UDPProxy.moveWorker] at hstep
  split at hstep
  · cases hstep
  · split at hstep
    · cases hstep
    next w hw =>
      cases hstep
      exact ⟨_, List.getElem?_set_self (List.getElem?_eq_some_iff.mp hw).1, rfl⟩

/-- A call of `Close` cancels the workers that its `Range` comes to. -/
theorem closes_cancels {waiting : Option Nat} {order : List Nat} {es : List Event}
    {os : List Outcome} (h : UDPProxy.Closes waiting order es os) (hi : i ∈ order)
    (hrun : run UDPProxy.step p es = some (p', os)) : CancelledAt p' i := by
  induction h generalizing p with
  | returned => cases hi
  | other _ ih | wait _ ih =>
    obtain ⟨p₁, o, os₁, hstep, hrest, hos⟩ := run_cons_inv hrun
    cases hos
    exact ih hi hrest
  | cancel _ ih =>
    obtain ⟨p₁, o, os₁, hstep, hrest, hos⟩ := run_cons_inv hrun
    cases hos
    rcases List.mem_cons.mp hi with rfl | hi
    · exact keeps_of_step (I := (CancelledAt · _)) (·.step) (cancelledAt_of_cancel hstep) hrest
    · exact ih hi hrest

/-- The worker that a call of `Proxy` stores takes the place of the one that was found. -/
theorem Indexed.lost {c : Nat} {call : Call} (h : Indexed p) (hfound : p.find server = some i)
    (hc : p.calls[c]? = some call) (hpending : call.stored = false)
    (hsame : sameAddr call.server server = true) : (p.move (.store c)).1.stored i = false := by
  obtain ⟨server', stored⟩ := call
  obtain rfl : stored = false := hpending
  rw [UDPProxy.move, hc]
  obtain ⟨⟨key, j⟩, hentry, rfl⟩ := Option.map_eq_some_iff.mp hfound
  have hmem := List.mem_of_find?_eq_some hentry
  have hkey := List.find?_some hentry
  by_contra hstored
  obtain ⟨other, hother⟩ := stored_iff.mp (Bool.not_eq_false _ ▸ hstored)
  rcases mem_put.mp hother with heq | ⟨hold, hne⟩
  · exact absurd (Prod.mk.inj heq).2 (Nat.ne_of_lt (h.known _ hmem))
  · -- the map has a worker once, so this is the entry that was replaced
    obtain rfl : other = key :=
      congrArg Prod.fst (List.inj_on_of_nodup_map h.nodup hold hmem rfl)
    rw [sameAddr_iff] at hsame hkey
    rw [sameAddr_iff.mpr (hkey.trans hsame.symm)] at hne
    cases hne

end Reach

/-- As long as no two calls of `Proxy` for one server overlap, the map has every worker, and its
cancellation is open to `Close`; however the run goes on, a call of `Close` that has come to every
worker of the map has cancelled every worker that was made before it. -/
theorem close_reaches_workers (hrun : run UDPProxy.step {} es = some (p, os))
    (hsequential : Along UDPProxy.step Sequential {} es) (hi : i < p.workers.length) :
    p.stored i = true ∧
    (∃ w, (p.move (.worker i .cancel)).1.workers[i]? = some w ∧ w.cancelled = true) ∧
    ∀ order es' p' os', (∀ entry ∈ p.table, entry.2 ∈ order) →
      run UDPProxy.step p es' = some (p', os') → UDPProxy.Closes none order es' os' →
      ∃ w, p'.workers[i]? = some w ∧ w.cancelled = true := by
  have hreached : Reached p := keeps_along (fun h hs hstep => h.step hs hstep)
    ⟨by simp, by simp, .nil⟩ hsequential hrun
  have hstored := hreached.reached i hi
  refine ⟨hstored, ⟨{ p.workers[i] with cancelled := true }, ?_, rfl⟩, ?_⟩
  · have hw := List.getElem?_eq_getElem hi
    simp only [UDPProxy.move, hstored, Bool.not_true, Bool.and_false, Bool.false_eq_true, if_false,
      UDPProxy.moveWorker, hw]
    exact List.getElem?_set_self hi
  · intro order es' p' os' horder hrun' hcloses
    obtain ⟨server, hentry⟩ := stored_iff.mp hstored
    exact closes_cancels hcloses (horder _ hentry) hrun'

/-- The same server is asked for twice, and another one; then the proxy is closed. -/
theorem close_reaches_workers_two : ∃ p os p' os', run UDPProxy.step {}
      [.load realServer, .store 0, .worker 0 (.start true), .load realServer, .load (clientAt 1),
        .store 1] = some (p, os) ∧
    run UDPProxy.step p [.worker 0 .cancel, .worker 0 .closeVnet, .worker 0 .read, .worker 0 .wait,
      .worker 1 .cancel, .worker 1 .wait] = some (p', os') ∧
    p.workers.length = 2 ∧ p.stored 0 = true ∧
    ∃ w, p'.workers[1]? = some w ∧ w.cancelled = true := by
  refine exists_runs (fun p _ _ os' => p.workers.length = 2 ∧
    (∀ entry ∈ p.table, entry.2 ∈ [0, 1]) ∧ os' = List.replicate 6 .moved) (by decide +kernel) ?_
  rintro p os p' os' hrun hrun' ⟨hlength, hmap, rfl⟩
  have hreaches := fun i => close_reaches_workers (i := i) hrun (by decide +kernel)
  exact ⟨hlength, (hreaches 0 (by omega)).1, (hreaches 1 (by omega)).2.2 [0, 1] _ p' _ hmap hrun'
    (.cancel (.other (.other (.wait (.cancel (.wait .returned))))))⟩

end PionTransport.Vnet.Proxies
