import PionTransport.Vnet.UDPProxy

/-!
# The sessions of a proxy

Each client has one real socket of its own. The datagrams of a client are written to
that socket in the order in which they were read, and what the socket receives goes
back to that client and to no other.
-/

namespace PionTransport.Vnet.Proxies

open PionTransport.Core Sockets Hosts

/-- The text of an address. -/
def addrKey (a : UDPAddr) : IP × Int := (a.ip.canonical, a.port)

theorem sameAddr_iff {a b : UDPAddr} : sameAddr a b = true ↔ addrKey a = addrKey b := by
  simp [sameAddr, addrKey, IP.equal_iff]

theorem sameAddr_eq_decide (a b : UDPAddr) : sameAddr a b = decide (addrKey a = addrKey b) := by
  rw [Bool.eq_iff_iff, sameAddr_iff, decide_eq_true_iff]

/-- What a client has in a list. -/
def payloads (a : UDPAddr) (l : List (UDPAddr × List UInt8)) : List (List UInt8) :=
  (l.filter fun p => sameAddr p.1 a).map Prod.snd

@[simp] theorem payloads_nil (a : UDPAddr) : payloads a [] = [] := rfl

@[simp] theorem payloads_append (a : UDPAddr) (l r : List (UDPAddr × List UInt8)) :
    payloads a (l ++ r) = payloads a l ++ payloads a r := by
  simp [payloads]

/-- One datagram is that of its client. -/
theorem payloads_singleton (a addr : UDPAddr) (bytes : List UInt8) :
    payloads a [(addr, bytes)] = if sameAddr addr a then [bytes] else [] := by
  cases h : sameAddr addr a <;> simp [payloads, h]

/-- What the goroutine of the worker has read and not written. -/
def MainAt.inHand : MainAt → List (UDPAddr × List UInt8)
  | starting | reading => []
  | finding addr bytes | writing _ addr bytes => [(addr, bytes)]
  | ended unsent => unsent

/-- What the goroutine of an endpoint has read and not written. -/
def RelayAt.inHand : RelayAt → List (List UInt8)
  | writing bytes => [bytes]
  | reading | returned => []

/-- What an endpoint holds for a client. -/
def ofClient (field : Endpoint → List (List UInt8)) (a : UDPAddr) (ep : Endpoint) :
    List (List UInt8) :=
  if sameAddr ep.client a then field ep else []

/-- What the buffer takes of some packets, without those that are dropped for being empty. -/
def cut (packets : List (List UInt8)) : List (List UInt8) :=
  (packets.map fun packet => packet.take bufSize).filter (· ≠ [])

@[simp] theorem cut_append (l r : List (List UInt8)) : cut (l ++ r) = cut l ++ cut r := by
  simp [cut]

/-- A packet is cut to the buffer, and dropped if nothing is left. -/
theorem cut_cons (packet : List UInt8) (rest : List (List UInt8)) :
    cut (packet :: rest) =
      (if packet.take bufSize = [] then [] else [packet.take bufSize]) ++ cut rest := by
  by_cases h : packet.take bufSize = [] <;> simp [cut, h]

/-- The goroutine of an endpoint writes what the socket took in, in order. -/
structure Relayed (ep : Endpoint) : Prop where
  relays : ep.replied ++ ep.relay.inHand <+: cut ep.served
  running : ep.closed = false → ep.relay ≠ .returned →
    ep.replied ++ ep.relay.inHand ++ cut ep.inbox = cut ep.served

/-- The endpoints keep the clients apart. -/
structure Apart (w : Worker) : Prop where
  distinct : w.endpoints.Pairwise fun x y => sameAddr x.client y.client = false
  bound : ∀ k addr bytes, w.main = .writing k addr bytes →
    ∃ ep, w.endpoints[k]? = some ep ∧ sameAddr ep.client addr = true
  forwarded : ∀ a, payloads a w.received =
    payloads a w.dropped ++ w.endpoints.flatMap (ofClient Endpoint.sent a) ++
      payloads a w.main.inHand
  answered : ∀ a, payloads a w.replies = w.endpoints.flatMap (ofClient Endpoint.replied a)
  relayed : ∀ ep ∈ w.endpoints, Relayed ep

section Endpoints

variable {w w' : Worker} {e : WorkerEvent} {o : Outcome} {ep : Endpoint} {k : Nat} {a : UDPAddr}

/-- The client of another endpoint is another one. -/
theorem ofClient_of_distinct {x y : Endpoint} {field : Endpoint → List (List UInt8)}
    (hx : sameAddr x.client a = true)
    (hxy : sameAddr x.client y.client = false ∨ sameAddr y.client x.client = false) :
    ofClient field a y = [] := by
  rw [sameAddr_iff] at hx
  rw [sameAddr_eq_decide, sameAddr_eq_decide, decide_eq_false_iff_not, decide_eq_false_iff_not]
    at hxy
  have hy : ¬ addrKey y.client = addrKey a := by
    intro hy
    rcases hxy with hne | hne
    · exact hne (hx.trans hy.symm)
    · exact hne (hy.trans hx.symm)
  rw [ofClient, sameAddr_eq_decide, decide_eq_false hy]
  rfl

variable {f : Endpoint → Endpoint}

/-- Endpoints keep their clients. -/
theorem distinct_modify (hf : ∀ ep, (f ep).client = ep.client)
    (h : w.endpoints.Pairwise fun x y => sameAddr x.client y.client = false) :
    (w.endpoints.modify k f).Pairwise fun x y => sameAddr x.client y.client = false := by
  have hpair : (w.endpoints.map Endpoint.client).Pairwise fun x y => sameAddr x y = false :=
    List.pairwise_map.mpr h
  rw [← map_modify hf w.endpoints k] at hpair
  exact List.pairwise_map.mp hpair

/-- A change of one endpoint. -/
theorem relayed_modify (h : ∀ ep ∈ w.endpoints, Relayed ep) (hep : w.endpoints[k]? = some ep)
    (hf : Relayed (f ep)) :
    ∀ x ∈ w.endpoints.modify k f, Relayed x := by
  obtain ⟨l, r, hsplit, hmodify⟩ := exists_split hep
  rw [hmodify f]
  rw [hsplit] at h
  intro x hx
  rcases List.mem_append.mp hx with hl | hcons
  · exact h x (List.mem_append_left _ hl)
  · rcases List.mem_cons.mp hcons with rfl | hr
    · exact hf
    · exact h x (List.mem_append_right _ (List.mem_cons_of_mem _ hr))

variable {addr : UDPAddr}

/-- The endpoint found for a client stays that of the client. -/
theorem bound_modify (hf : ∀ ep, (f ep).client = ep.client) {j : Nat}
    (h : ∃ ep, w.endpoints[j]? = some ep ∧ sameAddr ep.client addr = true) :
    ∃ ep, (w.endpoints.modify k f)[j]? = some ep ∧ sameAddr ep.client addr = true := by
  obtain ⟨ep, hep, hsame⟩ := h
  refine ⟨_, getElem?_modify_iff.mpr ⟨ep, hep, rfl⟩, ?_⟩
  split
  · rw [hf]
    exact hsame
  · exact hsame

/-- A change of an endpoint that neither writes nor changes whose it is. -/
theorem Apart.setEndpoint (h : Apart w) (hep : w.endpoints[k]? = some ep)
    (hclient : ∀ ep, (f ep).client = ep.client) (hsent : ∀ ep, (f ep).sent = ep.sent)
    (hreplied : ∀ ep, (f ep).replied = ep.replied) (hf : Relayed (f ep)) :
    Apart (w.setEndpoint k f) where
  distinct := distinct_modify hclient h.distinct
  bound j addr bytes hmain := bound_modify hclient (h.bound j addr bytes hmain)
  forwarded a := by
    have hsame : ofClient Endpoint.sent a (f ep) = ofClient Endpoint.sent a ep := by
      simp only [ofClient, hclient, hsent]
    simp only [Worker.setEndpoint, flatMap_modify hep hsame]
    exact h.forwarded a
  answered a := by
    have hsame : ofClient Endpoint.replied a (f ep) = ofClient Endpoint.replied a ep := by
      simp only [ofClient, hclient, hreplied]
    simp only [Worker.setEndpoint, flatMap_modify hep hsame]
    exact h.answered a
  relayed := relayed_modify h.relayed hep hf

variable {bytes : List UInt8}

/-- A write to an endpoint changes what is written for its client and for no other. -/
theorem flatMap_write (h : Apart w) {field : Endpoint → List (List UInt8)}
    (hep : w.endpoints[k]? = some ep) (hclient : (f ep).client = ep.client)
    (hfield : field (f ep) = field ep ++ [bytes]) (a : UDPAddr) :
    (w.endpoints.modify k f).flatMap (ofClient field a) =
      w.endpoints.flatMap (ofClient field a) ++ payloads a [(ep.client, bytes)] := by
  rw [payloads_singleton]
  cases hsame : sameAddr ep.client a with
  | true =>
    refine flatMap_modify_snoc h.distinct hep (fun y hy => ofClient_of_distinct hsame (.inl hy)) ?_
    simp only [ofClient, hclient, hsame, if_true, hfield]
  | false =>
    have hkept : ofClient field a (f ep) = ofClient field a ep := by
      simp only [ofClient, hclient, hsame, Bool.false_eq_true, if_false]
    simp [flatMap_modify hep hkept]

theorem payloads_singleton_congr {addr' : UDPAddr} (h : sameAddr addr addr' = true)
    (bytes : List UInt8) (a : UDPAddr) :
    payloads a [(addr, bytes)] = payloads a [(addr', bytes)] := by
  rw [sameAddr_iff] at h
  simp only [payloads_singleton, sameAddr_eq_decide, h]

/-- The goroutine of an endpoint takes a packet in hand. -/
theorem Relayed.received {packet : List UInt8} {rest : List (List UInt8)} (h : Relayed ep)
    (hrelay : ep.relay = .reading) (hopen : ep.closed = false)
    (hinbox : ep.inbox = packet :: rest) :
    Relayed { ep with
      inbox := rest,
      relay := if packet.take bufSize = [] then .reading else .writing (packet.take bufSize) } := by
  have hrunning := h.running hopen (by simp [hrelay])
  rw [hrelay, hinbox, cut_cons] at hrunning
  have hall : ep.replied ++ (if packet.take bufSize = [] then RelayAt.reading
      else .writing (packet.take bufSize)).inHand ++ cut rest = cut ep.served := by
    rw [← hrunning]
    split <;> simp [RelayAt.inHand]
  exact ⟨⟨_, hall⟩, fun _ _ => hall⟩

/-- What the goroutine had in hand is lost when it returns. -/
theorem Relayed.returned (h : Relayed ep) : Relayed { ep with relay := .returned } := by
  refine ⟨?_, fun _ hne => absurd rfl hne⟩
  simp only [RelayAt.inHand, List.append_nil]
  exact (List.prefix_append _ _).trans h.relays

/-- What it had in hand is written. -/
theorem Relayed.replied (h : Relayed ep) (hrelay : ep.relay = .writing bytes) :
    Relayed { ep with relay := .reading, replied := ep.replied ++ [bytes] } := by
  obtain ⟨hrelays, hrunning⟩ := h
  simp only [hrelay, RelayAt.inHand] at hrelays hrunning
  refine ⟨by simpa [RelayAt.inHand] using hrelays, fun hopen _ => ?_⟩
  simpa [RelayAt.inHand] using hrunning hopen (by simp)

/-- The real server answers. -/
theorem Relayed.served {packet : List UInt8} (h : Relayed ep) :
    ep.closed = false → Relayed { ep with
      inbox := ep.inbox ++ [packet], served := ep.served ++ [packet] } := by
  intro hopen
  refine ⟨?_, fun _ hne => ?_⟩
  · simp only [cut_append]
    exact h.relays.trans (List.prefix_append _ _)
  · simp only [cut_append]
    rw [← List.append_assoc, h.running hopen hne]

/-- No endpoint is the client's. -/
theorem client_of_load_none (hload : w.load addr = none) (hep : ep ∈ w.endpoints) :
    sameAddr ep.client addr = false :=
  List.findIdx?_eq_none_iff.mp hload ep hep

/-- Nothing was written for a client without an endpoint. -/
theorem flatMap_of_load_none (hload : w.load addr = none) (hsame : sameAddr addr a = true)
    (field : Endpoint → List (List UInt8)) :
    w.endpoints.flatMap (ofClient field a) = [] := by
  rw [List.flatMap_eq_nil_iff]
  intro ep hep
  have hother := client_of_load_none hload hep
  exact ofClient_of_distinct (x := { client := addr }) hsame (.inr hother)

/-- A new endpoint has nothing written. -/
theorem Apart.dialed (h : Apart w) (hmain : w.main = .finding addr bytes)
    (hload : w.load addr = none) :
    Apart { w with
      endpoints := w.endpoints ++ [{ client := addr }],
      main := .writing w.endpoints.length addr bytes } := by
  refine ⟨?_, ?_, fun a => ?_, fun a => ?_, ?_⟩
  · refine List.pairwise_append.mpr ⟨h.distinct, List.pairwise_singleton _ _, ?_⟩
    intro x hx y hy
    rw [List.mem_singleton.mp hy]
    exact client_of_load_none hload hx
  · rintro k addr' bytes' hwriting
    cases hwriting
    exact ⟨{ client := addr }, by simp, sameAddr_iff.mpr rfl⟩
  · have hforwarded := h.forwarded a
    rw [hmain] at hforwarded
    simpa [ofClient, MainAt.inHand] using hforwarded
  · simpa [ofClient] using h.answered a
  · intro ep hep
    rcases List.mem_append.mp hep with hold | hadded
    · exact h.relayed ep hold
    · rw [List.mem_singleton.mp hadded]
      exact ⟨by simp [RelayAt.inHand], fun _ _ => rfl⟩

/-- A step keeps the sessions apart. -/
theorem Apart.step (h : Apart w) (hstep : w.step e = some (w', o)) : Apart w' := by
  obtain ⟨hdistinct, hbound, hforwarded, hanswered, hrelayed⟩ := h
  have h : Apart w := ⟨hdistinct, hbound, hforwarded, hanswered, hrelayed⟩
  cases step_transition hstep with
  | blocked | unknown | undelivered | waited => exact h
  | arrived | cancelled | vnetClosed | readEmpty =>
    exact ⟨hdistinct, hbound, hforwarded, hanswered, hrelayed⟩
  | started hmain | unstarted hmain | readShort hmain | readClosed hmain | unwritten hmain =>
    refine ⟨hdistinct, by simp, fun a => ?_, hanswered, hrelayed⟩
    simpa [hmain, MainAt.inHand] using hforwarded a
  | readSome hmain =>
    refine ⟨hdistinct, by simp, fun a => ?_, hanswered, hrelayed⟩
    have hbefore := hforwarded a
    rw [hmain] at hbefore
    simp only [MainAt.inHand, payloads_append, payloads_nil, List.append_nil] at hbefore ⊢
    rw [hbefore]
  | @found dialed addr bytes k hmain hload =>
    refine ⟨hdistinct, ?_, fun a => ?_, hanswered, hrelayed⟩
    · rintro k' addr' bytes' hwriting
      cases hwriting
      obtain ⟨hk, hsame, -⟩ := List.findIdx?_eq_some_iff_getElem.mp hload
      exact ⟨w.endpoints[k], List.getElem?_eq_getElem hk, hsame⟩
    · simpa [hmain, MainAt.inHand] using hforwarded a
  | dialed hmain hload => exact h.dialed hmain hload
  | @undialed addr bytes hmain hload =>
    refine ⟨hdistinct, by simp, fun a => ?_, hanswered, hrelayed⟩
    have hbefore := hforwarded a
    rw [hmain] at hbefore
    simp only [MainAt.inHand, payloads_append, payloads_nil, List.append_nil] at hbefore ⊢
    rw [hbefore, payloads_singleton]
    -- what is dropped comes before everything that is written for its client
    cases hsame : sameAddr addr a with
    | true => rw [flatMap_of_load_none hload hsame, List.append_nil, List.append_nil]
    | false => simp
  | @written k addr bytes ep hmain hep hopen =>
    obtain ⟨ep', hep', hsame⟩ := hbound k addr bytes hmain
    cases hep.symm.trans hep'
    refine ⟨distinct_modify (fun _ => rfl) hdistinct, by simp, fun a => ?_, fun a => ?_,
      relayed_modify hrelayed hep ?_⟩
    · have hbefore := hforwarded a
      rw [hmain] at hbefore
      simp only [Worker.setEndpoint]
      rw [flatMap_write h hep rfl rfl, payloads_singleton_congr hsame, hbefore]
      simp [MainAt.inHand]
    · simp only [Worker.setEndpoint]
      rw [flatMap_modify hep rfl]
      exact hanswered a
    · exact ⟨(hrelayed ep (List.mem_of_getElem? hep)).relays,
        (hrelayed ep (List.mem_of_getElem? hep)).running⟩
  | served hep hopen =>
    exact h.setEndpoint hep (fun _ => rfl) (fun _ => rfl) (fun _ => rfl)
      ((hrelayed _ (List.mem_of_getElem? hep)).served hopen)
  | readFailed hep _ | unreplied hep _ =>
    exact h.setEndpoint hep (fun _ => rfl) (fun _ => rfl) (fun _ => rfl)
      (hrelayed _ (List.mem_of_getElem? hep)).returned
  | received hep hrelay hopen hinbox =>
    exact h.setEndpoint hep (fun _ => rfl) (fun _ => rfl) (fun _ => rfl)
      ((hrelayed _ (List.mem_of_getElem? hep)).received hrelay hopen hinbox)
  | @replied k ep bytes hep hrelay =>
    refine ⟨distinct_modify (fun _ => rfl) hdistinct,
      fun j addr bytes hmain => ?_, fun a => ?_, fun a => ?_,
      relayed_modify hrelayed hep ((hrelayed ep (List.mem_of_getElem? hep)).replied hrelay)⟩
    · simp only [Worker.setEndpoint]
      exact bound_modify (fun _ => by rfl) (hbound j addr bytes hmain)
    · simp only [Worker.setEndpoint]
      rw [flatMap_modify hep rfl]
      exact hforwarded a
    · simp only [Worker.setEndpoint]
      rw [flatMap_write h hep rfl rfl, payloads_append, hanswered a]
  | delivered hload =>
    obtain ⟨hk, -, -⟩ := List.findIdx?_eq_some_iff_getElem.mp hload
    have hep := List.getElem?_eq_getElem hk
    have hrel := hrelayed _ (List.mem_of_getElem? hep)
    exact h.setEndpoint hep (fun _ => rfl) (fun _ => rfl) (fun _ => rfl)
      ⟨hrel.relays, hrel.running⟩
  | realClosed hcancelled hep hopen =>
    exact h.setEndpoint hep (fun _ => rfl) (fun _ => rfl) (fun _ => rfl)
      ⟨(hrelayed _ (List.mem_of_getElem? hep)).relays, by simp⟩

/-- A run keeps the sessions apart. -/
theorem apart_run {server : UDPAddr} {es : List WorkerEvent} {os : List Outcome}
    (hrun : run Worker.step { server := server } es = some (w, os)) : Apart w :=
  keeps_of_step (fun h hstep => h.step hstep)
    ⟨.nil, by simp, fun _ => rfl, fun _ => rfl, by simp⟩ hrun

/-- What the endpoints hold for a client is in its own. -/
theorem Apart.own (h : Apart w) (hep : w.endpoints[k]? = some ep)
    (field : Endpoint → List (List UInt8)) :
    w.endpoints.flatMap (ofClient field ep.client) = field ep := by
  have hself : sameAddr ep.client ep.client = true := sameAddr_iff.mpr rfl
  rw [flatMap_eq_of_pairwise h.distinct hep fun y hy => ofClient_of_distinct hself hy, ofClient,
    if_pos hself]

/-- What a client got is what its endpoint wrote. -/
theorem Apart.replies (h : Apart w) (hep : w.endpoints[k]? = some ep) :
    payloads ep.client w.replies = ep.replied := by
  rw [h.answered, h.own hep]

end Endpoints

/-- The datagrams that are not dropped for being empty. -/
def nonEmpty (ds : List Datagram) : List (UDPAddr × List UInt8) :=
  (ds.filter (·.data ≠ [])).map fun d => (d.src, d.data)

theorem nonEmpty_append (l r : List Datagram) : nonEmpty (l ++ r) = nonEmpty l ++ nonEmpty r := by
  simp [nonEmpty]

/-- The goroutine of the worker has returned. -/
def MainAt.isEnded : MainAt → Bool
  | ended _ => true
  | _ => false

/-- The goroutine of the worker reads what the socket took in, in order, until it returns. -/
structure Read (w : Worker) : Prop where
  reads : w.received <+: nonEmpty w.accepted
  running : w.main.isEnded = false → w.received ++ nonEmpty w.inbox = nonEmpty w.accepted

/-- A step keeps the order of reading. -/
theorem Read.step {w w' : Worker} {e : WorkerEvent} {o : Outcome} (h : Read w)
    (hstep : w.step e = some (w', o)) : Read w' := by
  obtain ⟨hreads, hrunning⟩ := h
  cases step_transition hstep with
  | arrived =>
    refine ⟨?_, fun hmain => ?_⟩
    · rw [nonEmpty_append]
      exact hreads.trans (List.prefix_append _ _)
    · rw [nonEmpty_append, nonEmpty_append, ← List.append_assoc, hrunning hmain]
  | unstarted | readShort | readClosed | unwritten =>
    exact ⟨hreads, fun hmain => by cases hmain⟩
  | readEmpty hmain hinbox hdata =>
    refine ⟨hreads, fun hrun => ?_⟩
    have hbefore := hrunning hrun
    rw [hinbox] at hbefore
    simpa [nonEmpty, hdata] using hbefore
  | @readSome d rest hmain hinbox hdata _ =>
    have hbefore := hrunning (by rw [hmain]; rfl)
    rw [hinbox] at hbefore
    have hafter : w.received ++ [(d.src, d.data)] ++ nonEmpty rest = nonEmpty w.accepted := by
      simpa [nonEmpty, hdata] using hbefore
    exact ⟨⟨_, hafter⟩, fun _ => hafter⟩
  | started hmain | found hmain | dialed hmain | undialed hmain | written hmain =>
    exact ⟨hreads, fun _ => hrunning (by rw [hmain]; rfl)⟩
  | _ => exact ⟨hreads, hrunning⟩

/-- Two endpoints never have the same client. What was read from a client is what was dropped before
it had a socket, what was then written to its socket, and at most one datagram more, in this order;
what was written back to it is what its own socket received, in order and without a gap as long as
the socket is open and its goroutine runs. Nothing is written to anyone else. -/
theorem sessions_stay_apart {server : UDPAddr} {es : List WorkerEvent} {os : List Outcome}
    {w : Worker} (hrun : run Worker.step { server := server } es = some (w, os)) :
    (w.endpoints.Pairwise fun x y => sameAddr x.client y.client = false) ∧
    w.received <+: nonEmpty w.accepted ∧
    (∀ reply ∈ w.replies, ∃ ep ∈ w.endpoints, sameAddr ep.client reply.1 = true) ∧
    ∀ ep ∈ w.endpoints,
      payloads ep.client w.received =
        payloads ep.client w.dropped ++ ep.sent ++ payloads ep.client w.main.inHand ∧
      payloads ep.client w.replies = ep.replied ∧ ep.replied <+: cut ep.served ∧
      (ep.closed = false → ep.relay ≠ .returned →
        ep.replied ++ ep.relay.inHand ++ cut ep.inbox = cut ep.served) := by
  have hapart : Apart w := apart_run hrun
  have hread : Read w := keeps_of_step (fun h hstep => h.step hstep)
    ⟨List.prefix_refl _, fun _ => rfl⟩ hrun
  refine ⟨hapart.distinct, hread.reads, fun reply hreply => ?_, fun ep hep => ?_⟩
  · have hsome : reply.2 ∈ payloads reply.1 w.replies :=
      List.mem_map_of_mem (List.mem_filter.mpr ⟨hreply, sameAddr_iff.mpr rfl⟩)
    rw [hapart.answered, List.mem_flatMap] at hsome
    obtain ⟨ep, hep, hmem⟩ := hsome
    refine ⟨ep, hep, ?_⟩
    by_contra hother
    simp [ofClient, hother] at hmem
  · obtain ⟨k, hk⟩ := List.mem_iff_getElem?.mp hep
    have hforwarded := hapart.forwarded ep.client
    rw [hapart.own hk] at hforwarded
    have hrelayed := hapart.relayed ep hep
    exact ⟨hforwarded, hapart.replies hk, (List.prefix_append _ _).trans hrelayed.relays,
      hrelayed.running⟩

/-- A server of concrete runs. -/
def realServer : UDPAddr := ⟨IP.v4 10 0 0 1, 9000⟩

/-- A client of concrete runs. -/
def clientAt (port : Int) : UDPAddr := ⟨IP.v4 10 0 0 2, port⟩

/-- A datagram of a client to the real server. -/
def datagramFrom (port : Int) (data : List UInt8) : Datagram :=
  ⟨"", clientAt port, realServer, data⟩

/-- Two clients whose datagrams and answers are interleaved. -/
theorem sessions_stay_apart_two : ∃ w os, run Worker.step { server := realServer }
    [.start true, .arrive (datagramFrom 1 [1]), .arrive (datagramFrom 2 [2]),
      .arrive (datagramFrom 1 [3]), .read, .find true, .write true, .read, .find true, .write true,
      .serve 1 [8], .serve 0 [9], .read, .find true, .receive 0 true, .receive 1 true,
      .reply 1 true, .write true, .reply 0 true] = some (w, os) ∧
    w.endpoints.map (fun ep => (ep.client, ep.sent, ep.replied)) =
      [(clientAt 1, [[1], [3]], [[9]]), (clientAt 2, [[2]], [[8]])] ∧
    w.endpoints.Pairwise fun x y => sameAddr x.client y.client = false := by
  refine exists_run (fun w _ => w.endpoints.map (fun ep => (ep.client, ep.sent, ep.replied)) =
    [(clientAt 1, [[1], [3]], [[9]]), (clientAt 2, [[2]], [[8]])]) (by decide +kernel) ?_
  exact fun w os hrun hw => ⟨hw, (sessions_stay_apart hrun).1⟩

end PionTransport.Vnet.Proxies
