import PionTransport.Vnet.Queue

/-!
# Order and closing of a queue

What holds of a queue with any discipline. A discipline that keeps its chunks in
order makes the queue forward a part of what it received, in order and each chunk
once. After `Close` the loop has at most five steps to go, in which it hands on at
most one chunk, and then every waiting call can return. Only a call of the wrapped
NIC that does not return keeps it from them.
-/

namespace PionTransport.Vnet.Queueing

open PionTransport.Core

variable {δ β κ : Type} {D : Discipline δ β κ} {q q' : Queue δ β} {e : Event β κ} {o : Outcome}

/-- A discipline that keeps what it admits in order. -/
structure Discipline.Fifo (D : Discipline δ β κ) (contents : δ → List β) : Prop where
  push : ∀ d c, contents (D.push d c) = contents d ++ [c] ∨ contents (D.push d c) = contents d
  hold : ∀ {d d' t}, D.pop d t = (d', none) → contents d' = contents d
  release : ∀ {d d' t c}, D.pop d t = (d', some c) → contents d = c :: contents d'
  next : ∀ d t a b, contents (D.next d t a b).1 = contents d
  adjust : ∀ d t k, contents (D.adjust d t k) = contents d

/-- The chunk on its way to the wrapped NIC. -/
def LoopAt.inHand : LoopAt β → List β
  | .handing c => [c]
  | _ => []

/-- The chunk on its way into the discipline. -/
def LoopAt.storing : LoopAt β → List β
  | .pushing c => [c]
  | _ => []

namespace Queue

/-- The chunks that were received, in order. -/
def receivedChunks (q : Queue δ β) : List β :=
  q.received.filterMap fun i => q.producers[i]?.map Producer.chunk

/-- Moving a call does not change its chunk. -/
theorem map_chunk_modify {ps : List (Producer β)} (i j : Nat) (pos : ProducerAt) :
    ((ps.modify i fun p => { p with pos })[j]?).map Producer.chunk =
      (ps[j]?).map Producer.chunk := by
  rw [List.getElem?_modify]
  split
  · cases ps[j]? <;> rfl
  · simp

end Queue

/-- What is received, released and forwarded. -/
structure Accounted (contents : δ → List β) (q : Queue δ β) : Prop where
  distinct : q.received.Nodup
  taken : ∀ i, i ∈ q.received ↔ ∃ c, q.producers[i]? = some ⟨c, .taken⟩
  handed : q.popped.map Prod.snd = q.forwarded ++ q.loop.inHand
  ordered : ∃ l, q.receivedChunks = l ++ q.loop.storing ∧
    List.Sublist (q.popped.map Prod.snd ++ contents q.data) l

variable {d : δ}

theorem accounted_new {contents : δ → List β} (h : contents d = []) (now : Int) :
    Accounted contents (newQueue now d) where
  distinct := List.nodup_nil
  taken := by simp [newQueue]
  handed := rfl
  ordered := ⟨[], rfl, by simp [newQueue, h]⟩

variable {contents : δ → List β}

/-- A step that leaves the chunks and their way alone keeps the account. -/
theorem Accounted.congr (h : Accounted contents q) (hreceived : q'.received = q.received)
    (hproducers : q'.producers = q.producers) (hpopped : q'.popped = q.popped)
    (hforwarded : q'.forwarded = q.forwarded) (hhand : q'.loop.inHand = q.loop.inHand)
    (hstoring : q'.loop.storing = q.loop.storing) (hdata : contents q'.data = contents q.data) :
    Accounted contents q' where
  distinct := by rw [hreceived]; exact h.distinct
  taken := by rw [hreceived, hproducers]; exact h.taken
  handed := by rw [hpopped, hforwarded, hhand]; exact h.handed
  ordered := by
    obtain ⟨l, hl, hsub⟩ := h.ordered
    refine ⟨l, ?_, ?_⟩
    · rw [hstoring, ← hl]
      simp only [Queue.receivedChunks, hreceived, hproducers]
    · rw [hpopped, hdata]
      exact hsub

theorem Accounted.call (h : Accounted contents q) (c : β) :
    Accounted contents { q with producers := q.producers ++ [{ chunk := c }] } where
  distinct := h.distinct
  taken := by
    intro i
    rw [h.taken i]
    simp only [getElem?_snoc_iff]
    simp
  handed := h.handed
  ordered := by
    obtain ⟨l, hl, hsub⟩ := h.ordered
    refine ⟨l, ?_, hsub⟩
    rw [← hl]
    apply List.filterMap_congr
    intro i hi
    obtain ⟨d, hd⟩ := (h.taken i).mp hi
    rw [hd, getElem?_snoc_iff.mpr (.inr hd)]

variable {c : β}

/-- A call that returns without its chunk being received. -/
theorem Accounted.giveUp (h : Accounted contents q) {i : Nat}
    (hi : q.producers[i]? = some ⟨c, .sending⟩) :
    Accounted contents (q.moveProducer i .gaveUp) where
  distinct := h.distinct
  taken := by
    intro j
    simp only [Queue.moveProducer, h.taken j, getElem?_modify_of_some hi]
    constructor
    · rintro ⟨d, hd⟩
      refine ⟨d, .inr ⟨?_, hd⟩⟩
      rintro rfl
      rw [hi] at hd
      cases hd
    · rintro ⟨d, ⟨-, hd⟩ | ⟨-, hd⟩⟩
      · cases hd
      · exact ⟨d, hd⟩
  handed := h.handed
  ordered := by
    obtain ⟨l, hl, hsub⟩ := h.ordered
    refine ⟨l, ?_, hsub⟩
    rw [show (q.moveProducer i .gaveUp).loop = q.loop from rfl, ← hl]
    simp only [Queue.receivedChunks, Queue.moveProducer, Queue.map_chunk_modify]

theorem Accounted.receive (h : Accounted contents q) {i : Nat} {timer : Option Int}
    (hi : q.producers[i]? = some ⟨c, .sending⟩) (hloop : q.loop = .selecting timer) :
    Accounted contents { q.moveProducer i .taken with
      loop := .pushing c, received := q.received ++ [i] } where
  distinct := by
    have hnot : i ∉ q.received := by
      intro hmem
      obtain ⟨d, hd⟩ := (h.taken i).mp hmem
      rw [hi] at hd
      cases hd
    exact List.nodup_append.mpr ⟨h.distinct, by simp, by
      rintro j hj k hk rfl
      exact hnot (List.mem_singleton.mp hk ▸ hj)⟩
  taken := by
    intro j
    simp only [Queue.moveProducer, List.mem_append, List.mem_singleton, h.taken j,
      getElem?_modify_of_some hi]
    constructor
    · rintro (⟨d, hd⟩ | rfl)
      · refine ⟨d, .inr ⟨?_, hd⟩⟩
        rintro rfl
        rw [hi] at hd
        cases hd
      · exact ⟨c, .inl ⟨rfl, rfl⟩⟩
    · rintro ⟨d, ⟨rfl, -⟩ | ⟨-, hd⟩⟩
      · exact .inr rfl
      · exact .inl ⟨d, hd⟩
  handed := by
    have hhanded := h.handed
    rw [hloop] at hhanded
    exact hhanded
  ordered := by
    obtain ⟨l, hl, hsub⟩ := h.ordered
    rw [hloop] at hl
    refine ⟨l, ?_, hsub⟩
    have hkept : q.receivedChunks = l := by simpa [LoopAt.storing] using hl
    simp only [Queue.receivedChunks, Queue.moveProducer, Queue.map_chunk_modify,
      List.filterMap_append, List.filterMap_cons, List.filterMap_nil, hi, Option.map_some,
      LoopAt.storing]
    rw [← hkept]
    rfl

theorem Accounted.store (hD : D.Fifo contents) (h : Accounted contents q)
    (hloop : q.loop = .pushing c) :
    Accounted contents { q with data := D.push q.data c, loop := .top } where
  distinct := h.distinct
  taken := h.taken
  handed := by
    have hhanded := h.handed
    rw [hloop] at hhanded
    exact hhanded
  ordered := by
    obtain ⟨l, hl, hsub⟩ := h.ordered
    rw [hloop] at hl
    refine ⟨l ++ [c], ?_, ?_⟩
    · rw [show LoopAt.storing (LoopAt.top : LoopAt β) = [] from rfl, List.append_nil]
      exact hl
    · rcases hD.push q.data c with hpush | hpush
      · dsimp only
        rw [hpush, ← List.append_assoc]
        exact hsub.append_right [c]
      · dsimp only
        rw [hpush]
        exact hsub.trans (List.sublist_append_left l [c])

theorem Accounted.release (hD : D.Fifo contents) (h : Accounted contents q) {data : δ}
    (hloop : q.loop = .popping) (hpop : D.pop q.data q.now = (data, some c)) :
    Accounted contents { q with
      data := data, loop := .handing c, popped := q.popped ++ [(q.now, c)] } where
  distinct := h.distinct
  taken := h.taken
  handed := by
    have hhanded := h.handed
    rw [hloop] at hhanded
    simp only [LoopAt.inHand, List.append_nil] at hhanded
    simp [hhanded, LoopAt.inHand]
  ordered := by
    obtain ⟨l, hl, hsub⟩ := h.ordered
    rw [hloop] at hl
    refine ⟨l, hl, ?_⟩
    rw [hD.release hpop] at hsub
    simpa using hsub

theorem Accounted.hand (h : Accounted contents q) (hloop : q.loop = .handing c) :
    Accounted contents { q with loop := .calling, forwarded := q.forwarded ++ [c] } where
  distinct := h.distinct
  taken := h.taken
  handed := by
    have hhanded := h.handed
    rw [hloop] at hhanded
    simpa [LoopAt.inHand] using hhanded
  ordered := by
    obtain ⟨l, hl, hsub⟩ := h.ordered
    rw [hloop] at hl
    exact ⟨l, hl, hsub⟩

/-- A step keeps the account. -/
theorem Accounted.step (hD : D.Fifo contents) (h : Accounted contents q)
    (hstep : q.step D e = some (q', o)) : Accounted contents q' := by
  cases step_transition hstep with
  | stutter => exact h
  | elapse | close | closeReturn => exact h.congr rfl rfl rfl rfl rfl rfl rfl
  | adjust => exact h.congr rfl rfl rfl rfl rfl rfl (hD.adjust _ _ _)
  | call => exact h.call _
  | receive hi hloop => exact h.receive hi hloop
  | giveUp hi _ => exact h.giveUp hi
  | stop hloop | goOn hloop | idle hloop | fire hloop | handed hloop | observe hloop =>
    exact h.congr rfl rfl rfl rfl (by rw [hloop]; rfl) (by rw [hloop]; rfl) rfl
  | arm hloop _ =>
    exact h.congr rfl rfl rfl rfl (by rw [hloop]; rfl) (by rw [hloop]; rfl) (hD.next _ _ _ _)
  | store hloop => exact h.store hD hloop
  | hold hloop hpop =>
    exact h.congr rfl rfl rfl rfl (by rw [hloop]; rfl) (by rw [hloop]; rfl) (hD.hold hpop)
  | release hloop hpop => exact h.release hD hloop hpop
  | hand hloop => exact h.hand hloop

variable {now : Int} {es : List (Event β κ)} {os : List Outcome}

/-- A run keeps the account. -/
theorem accounted_run (hD : D.Fifo contents) (hd : contents d = [])
    (hrun : run (Queue.step D) (newQueue now d) es = some (q, os)) : Accounted contents q :=
  keeps_of_step (fun h hs => h.step hD hs) (accounted_new hd now) hrun

/-- How many steps the loop has to go after `Close`. -/
def LoopAt.rank : LoopAt β → Nat
  | .exited => 0
  | .top | .calling => 1
  | .pushing _ => 2
  | .handing _ => 2
  | .popping => 3
  | .selecting _ => 4
  | .asking => 5

/-- How many chunks the loop may hand on after `Close`. -/
def LoopAt.pending : LoopAt β → Nat
  | .exited | .top | .calling | .pushing _ => 0
  | .handing _ | .popping | .selecting _ | .asking => 1

/-- How many steps the loop took in a run. -/
def loopMoves (es : List (Event β κ)) (os : List Outcome) : Nat :=
  (es.zip os).countP fun eo => eo.1.ofLoop && eo.2 = .moved

/-- What a step does to a closed queue: the loop comes nearer to its end with each of its steps. -/
structure Winding (q : Queue δ β) (moves : Nat) (q' : Queue δ β) : Prop where
  closed : q'.closed = true
  rank : moves + q'.loop.rank ≤ q.loop.rank
  forwarded : ∃ l, q'.forwarded = q.forwarded ++ l ∧ l.length + q'.loop.pending ≤ q.loop.pending

theorem Winding.refl (h : q.closed = true) : Winding q 0 q where
  closed := h
  rank := by simp
  forwarded := ⟨[], by simp, by simp⟩

theorem Winding.trans {q₁ : Queue δ β} {m n : Nat} (h : Winding q m q₁) (h' : Winding q₁ n q') :
    Winding q (m + n) q' where
  closed := h'.closed
  rank := by
    have hm := h.rank
    have hn := h'.rank
    omega
  forwarded := by
    obtain ⟨l, hl, hlen⟩ := h.forwarded
    obtain ⟨l', hl', hlen'⟩ := h'.forwarded
    refine ⟨l ++ l', by rw [hl', hl, List.append_assoc], ?_⟩
    rw [List.length_append]
    omega

/-- A step of another goroutine. -/
theorem Winding.aside (hclosed : q'.closed = true) (hloop : q'.loop = q.loop)
    (hforwarded : q'.forwarded = q.forwarded) : Winding q 0 q' where
  closed := hclosed
  rank := by simp [hloop]
  forwarded := ⟨[], by simp [hforwarded], by simp [hloop]⟩

/-- A step of the loop that hands nothing on. -/
theorem Winding.quiet (hclosed : q.closed = true) {p p' : LoopAt β} (hloop : q.loop = p)
    (hrank : p'.rank < p.rank) (hpending : p'.pending ≤ p.pending) (hclosed' : q'.closed = q.closed)
    (hloop' : q'.loop = p') (hforwarded : q'.forwarded = q.forwarded) : Winding q 1 q' where
  closed := hclosed'.trans hclosed
  rank := by
    rw [hloop, hloop']
    omega
  forwarded := ⟨[], by simp [hforwarded], by simpa [hloop, hloop'] using hpending⟩

theorem step_winding (hclosed : q.closed = true) (hstep : q.step D e = some (q', o)) :
    Winding q (loopMoves [e] [o]) q' := by
  cases step_transition hstep with
  | stutter =>
    have hzero : loopMoves [e] [Outcome.blocked] = 0 := by simp [loopMoves]
    rw [hzero]
    exact .refl hclosed
  | elapse | adjust | call | giveUp | closeReturn => exact .aside hclosed rfl rfl
  | close => exact .aside rfl rfl rfl
  | handed hloop =>
    -- the loop is as near to its end behind the call as in it
    refine ⟨hclosed, ?_, [], (List.append_nil _).symm, ?_⟩
    · simp [loopMoves, Event.ofLoop, hloop, LoopAt.rank]
    · simp [hloop, LoopAt.pending]
  | goOn _ hopen =>
    rw [hclosed] at hopen
    cases hopen
  | @hand c hloop =>
    refine ⟨hclosed, ?_, [c], rfl, ?_⟩
    · simp [loopMoves, Event.ofLoop, hloop, LoopAt.rank]
    · simp [hloop, LoopAt.pending]
  | receive _ hloop | stop hloop | idle hloop | arm hloop | store hloop | fire hloop | hold hloop
  | release hloop | observe hloop =>
    exact .quiet hclosed hloop (by simp [LoopAt.rank]) (by simp [LoopAt.pending]) rfl rfl rfl

/-- A run of a closed queue. -/
theorem run_winding (hclosed : q.closed = true) (hrun : run (Queue.step D) q es = some (q', os)) :
    Winding q (loopMoves es os) q' := by
  induction hrun using run_induct with
  | nil => exact .refl hclosed
  | @cons _ e _ o es os' hs _ ih =>
    have hfirst := step_winding hclosed hs
    have hsplit : loopMoves (e :: es) (o :: os') = loopMoves [e] [o] + loopMoves es os' := by
      simp only [loopMoves, List.zip_cons_cons, List.countP_cons, List.zip_nil_left,
        List.countP_nil]
      omega
    rw [hsplit]
    exact hfirst.trans (ih hfirst.closed)

/-- A call of `Close` has closed the queue, and returns after the loop. -/
structure Waited (q : Queue δ β) : Prop where
  closed : q.closers ≠ [] → q.closed = true
  returned : .returned ∈ q.closers → q.loop = .exited

theorem Waited.step (h : Waited q) (hstep : q.step D e = some (q', o)) : Waited q' := by
  -- no step leaves `exited`
  have hloop : q.loop = .exited → q'.loop = .exited := by
    intro hexited
    cases step_transition hstep <;> simp_all [Queue.moveProducer]
  cases step_transition hstep with
  | close =>
    refine ⟨fun _ => rfl, fun hmem => h.returned ?_⟩
    simpa using hmem
  | closeReturn hi hexited =>
    refine ⟨fun _ => h.closed ?_, fun _ => hexited⟩
    intro hnil
    rw [hnil] at hi
    cases hi
  | _ => exact ⟨h.closed, fun hmem => hloop (h.returned hmem)⟩

theorem waited_run (hrun : run (Queue.step D) (newQueue now d) es = some (q, os)) : Waited q :=
  keeps_of_step (fun h hs => h.step hs) ⟨fun h => absurd rfl h, by simp [newQueue]⟩ hrun

/-- The loop of a closed queue is never stuck but in the wrapped NIC. -/
theorem loop_moves_of_closed (hclosed : q.closed = true) (hloop : q.loop ≠ .exited)
    (hcalling : q.loop ≠ .calling) :
    ∃ e : Event β κ, e.ofLoop = true ∧ ∃ q', q.step D e = some (q', .moved) := by
  cases h : q.loop with
  | top => exact ⟨.check, rfl, _, by simp [Queue.step, Queue.check, h, hclosed]; rfl⟩
  | asking =>
    refine ⟨.ask 0 0, rfl, ?_⟩
    simp only [Queue.step, Queue.ask, h]
    split <;> exact ⟨_, rfl⟩
  | selecting timer =>
    exact ⟨.observe, rfl, _, by simp [Queue.step, Queue.observe, h, hclosed]; rfl⟩
  | pushing c => exact ⟨.store, rfl, _, by simp [Queue.step, Queue.store, h]; rfl⟩
  | popping =>
    refine ⟨.pop, rfl, ?_⟩
    simp only [Queue.step, Queue.pop, h]
    split <;> exact ⟨_, rfl⟩
  | handing c => exact ⟨.hand, rfl, _, by simp [Queue.step, Queue.hand, h]; rfl⟩
  | calling => exact absurd h hcalling
  | exited => exact absurd h hloop

/-- After `Close` the loop takes at most five more steps and hands on at most one chunk. It never
gets stuck in them, unless the wrapped NIC does not return from the call with that chunk. When it
has ended every call can return, and after a `Close` has returned nothing is handed on. -/
theorem closing_winds_down {es' : List (Event β κ)} {os' : List Outcome}
    (hrun : run (Queue.step D) (newQueue now d) es = some (q, os)) (hclosed : q.closed = true)
    (hrun' : run (Queue.step D) q es' = some (q', os')) :
    loopMoves es' os' ≤ 5 ∧
    (∃ l, q'.forwarded = q.forwarded ++ l ∧ l.length ≤ 1) ∧
    (q'.loop ≠ .exited → q'.loop ≠ .calling → ∃ e : Event β κ, e.ofLoop = true ∧
      ∃ q'', q'.step D e = some (q'', .moved)) ∧
    (q'.loop = .calling → ∃ q'', q'.step D .handed = some (q'', .moved) ∧ q''.loop = .top) ∧
    (∀ i c, q'.producers[i]? = some ⟨c, .sending⟩ →
      ∃ q'', q'.step D (.giveUp i) = some (q'', .moved)) ∧
    (q'.loop = .exited → ∀ i, q'.closers[i]? = some .waiting →
      ∃ q'', q'.step D (.closeReturn i) = some (q'', .moved)) ∧
    (.returned ∈ q.closers → q'.forwarded = q.forwarded) := by
  have hwinding := run_winding hclosed hrun'
  have hrank : q.loop.rank ≤ 5 := by cases q.loop <;> simp [LoopAt.rank]
  obtain ⟨l, hl, hlen⟩ := hwinding.forwarded
  refine ⟨?_, ⟨l, hl, ?_⟩, ?_, ?_, ?_, ?_, ?_⟩
  · have hbound := hwinding.rank
    omega
  · have hpending : q.loop.pending ≤ 1 := by cases q.loop <;> simp [LoopAt.pending]
    omega
  · exact loop_moves_of_closed hwinding.closed
  · intro hcalling
    exact ⟨{ q' with loop := .top }, by simp [Queue.step, Queue.handed, hcalling], rfl⟩
  · intro i c hi
    exact ⟨_, by simp [Queue.step, Queue.giveUp, hi, hwinding.closed]; rfl⟩
  · intro hexited i hi
    exact ⟨_, by simp [Queue.step, Queue.closeReturn, hi, hexited]; rfl⟩
  · intro hreturned
    have hexited := (waited_run hrun).returned hreturned
    have hnil : l = [] := by
      rw [hexited, show (LoopAt.exited : LoopAt β).pending = 0 from rfl] at hlen
      exact List.length_eq_zero_iff.mp (by omega)
    rw [hl, hnil, List.append_nil]

/-- A discipline without limits, whose head can always go. -/
def unlimited (β : Type) : Discipline (List β) β Empty where
  push := fun cs c => cs ++ [c]
  pop := fun cs _ => (cs.tail, cs.head?)
  empty := List.isEmpty
  next := fun cs now _ _ => (cs, now)
  adjust := fun cs _ _ => cs

/-- A queue is closed with one chunk queued and one call waiting; the chunk still goes. -/
theorem closing_winds_down_one_queued :
    let q : Queue (List Nat) Nat :=
      { data := [7], now := 0, closed := true, loop := .selecting (some 0), closers := [.waiting]
        producers := [⟨7, .taken⟩, ⟨8, .sending⟩], received := [0] }
    let q' : Queue (List Nat) Nat :=
      { data := [], now := 0, closed := true, loop := .exited, closers := [.returned]
        producers := [⟨7, .taken⟩, ⟨8, .gaveUp⟩], received := [0], popped := [(0, 7)]
        forwarded := [7] }
    run (Queue.step (unlimited Nat)) (newQueue 0 [])
      [.call 7, .check, .ask 0 0, .receive 0, .store, .check, .ask 0 0, .call 8, .close] =
        some (q, List.replicate 9 .moved) ∧
    run (Queue.step (unlimited Nat)) q
      [.fire, .pop, .hand, .handed, .check, .giveUp 1, .closeReturn 0] =
        some (q', List.replicate 7 .moved) ∧
    ∃ l, q'.forwarded = q.forwarded ++ l ∧ l.length ≤ 1 := by
  intro q q'
  have hrun : run (Queue.step (unlimited Nat)) (newQueue 0 [])
      [.call 7, .check, .ask 0 0, .receive 0, .store, .check, .ask 0 0, .call 8, .close] =
        some (q, List.replicate 9 .moved) := by decide
  have hrun' : run (Queue.step (unlimited Nat)) q
      [.fire, .pop, .hand, .handed, .check, .giveUp 1, .closeReturn 0] =
        some (q', List.replicate 7 .moved) := by decide
  exact ⟨hrun, hrun', (closing_winds_down hrun rfl hrun').2.1⟩

end PionTransport.Vnet.Queueing
