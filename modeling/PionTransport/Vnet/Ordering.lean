import PionTransport.Vnet.Loop
import PionTransport.Vnet.RouterSteps

/-!
# The loop keeps order and strands no chunk

Along every run the chunks that were pushed are those that were taken, in the
same order, followed by those that are still in the queue. A chunk is taken only
by a `processChunks` that was entered when it was due. Whenever the goroutine
waits for `pushCh` while a chunk is in the queue, the slot of `pushCh` is full.
-/

namespace PionTransport.Vnet

open PionTransport.Core

/-- What a run with the outputs `os` from a queue with the chunks `initial` leads to. -/
structure InOrder (initial : List Chunk) (minDelay : Int) (os : List LoopOutcome) (l : Loop) :
    Prop where
  minDelay_eq : l.router.minDelay = minDelay
  order : initial ++ os.filterMap LoopOutcome.pushed? =
    os.filterMap LoopOutcome.taken? ++ l.router.queue.chunks
  due : ∀ enteredAt c result, .taken enteredAt c result ∈ os →
    c.getTimestamp + minDelay ≤ enteredAt
  awake : l.pc = .parked → l.router.queue.chunks ≠ [] → l.pushCh = true

section Steps

variable {initial : List Chunk} {minDelay : Int} {os : List LoopOutcome} {l l' : Loop}
  {e : LoopEvent} {o : LoopOutcome}

/-- A step that neither pushes nor takes a chunk. -/
theorem InOrder.quiet (h : InOrder initial minDelay os l) (hpushed : o.pushed? = none)
    (htaken : o.taken? = none) (hdelay : l'.router.minDelay = l.router.minDelay)
    (hqueue : l'.router.queue = l.router.queue)
    (hawake : l'.pc = .parked → l'.router.queue.chunks ≠ [] → l'.pushCh = true) :
    InOrder initial minDelay (os ++ [o]) l' where
  minDelay_eq := hdelay.trans h.minDelay_eq
  order := by
    rw [List.filterMap_append, List.filterMap_append, hqueue]
    simpa [hpushed, htaken] using h.order
  due enteredAt c result hmem := by
    obtain hmem | hmem := List.mem_append.mp hmem
    · exact h.due enteredAt c result hmem
    · cases List.mem_singleton.mp hmem
      cases htaken
  awake := hawake

theorem InOrder.step (h : InOrder initial minDelay os l) (ht : LoopTransition l e l' o) :
    InOrder initial minDelay (os ++ [o]) l' := by
  cases ht with
  | blocked | dropped | inbound | stop => exact h.quiet rfl rfl rfl rfl h.awake
  | @pushed now c queue hunlocked hchunks =>
    refine ⟨h.minDelay_eq, ?_, fun enteredAt c' result hmem => ?_, fun _ _ => rfl⟩
    · rw [List.filterMap_append, List.filterMap_append]
      change initial ++ (_ ++ [c.setTimestamp now]) = (_ ++ []) ++ queue.chunks
      rw [hchunks, ← List.append_assoc, h.order, List.append_nil, List.append_assoc]
    · obtain hmem | hmem := List.mem_append.mp hmem
      · exact h.due enteredAt c' result hmem
      · cases List.mem_singleton.mp hmem
  | enter | early | back | wake | tick | cancel => exact h.quiet rfl rfl rfl rfl nofun
  | drained hpc hempty =>
    refine h.quiet rfl rfl rfl rfl fun _ hne => ?_
    exact absurd hempty hne
  | @taken now enteredAt c queue router result hpc hchunks hdue hroute =>
    obtain ⟨nat, halted, rfl⟩ := route_frame hroute
    refine ⟨h.minDelay_eq, ?_, fun enteredAt' c' result' hmem => ?_, fun hparked => ?_⟩
    · rw [List.filterMap_append, List.filterMap_append]
      change initial ++ (_ ++ []) = (_ ++ [c]) ++ queue.chunks
      rw [List.append_nil, h.order, hchunks, List.append_assoc]
      rfl
    · obtain hmem | hmem := List.mem_append.mp hmem
      · exact h.due enteredAt' c' result' hmem
      · cases List.mem_singleton.mp hmem
        rw [← h.minDelay_eq]
        exact hdue
    · change LoopAt.after enteredAt result = .parked at hparked
      unfold LoopAt.after at hparked
      split at hparked <;> cases hparked

/-- Whole runs. -/
theorem InOrder.run {es : List LoopEvent} {os' : List LoopOutcome}
    (h : InOrder initial minDelay os l) (hrun : run Loop.step l es = some (l', os')) :
    InOrder initial minDelay (os ++ os') l' :=
  keeps_outputs (P := fun _ _ => True) (fun h _ hstep => InOrder.step h (step_transition hstep)) os
    h (along_of_forall (fun _ _ => trivial) l es) hrun

end Steps

/-- What `processChunks` returns, on any router. -/
theorem processed_duration {l l' : Loop} {e : LoopEvent} {enteredAt duration : Int}
    (ht : LoopTransition l e l' (.processed enteredAt duration)) :
    l.pc = .scanning enteredAt ∧ l'.router = l.router ∧
      (0 < duration ↔ ∃ c, l.router.queue.peek = some c ∧
        enteredAt < c.getTimestamp + l.router.minDelay) ∧
      (∀ c, l.router.queue.peek = some c →
        duration = c.getTimestamp + l.router.minDelay - enteredAt) ∧
      (0 < duration → l'.pc = .sleeping duration) ∧ (duration ≤ 0 → l'.pc = .parked) := by
  cases ht with
  | drained hpc hempty =>
    have hpeek : l.router.queue.peek = none := by rw [ChunkQueue.peek, hempty]; rfl
    refine ⟨hpc, rfl, ?_, ?_, ?_, fun _ => rfl⟩
    · simp [hpeek]
    · simp [hpeek]
    · intro hpos
      cases hpos
  | @early now enteredAt c rest hpc hchunks hlate =>
    have hpeek : l.router.queue.peek = some c := by rw [ChunkQueue.peek, hchunks]; rfl
    refine ⟨hpc, rfl, ⟨fun _ => ⟨c, hpeek, hlate⟩, fun _ => by omega⟩, ?_, fun _ => rfl, ?_⟩
    · intro c' hc'
      rw [hpeek] at hc'
      cases hc'
      rfl
    · intro hneg
      omega

/-- The loop of a router keeps order, respects the minimum delay and strands no chunk, from any
queue and whatever happens around it. -/
theorem loop_keeps_order (l₀ : Loop) (hstart : l₀.pc = .entering) {es : List LoopEvent} {l : Loop}
    {os : List LoopOutcome} (hrun : run Loop.step l₀ es = some (l, os)) :
    l₀.router.queue.chunks ++ os.filterMap LoopOutcome.pushed? =
        os.filterMap LoopOutcome.taken? ++ l.router.queue.chunks ∧
      (∀ enteredAt c result, .taken enteredAt c result ∈ os →
        c.getTimestamp + l₀.router.minDelay ≤ enteredAt) ∧
      (∀ e l' enteredAt duration, l.step e = some (l', .processed enteredAt duration) →
        l.pc = .scanning enteredAt ∧ l'.router = l.router ∧
        (0 < duration ↔ ∃ c, l.router.queue.peek = some c ∧
          enteredAt < c.getTimestamp + l₀.router.minDelay) ∧
        (∀ c, l.router.queue.peek = some c →
          duration = c.getTimestamp + l₀.router.minDelay - enteredAt) ∧
        (0 < duration → l'.pc = .sleeping duration) ∧ (duration ≤ 0 → l'.pc = .parked)) ∧
      (l.pc = .parked → l.pushCh = false → l.router.queue.chunks = []) := by
  have h₀ : InOrder l₀.router.queue.chunks l₀.router.minDelay [] l₀ := by
    refine ⟨rfl, by simp, fun _ _ _ hmem => ?_, fun hparked => ?_⟩
    · cases hmem
    · rw [hstart] at hparked
      cases hparked
  have h := h₀.run hrun
  rw [List.nil_append] at h
  refine ⟨h.order, h.due, fun e l' enteredAt duration hstep => ?_, fun hparked hch => ?_⟩
  · have hprocessed := processed_duration (step_transition hstep)
    rwa [h.minDelay_eq] at hprocessed
  · by_contra hne
    rw [h.awake hparked hne] at hch
    cases hch

/-- A started router of `10.0.0.0/24` with one host, a translator of the parent's address
`5.6.7.1`, and a minimum delay of 5. -/
def lan : Router where
  ipv4Net := ⟨⟨10, 0, 0, 0⟩, 24⟩
  staticIPs := []
  staticLocalIPs := ∅
  lastID := 1
  eth0 := [⟨5, 6, 7, 1⟩]
  queue := newChunkQueue 0 0
  parent := some 0
  natType := some defaultNATType
  nat := some
    { natType := defaultNATType, mappedIPs := [⟨5, 6, 7, 1⟩], localIPs := [], mappings := []
      outboundMap := ∅, inboundMap := ∅, udpPortCounter := 0, tcpPortCounter := 0 }
  nics := (∅ : AList fun _ : String => NIC).insert "10.0.0.1" (.host 0)
  chunkFilters := []
  minDelay := 5
  started := true
  halted := false
  pending := none

/-- A chunk of `10.0.0.2`. -/
def lanChunk (destinationIP : IPv4) (tag : String) : Chunk :=
  .udp ⟨⟨0, ⟨10, 0, 0, 2⟩, destinationIP, tag, false⟩, 1234, 5678, []⟩

/-- Two chunks, the second one pushed during the call of the host for the first one. -/
def delayed : List LoopEvent :=
  [.push 1 (lanChunk ⟨10, 0, 0, 1⟩ "a"), .enter 2, .scan 2, .tick, .enter 6, .scan 6,
    .push 7 (lanChunk ⟨10, 0, 0, 1⟩ "b"), .back, .scan 7, .tick, .enter 12, .scan 12, .back,
    .scan 12, .wake, .enter 13, .scan 13]

theorem loop_keeps_order_delayed :
    ∃ l os, run Loop.step { router := lan } delayed = some (l, os) ∧ l.pc = .parked ∧
      l.pushCh = false ∧ l.router.queue.chunks = [] ∧
      os.filterMap LoopOutcome.pushed? = os.filterMap LoopOutcome.taken? ∧
      (os.filterMap LoopOutcome.taken?).map Chunk.tag = ["a", "b"] := by
  refine exists_run (fun l os => l.pc = .parked ∧ l.pushCh = false ∧
    (os.filterMap LoopOutcome.taken?).map Chunk.tag = ["a", "b"]) (by decide +kernel) ?_
  rintro l os hrun ⟨hparked, hempty, htags⟩
  obtain ⟨horder, -, -, hqueue⟩ := loop_keeps_order { router := lan } rfl hrun
  have hqueue := hqueue hparked hempty
  rw [hqueue, List.append_nil] at horder
  exact ⟨hparked, hempty, hqueue, horder, htags⟩

end PionTransport.Vnet
