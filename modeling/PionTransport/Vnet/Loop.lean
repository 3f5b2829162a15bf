import PionTransport.Vnet.Moves

/-!
# The loop of a router

The goroutine that `Start` leaves behind, next to any number of callers of
`push`. It calls `processChunks`, which holds the router's mutex except around
the calls of a NIC or of the parent, and then waits for `pushCh`, or for a timer
if the head of the queue is not due. `pushCh` has one slot. `none` is a runtime
panic.
-/

namespace PionTransport.Vnet

/-- Where the goroutine of a router is. -/
inductive LoopAt
  /-- in front of `processChunks` -/
  | entering
  /-- in the loop of a `processChunks` that was entered at `enteredAt`, with the mutex -/
  | scanning (enteredAt : Int)
  /-- in a call of a NIC or of the parent, without the mutex -/
  | calling (enteredAt : Int) (call : Handover)
  /-- waits for `pushCh` -/
  | parked
  /-- waits for a timer -/
  | sleeping (duration : Int)
  /-- has left its loop -/
  | ended
  deriving DecidableEq, Repr

/-- Where the goroutine is after an iteration that has taken a chunk. -/
def LoopAt.after (enteredAt : Int) : Except Fate Handover → LoopAt
  | .ok call => .calling enteredAt call
  | .error (.failed _) => .ended
  | .error _ => .scanning enteredAt

/-- A started router and its goroutine. -/
structure Loop where
  router : Router
  pushCh : Bool := false
  /-- `cancelCh` is closed -/
  cancelled : Bool := false
  pc : LoopAt := .entering

/-- The steps of the goroutine and of those around it. -/
inductive LoopEvent
  | push (now : Int) (c : Chunk)
  /-- `onInboundChunk` translates a chunk of the parent before it pushes the result -/
  | inbound (now : Int) (c : Chunk)
  /-- call `processChunks`, which sleeps for the jitter and reads the clock -/
  | enter (now : Int)
  /-- one iteration of the loop of `processChunks` -/
  | scan (now : Int)
  /-- the call of the NIC or of the parent returns -/
  | back
  /-- receive from `pushCh` -/
  | wake
  /-- the timer fires -/
  | tick
  | stop
  /-- receive from `cancelCh` -/
  | cancel
  deriving DecidableEq, Repr

/-- What a step is seen to do. -/
inductive LoopOutcome
  | blocked
  | moved
  /-- a chunk is put into the queue -/
  | pushed (c : Chunk)
  /-- a chunk is refused by a full queue or a stopped router -/
  | dropped
  /-- a chunk is taken from the queue, and what becomes of it -/
  | taken (enteredAt : Int) (c : Chunk) (result : Except Fate Handover)
  /-- `processChunks` returns a duration -/
  | processed (enteredAt duration : Int)

namespace LoopOutcome

/-- The chunk put into the queue. -/
def pushed? : LoopOutcome → Option Chunk
  | pushed c => some c
  | blocked | moved | dropped | taken .. | processed .. => none

/-- The chunk taken from the queue. -/
def taken? : LoopOutcome → Option Chunk
  | taken _ c _ => some c
  | blocked | moved | pushed _ | dropped | processed .. => none

end LoopOutcome

namespace Loop

/-- The goroutine holds the mutex of the router. -/
def locked (l : Loop) : Bool :=
  match l.pc with
  | .scanning _ => true
  | .entering | .calling .. | .parked | .sleeping _ | .ended => false

/-- `processChunks` has returned a duration. -/
def processed (l : Loop) (enteredAt duration : Int) : Loop × LoopOutcome :=
  ({ l with pc := if duration ≤ 0 then .parked else .sleeping duration },
    .processed enteredAt duration)

/-- One iteration of the loop of `processChunks`. -/
def scan (l : Loop) (enteredAt now : Int) : Option (Loop × LoopOutcome) :=
  match l.router.queue.peek with
  | none => some (l.processed enteredAt 0)
  | some chunk =>
    if chunk.getTimestamp > enteredAt - l.router.minDelay then
      some (l.processed enteredAt (chunk.getTimestamp + l.router.minDelay - enteredAt))
    else
      match l.router.queue.pop with
      | none => some (l.processed enteredAt 0)
      | some (chunk, queue) =>
        match { l.router with queue }.route now chunk with
        | none => none
        | some (router, result) =>
          some ({ l with router, pc := .after enteredAt result }, .taken enteredAt chunk result)

/-- One step. -/
def step (l : Loop) : LoopEvent → Option (Loop × LoopOutcome)
  | .push now c =>
    if l.locked then some (l, .blocked)
    else
      match l.router.push now c with
      | (router, true) => some ({ l with router, pushCh := true }, .pushed (c.setTimestamp now))
      | (router, false) => some ({ l with router }, .dropped)
  | .inbound now c =>
    match l.router.nat with
    | none => none
    | some nat =>
      some
        ({ l with router := { l.router with nat := some (nat.translateInbound now c).1 } }, .moved)
  | .enter now =>
    match l.pc with
    | .entering => some ({ l with pc := .scanning now }, .moved)
    | _ => some (l, .blocked)
  | .scan now =>
    match l.pc with
    | .scanning enteredAt => l.scan enteredAt now
    | _ => some (l, .blocked)
  | .back =>
    match l.pc with
    | .calling enteredAt _ => some ({ l with pc := .scanning enteredAt }, .moved)
    | _ => some (l, .blocked)
  | .wake =>
    match l.pc, l.pushCh with
    | .parked, true => some ({ l with pushCh := false, pc := .entering }, .moved)
    | _, _ => some (l, .blocked)
  | .tick =>
    match l.pc with
    | .sleeping _ => some ({ l with pc := .entering }, .moved)
    | _ => some (l, .blocked)
  | .stop =>
    if l.locked ∨ l.cancelled then some (l, .blocked)
    else some ({ l with router := { l.router with started := false }, cancelled := true }, .moved)
  | .cancel =>
    match l.pc, l.cancelled with
    | .parked, true | .sleeping _, true => some ({ l with pc := .ended }, .moved)
    | _, _ => some (l, .blocked)

end Loop

/-- What one step can do. -/
inductive LoopTransition (l : Loop) : LoopEvent → Loop → LoopOutcome → Prop
  | blocked {e} : LoopTransition l e l .blocked
  | pushed {now c queue} : l.locked = false →
      queue.chunks = l.router.queue.chunks ++ [c.setTimestamp now] →
      LoopTransition l (.push now c) { l with router := { l.router with queue }, pushCh := true }
        (.pushed (c.setTimestamp now))
  | dropped {now c} : LoopTransition l (.push now c) l .dropped
  | inbound {now c nat} :
      LoopTransition l (.inbound now c) { l with router := { l.router with nat } } .moved
  | enter {now} : l.pc = .entering →
      LoopTransition l (.enter now) { l with pc := .scanning now } .moved
  | drained {now enteredAt} : l.pc = .scanning enteredAt → l.router.queue.chunks = [] →
      LoopTransition l (.scan now) { l with pc := .parked } (.processed enteredAt 0)
  | early {now enteredAt c rest} : l.pc = .scanning enteredAt →
      l.router.queue.chunks = c :: rest → enteredAt < c.getTimestamp + l.router.minDelay →
      LoopTransition l (.scan now)
        { l with pc := .sleeping (c.getTimestamp + l.router.minDelay - enteredAt) }
        (.processed enteredAt (c.getTimestamp + l.router.minDelay - enteredAt))
  | taken {now enteredAt c queue router result} : l.pc = .scanning enteredAt →
      l.router.queue.chunks = c :: queue.chunks →
      c.getTimestamp + l.router.minDelay ≤ enteredAt →
      { l.router with queue }.route now c = some (router, result) →
      LoopTransition l (.scan now) { l with router, pc := .after enteredAt result }
        (.taken enteredAt c result)
  | back {enteredAt call} : l.pc = .calling enteredAt call →
      LoopTransition l .back { l with pc := .scanning enteredAt } .moved
  | wake : l.pc = .parked → l.pushCh = true →
      LoopTransition l .wake { l with pushCh := false, pc := .entering } .moved
  | tick {duration} : l.pc = .sleeping duration →
      LoopTransition l .tick { l with pc := .entering } .moved
  | stop : l.locked = false →
      LoopTransition l .stop
        { l with router := { l.router with started := false }, cancelled := true } .moved
  | cancel : l.cancelled = true →
      LoopTransition l .cancel { l with pc := .ended } .moved

section Cases

variable {l l' : Loop} {o : LoopOutcome}

/-- An iteration of `processChunks` is one of the listed moves. -/
theorem scan_transition {enteredAt now : Int} (hpc : l.pc = .scanning enteredAt)
    (h : l.scan enteredAt now = some (l', o)) : LoopTransition l (.scan now) l' o := by
  cases hchunks : l.router.queue.chunks with
  | nil =>
    simp only [Loop.scan, ChunkQueue.peek, hchunks, List.head?_nil] at h
    cases h
    exact .drained hpc hchunks
  | cons c rest =>
    simp only [Loop.scan, ChunkQueue.peek, ChunkQueue.pop, hchunks, List.head?_cons] at h
    split at h
    next hlate =>
      cases h
      have hpos : ¬ c.getTimestamp + l.router.minDelay - enteredAt ≤ 0 := by omega
      rw [if_neg hpos]
      exact .early hpc hchunks (by omega)
    next hdue =>
      split at h
      · cases h
      next router result hroute =>
        cases h
        exact .taken hpc hchunks (by omega) hroute

/-- A step is one of the listed moves. -/
theorem step_transition {e : LoopEvent} (h : l.step e = some (l', o)) :
    LoopTransition l e l' o := by
  cases e with
  | push now c =>
    simp only [Loop.step] at h
    split at h
    · cases h
      exact .blocked
    next hlocked =>
      obtain ⟨queue, hpush, hchunks, -⟩ | ⟨hpush, -⟩ := l.router.push_cases now c <;>
        rw [hpush] at h <;> cases h
      · exact .pushed (by simpa using hlocked) hchunks
      · exact .dropped
  | scan now =>
    simp only [Loop.step] at h
    split at h
    next hpc => exact scan_transition hpc h
    · cases h
      exact .blocked
  | _ =>
    simp only [Loop.step] at h
    split at h <;> cases h
    all_goals first
    | exact .blocked
    | exact .inbound
    | exact .enter ‹_›
    | exact .back ‹_›
    | exact .wake ‹_› ‹_›
    | exact .tick ‹_›
    | exact .stop (by simp_all)
    | exact .cancel ‹_›

/-- An iteration that takes a chunk is the step `process` of the network of routers. -/
theorem process_of_scan {rs : Routers} {i : Nat} {enteredAt now : Int} {c : Chunk}
    {result : Except Fate Handover} (hrs : rs i = l.router)
    (hidle : l.router.started = true ∧ l.router.halted = false ∧ l.router.pending = none)
    (h : l.scan enteredAt now = some (l', .taken enteredAt c result)) :
    rs.process i enteredAt now = some (match result with
      | .error fate => (rs.set i l'.router, .finished i fate c)
      | .ok call => (rs.set i { l'.router with pending := some call }, .routed i c)) := by
  have hbusy : ¬ (¬ (rs i).started ∨ (rs i).halted ∨ (rs i).pending.isSome) := by
    simp [hrs, hidle.1, hidle.2.1, hidle.2.2]
  rw [Routers.process, if_neg hbusy, hrs]
  unfold Loop.scan at h
  cases hpeek : l.router.queue.peek with
  | none =>
    rw [hpeek] at h
    cases h
  | some chunk =>
    rw [hpeek] at h
    simp only at h ⊢
    by_cases hlate : chunk.getTimestamp > enteredAt - l.router.minDelay
    · rw [if_pos hlate] at h
      cases h
    rw [if_neg hlate] at h ⊢
    cases hpop : l.router.queue.pop with
    | none =>
      rw [hpop] at h
      cases h
    | some taken =>
      rw [hpop] at h
      simp only at h ⊢
      cases hroute : { l.router with queue := taken.2 }.route now taken.1 with
      | none =>
        rw [hroute] at h
        cases h
      | some routed =>
        rw [hroute] at h
        cases h
        obtain ⟨router, result | call⟩ := routed <;> rfl

end Cases

end PionTransport.Vnet
