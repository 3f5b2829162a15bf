import PionTransport.Vnet.Buckets
import PionTransport.Vnet.Crossing
import PionTransport.Vnet.Duplicating
import PionTransport.Vnet.Ordering

/-!
# Duplicates and their descendants

A filter marks the copies it makes and ignores marked chunks. The clone that a
translator makes of a TCP chunk keeps the mark, the clone of a UDP chunk does not.
So as long as no translator is given a marked UDP chunk, exactly the chunks that
come from a duplicate are marked, and an original chunk has at most one copy for
each filter it meets itself. A marked UDP chunk that crosses a translator breeds.
-/

namespace PionTransport.Vnet

open PionTransport.Core

/-- Cloning keeps the mark of a chunk that is not a marked UDP chunk. -/
theorem Chunk.isDuplicate_clone {c : Chunk} (h : c.network = .udp → c.isDuplicate = false) :
    c.clone.isDuplicate = c.isDuplicate := by
  cases c with
  | udp c => exact (h rfl).symm
  | tcp c => rfl

section Translating

variable {nat nat' : NetworkAddressTranslator} {now : Int} {c c' : Chunk}

/-- An outbound translation clones the chunk and changes its source. -/
theorem translateOutbound_ok (h : nat.translateOutbound now c = some (nat', .ok (some c'))) :
    ∃ addr, c' = c.clone.withSource addr := by
  unfold NetworkAddressTranslator.translateOutbound at h
  split at h
  · apply translateOutboundNAT1To1_ok
    rw [Option.some.inj h]
  · simp only [NetworkAddressTranslator.translateOutboundNAPT] at h
    split at h
    · split at h
      · cases h
      · simp only [Option.bind_eq_bind, Option.bind_eq_some_iff, Option.pure_def] at h
        obtain ⟨ip, -, h⟩ := h
        exact setMappedSource_ok (congrArg Prod.snd (Option.some.inj h))
    · exact setMappedSource_ok (congrArg Prod.snd (Option.some.inj h))

/-- An inbound translation clones the chunk and changes its destination. -/
theorem translateInbound_ok (h : nat.translateInbound now c = (nat', .ok (some c'))) :
    ∃ addr, c' = c.clone.withDestination addr := by
  have hset : ∀ {address : String} {translated : Chunk},
      c.clone.setDestinationAddr address = some translated →
        ∃ addr, translated = c.clone.withDestination addr := by
    intro address translated hset
    obtain ⟨addr, -, rfl⟩ := Option.map_eq_some_iff.mp hset
    exact ⟨addr, rfl⟩
  unfold NetworkAddressTranslator.translateInbound at h
  split at h
  · unfold NetworkAddressTranslator.translateInboundNAT1To1 at h
    split at h
    · cases h
    · split at h
      · cases h
      next ht =>
        cases h
        exact hset ht
  · unfold NetworkAddressTranslator.translateInboundNAPT at h
    split at h
    · cases h
    · simp only at h
      split at h
      · cases h
      · split at h
        · cases h
        next ht =>
          cases h
          exact hset ht

end Translating

section Routing

variable {rs rs' : Routers} {r r' : Router} {i : Nat} {entered now : Int} {c : Chunk}
  {handover : Handover} {o : Outcome}

/-- What is handed over is the chunk, or its translation on the way to the parent. -/
theorem route_ok (h : r.route now c = some (r', .ok handover)) :
    handover.chunk = c ∨ (r.ipv4Net.contains c.getDestinationIP = false ∧ r.parent.isSome = true ∧
      ∃ addr, handover.chunk = c.clone.withSource addr) := by
  cases Router.route_cases h with
  | toNIC _ _ => exact .inl rfl
  | toParent houtside hparent _ htranslate =>
    exact .inr ⟨houtside, by rw [hparent]; rfl, translateOutbound_ok htranslate⟩

/-- What one iteration of a router's loop does. -/
inductive Processed (rs : Routers) (i : Nat) (now : Int) : Routers → Outcome → Prop
  | idle : Processed rs i now rs .idle
  | finished {c rest r fate} : (rs i).queue.chunks = c :: rest → r.queue.chunks = rest →
      r.pending = none → Processed rs i now (rs.set i r) (.finished i fate c)
  | routed {c rest r handover} : (rs i).queue.chunks = c :: rest → r.queue.chunks = rest →
      r.pending = some handover →
      (handover.chunk = c ∨ ((rs i).ipv4Net.contains c.getDestinationIP = false ∧
        (rs i).parent.isSome = true ∧ ∃ addr, handover.chunk = c.clone.withSource addr)) →
      Processed rs i now (rs.set i r) (.routed i c)

/-- What processing a chunk does to queues. -/
theorem process_processed (h : rs.process i entered now = some (rs', o)) :
    Processed rs i now rs' o := by
  cases Routers.process_cases h with
  | idle => exact .idle
  | finished hpending hchunks hroute =>
    obtain ⟨nat, halted, rfl⟩ := route_frame hroute
    exact .finished hchunks rfl hpending
  | routed _ hchunks hroute =>
    have hhanded := route_ok hroute
    obtain ⟨nat, halted, rfl⟩ := route_frame hroute
    exact .routed hchunks rfl rfl hhanded

/-- The chunks in all queues, and in the calls of all goroutines but one. -/
structure SameTraffic (rs rs' : Routers) (i : Nat) (next : Option Handover) : Prop where
  queue : ∀ j, (rs' j).queue.chunks = (rs j).queue.chunks
  pending : ∀ j, (rs' j).pending = if j = i then next else (rs j).pending

/-- A hand-over leaves the queues. -/
theorem sameTraffic_setPending (rs : Routers) (i : Nat) (next : Option Handover) :
    SameTraffic rs (rs.setPending i next) i next := by
  constructor <;> intro j <;> by_cases hj : j = i <;>
    simp [Routers.setPending, Routers.set, hj]

/-- A translator leaves the queues. -/
theorem sameTraffic_setNAT (rs : Routers) (k i : Nat) (nat : NetworkAddressTranslator)
    (next : Option Handover) : SameTraffic rs ((rs.setNAT k nat).setPending i next) i next := by
  have h := sameTraffic_setPending (rs.setNAT k nat) i next
  have hqueue : ∀ j, ((rs.setNAT k nat) j).queue = (rs j).queue := by
    intro j
    by_cases hj : j = k <;> simp [Routers.setNAT, Routers.set, hj]
  constructor
  · intro j
    rw [h.queue j, hqueue]
  · intro j
    rw [h.pending j, pending_setNAT]

/-- What one call of a router's goroutine does. -/
inductive HandedOver (rs : Routers) (i : Nat) (now : Int) : Routers → Outcome → Prop
  | idle : HandedOver rs i now rs .idle
  | finished {rs' fate c} : SameTraffic rs rs' i none → HandedOver rs i now rs' (.finished i fate c)
  | translated {rs' k c c' addr} : (rs i).pending = some (.toNIC (.router k) c) →
      c' = c.clone.withDestination addr → SameTraffic rs rs' i (some (.toRouter k c')) →
      HandedOver rs i now rs' (.routed i c)
  | forwarded {rs₁ rs' k c queue} : (rs i).pending = some (.toRouter k c) →
      SameTraffic rs rs₁ i none → rs' = rs₁.set k { rs₁ k with queue := queue } →
      queue.chunks = (rs₁ k).queue.chunks ++ [c.setTimestamp now] →
      HandedOver rs i now rs' (.forwarded i k c)

/-- What a hand-over does to queues. -/
theorem handOver_handedOver (h : rs.handOver i now = some (rs', o)) :
    HandedOver rs i now rs' o := by
  cases Routers.handOver_cases h with
  | idle _ => exact .idle
  | delivered | dropped => exact .finished (sameTraffic_setPending rs i none)
  | refused _ _ _ => exact .finished (sameTraffic_setNAT rs _ i _ none)
  | translated hpending _ htranslate =>
    obtain ⟨addr, haddr⟩ := translateInbound_ok htranslate
    exact .translated hpending haddr (sameTraffic_setNAT rs _ i _ _)
  | forwarded hpending hqueue =>
    exact .forwarded hpending (sameTraffic_setPending rs i none) rfl hqueue

end Routing

namespace Duplicating

open Duplication DuplicationFilter FilteredRouters

/-- A filter that holds marked duplicates only. -/
structure Marks (f : DuplicationFilter) : Prop where
  coherent : Coherent f
  accounted : Accounted f
  marked : ∀ x ∈ f.scheduled, x.2.chunk.isDuplicate = true

/-- A new filter holds no duplicates. -/
theorem marks_new (now : Int) : Marks { now := now } where
  coherent := (sound_new now).coherent
  accounted := (sound_new now).accounted
  marked x hx := by cases hx

/-- A filter marks every duplicate. -/
theorem Marks.step {f f' : DuplicationFilter} {e : Duplication.Event} (h : Marks f)
    (ht : Transition f e f') : Marks f' := by
  refine ⟨h.coherent.step ht, h.accounted.step h.coherent ht, ?_⟩
  cases ht with
  | fill | create =>
    intro x hx
    rcases List.mem_append.mp hx with hx | hx
    · exact h.marked x hx
    · rw [List.mem_singleton.mp hx]
      exact Chunk.isDuplicate_markDuplicate _
  | _ => exact h.marked

/-- What a filter pushes is marked. -/
theorem Marks.nextPush {f : DuplicationFilter} (h : Marks f) {t : Nat} {d : Duplicate}
    (hd : nextPush f t = some d) : d.chunk.isDuplicate = true := by
  unfold Duplicating.nextPush at hd
  split at hd
  next ht =>
    have hmem : d ∈ f.scheduledIn t := h.accounted.taken ht ▸ List.mem_of_getElem? hd
    exact h.marked (t, d) (mem_tagged.mp hmem)
  · cases hd

/-- The filters hold marked duplicates only, and every copy was made when a chunk that comes from no
duplicate met the filter. -/
structure Bred (n : FilteredRouters) : Prop where
  marks : ∀ f ∈ n.filters, Marks f.state
  copies : List.Sublist n.copies n.passed

section Filters

variable {n : FilteredRouters} {v : Visit} {c : Chunk} {derived : Bool}

/-- A filter with marked duplicates may replace another. -/
theorem Bred.setFilter (h : Bred n) {k : Nat} {f : Filter} (hf : Marks f.state) :
    ∀ g ∈ n.filters.set k f, Marks g.state := by
  intro g hg
  rcases List.mem_or_eq_of_mem_set hg with hg | rfl
  · exact h.marks g hg
  · exact hf

/-- A visit is recorded. -/
theorem Bred.pass (h : Bred n) : Bred (n.pass v derived) := by
  unfold FilteredRouters.pass
  split
  · exact h
  · exact ⟨h.marks, h.copies.trans (List.sublist_append_left _ _)⟩

/-- One filter makes at most one copy, of a chunk that is not marked. -/
theorem Bred.chunkFilter (h : Bred n) (hmark : c.isDuplicate = derived) (draw : Option Int) :
    Bred (n.chunkFilter v c derived draw) := by
  unfold FilteredRouters.chunkFilter
  split
  · exact h.pass
  next hunmarked =>
    have hderived : derived = false := by rw [← hmark]; exact eq_false_of_ne_true hunmarked
    subst hderived
    split
    · exact h.pass
    next delay _ =>
      unfold FilteredRouters.duplicate
      split
      · exact h.pass
      next f hf =>
        split
        · exact h.pass
        next state o hschedule =>
          have hstep : f.state.step (.schedule c.clone delay) = some (state, o) := hschedule
          have hmarks := (h.marks f (List.mem_of_getElem? hf)).step
            (Duplication.step_transition hstep)
          refine ⟨h.pass.setFilter hmarks, ?_⟩
          exact h.copies.append (List.Sublist.refl [v])

/-- Meeting the filters of a router. -/
theorem Bred.meet (h : Bred n) (hmark : c.isDuplicate = derived) (i : Nat)
    (rest : List Registration) (draws : List (Option Int)) :
    Bred (n.meet i c derived rest draws) := by
  induction rest generalizing n draws with
  | nil => exact h
  | cons r rest ih => exact ih (h.chunkFilter hmark _) _

theorem carried_meet (n : FilteredRouters) (i : Nat) (c : Chunk) (derived : Bool)
    (rest : List Registration) (draws : List (Option Int)) :
    (n.meet i c derived rest draws).carried = n.carried := by
  induction rest generalizing n draws with
  | nil => rfl
  | cons r rest ih =>
    refine (ih _ _).trans ?_
    have hpass : ∀ v : Visit, (n.pass v derived).carried = n.carried := by
      intro v
      unfold FilteredRouters.pass
      split <;> rfl
    unfold FilteredRouters.chunkFilter
    split
    · exact hpass _
    · split
      · exact hpass _
      · unfold FilteredRouters.duplicate
        split
        · exact hpass _
        · split <;> exact hpass _

end Filters

/-- The mark of a chunk says whether it comes from a duplicate. -/
structure Recognised (n : FilteredRouters) : Prop where
  queue : ∀ i, List.Forall₂ (fun c derived => c.isDuplicate = derived)
    (n.routers i).queue.chunks (n.derived i)
  pending : ∀ {i handover}, (n.routers i).pending = some handover →
    handover.chunk.isDuplicate = n.carried i
  bred : Bred n

/-- No translator is given a marked UDP chunk, whether or not a filter drops that chunk or it meets
another filter later. -/
def FilteredRouters.spares (n : FilteredRouters) : Event → Bool
  | .process i _ _ _ =>
    match (n.routers i).queue.chunks with
    | .udp c :: _ =>
      !c.duplicate || (n.routers i).ipv4Net.contains c.destinationIP || (n.routers i).parent = none
    | _ => true
  | .handOver i _ =>
    match (n.routers i).pending with
    | some (.toNIC (.router _) (.udp c)) => !c.duplicate
    | _ => true
  | _ => true

section Steps

variable {n n' : FilteredRouters} {e : Event} {o : Outcome} {i : Nat} {now : Int} {c : Chunk}
  {derived : Bool}

/-- A chunk joins a queue. -/
theorem Recognised.join (h : Recognised n) {queue : ChunkQueue}
    (hqueue : queue.chunks = (n.routers i).queue.chunks ++ [c.setTimestamp now])
    (hmark : c.isDuplicate = derived) :
    Recognised { n with
      routers := n.routers.set i { n.routers i with queue := queue }
      derived := Function.update n.derived i (n.derived i ++ [derived]) } := by
  refine ⟨fun j => ?_, fun {j handover} hp => ?_, h.bred.marks, h.bred.copies⟩
  · by_cases hj : j = i
    · subst hj
      simp only [Routers.set, Function.update_self, hqueue]
      refine List.rel_append (h.queue j) (.cons ?_ .nil)
      rw [Chunk.isDuplicate_setTimestamp]
      exact hmark
    · simp only [Routers.set, Function.update_of_ne hj]
      exact h.queue j
  · by_cases hj : j = i
    · subst hj
      simp only [Routers.set, Function.update_self] at hp
      exact h.pending hp
    · simp only [Routers.set, Function.update_of_ne hj] at hp
      exact h.pending hp

/-- A chunk arrives with its lineage. -/
theorem Recognised.arrive (h : Recognised n) (hmark : c.isDuplicate = derived) :
    Recognised (n.arrive i now c derived) := by
  unfold FilteredRouters.arrive
  rcases Router.push_cases (n.routers i) now c with ⟨queue, hpush, hqueue, -⟩ | ⟨hpush, -⟩
  · rw [hpush]
    exact h.join hqueue hmark
  · rw [hpush]
    have hset : n.routers.set i (n.routers i) = n.routers := Function.update_eq_self i _
    simp only [hset]
    exact h

/-- The first chunk leaves a queue and meets the filters of the router. -/
theorem Recognised.taking (h : Recognised n) {rest : List Chunk} {r : Router}
    (hchunks : (n.routers i).queue.chunks = c :: rest) (hrest : r.queue.chunks = rest)
    (draws : List (Option Int)) :
    c.isDuplicate = (n.derived i).headD false ∧
      Bred (n.taking i c draws (n.routers.set i r)) ∧
      ∀ j, List.Forall₂ (fun c derived => c.isDuplicate = derived)
        ((n.routers.set i r) j).queue.chunks
        ((n.taking i c draws (n.routers.set i r)).derived j) := by
  have hqueue := h.queue i
  rw [hchunks] at hqueue
  obtain ⟨flag, flags, hmark, hflags, hderived⟩ := List.forall₂_cons_left_iff.mp hqueue
  have hhead : (n.derived i).headD false = flag := by rw [hderived]; rfl
  refine ⟨hmark.trans hhead.symm, ?_, fun j => ?_⟩
  · have hbred := h.bred.meet (hmark.trans hhead.symm) i (n.seen i c) draws
    exact ⟨hbred.marks, hbred.copies⟩
  · simp only [FilteredRouters.taking]
    by_cases hj : j = i
    · subst hj
      simp only [Routers.set, Function.update_self, hrest, hderived, List.tail_cons]
      exact hflags
    · simp only [Routers.set, Function.update_of_ne hj]
      exact h.queue j

/-- A chunk that is handed on keeps its mark, as no marked UDP chunk is translated. -/
theorem isDuplicate_handed {entered : Int} {draws : List (Option Int)} {rest : List Chunk}
    {handed : Handover} (hspares : n.spares (.process i entered now draws) = true)
    (hchunks : (n.routers i).queue.chunks = c :: rest)
    (hhanded : handed.chunk = c ∨ ((n.routers i).ipv4Net.contains c.getDestinationIP = false ∧
      (n.routers i).parent.isSome = true ∧ ∃ addr, handed.chunk = c.clone.withSource addr)) :
    handed.chunk.isDuplicate = c.isDuplicate := by
  rcases hhanded with hsame | ⟨houtside, hparent, addr, hclone⟩
  · rw [hsame]
  · rw [hclone, Chunk.isDuplicate_withSource]
    apply Chunk.isDuplicate_clone
    intro hudp
    simp only [FilteredRouters.spares, hchunks] at hspares
    cases c with
    | tcp c => cases hudp
    | udp c =>
      change (n.routers i).ipv4Net.contains c.destinationIP = false at houtside
      obtain ⟨parent, hparent⟩ := Option.isSome_iff_exists.mp hparent
      simp only [houtside, hparent, reduceCtorEq, decide_false, Bool.or_false,
        Bool.not_eq_true'] at hspares
      exact hspares

/-- Processing keeps the marks. -/
theorem Recognised.process (h : Recognised n) {entered : Int} {draws : List (Option Int)}
    (hspares : n.spares (.process i entered now draws) = true)
    (hstep : n.process i entered now draws = some (n', o)) : Recognised n' := by
  unfold FilteredRouters.process at hstep
  cases hp : n.routers.process i entered now with
  | none =>
    rw [hp] at hstep
    cases hstep
  | some result =>
    obtain ⟨rs, o'⟩ := result
    rw [hp] at hstep
    cases process_processed hp with
    | idle =>
      cases hstep
      exact h
    | finished hchunks hrest hpending =>
      cases hstep
      obtain ⟨-, hbred, hqueue⟩ := h.taking hchunks hrest draws
      refine ⟨hqueue, fun {j handover} hj => ?_, hbred⟩
      simp only [FilteredRouters.taking, carried_meet]
      by_cases hji : j = i
      · subst hji
        simp only [FilteredRouters.taking, Routers.set, Function.update_self, hpending] at hj
        cases hj
      · simp only [FilteredRouters.taking, Routers.set, Function.update_of_ne hji] at hj
        exact h.pending hj
    | @routed c rest r handed hchunks hrest hpending hhanded =>
      cases hstep
      obtain ⟨hmark, hbred, hqueue⟩ := h.taking hchunks hrest draws
      have hkept := isDuplicate_handed hspares hchunks hhanded
      refine ⟨hqueue, fun {j handover} hj => ?_, ⟨hbred.marks, hbred.copies⟩⟩
      by_cases hji : j = i
      · subst hji
        simp only [FilteredRouters.taking, Routers.set, Function.update_self, hpending] at hj
        cases hj
        simp only [Function.update_self]
        rw [hkept, hmark]
      · simp only [FilteredRouters.taking, Routers.set, Function.update_of_ne hji] at hj
        simp only [Function.update_of_ne hji]
        exact h.pending hj

/-- The chunks underway and their flags, after one call of a goroutine. -/
theorem Recognised.sameTraffic (h : Recognised n) {rs : Routers} {next : Option Handover}
    (hsame : SameTraffic n.routers rs i next)
    (hnext : ∀ handover, next = some handover → handover.chunk.isDuplicate = n.carried i) :
    Recognised { n with routers := rs } := by
  refine ⟨fun j => ?_, fun {j handover} hj => ?_, h.bred.marks, h.bred.copies⟩
  · change List.Forall₂ _ (rs j).queue.chunks _
    rw [hsame.queue]
    exact h.queue j
  · change (rs j).pending = some handover at hj
    rw [hsame.pending] at hj
    split at hj
    next hji =>
      subst hji
      exact hnext handover hj
    · exact h.pending hj

/-- A hand-over keeps the marks. -/
theorem Recognised.handOver (h : Recognised n) (hspares : n.spares (.handOver i now) = true)
    (hstep : n.handOver i now = some (n', o)) : Recognised n' := by
  unfold FilteredRouters.handOver at hstep
  cases hp : n.routers.handOver i now with
  | none =>
    rw [hp] at hstep
    cases hstep
  | some result =>
    obtain ⟨rs, o'⟩ := result
    rw [hp] at hstep
    cases handOver_handedOver hp with
    | idle =>
      cases hstep
      exact h
    | finished hsame =>
      cases hstep
      exact h.sameTraffic hsame fun _ hnone => by cases hnone
    | @translated _ k c c' addr hpending haddr hsame =>
      cases hstep
      refine h.sameTraffic hsame fun handover hnext => ?_
      cases hnext
      have hmark := h.pending hpending
      change c'.isDuplicate = _
      rw [haddr, Chunk.isDuplicate_withDestination, ← hmark]
      apply Chunk.isDuplicate_clone
      intro hudp
      simp only [FilteredRouters.spares, hpending] at hspares
      cases c with
      | tcp c => cases hudp
      | udp c => exact (Bool.not_eq_true' _).mp hspares
    | @forwarded rs₁ _ k c queue hpending hsame hrs hqueue =>
      cases hstep
      have h₁ : Recognised { n with routers := rs₁ } :=
        h.sameTraffic hsame fun _ hnone => by cases hnone
      have hmark : c.isDuplicate = n.carried i := h.pending hpending
      subst hrs
      exact h₁.join hqueue hmark

/-- A step of a filter keeps the marks. -/
theorem Recognised.filterStep (h : Recognised n) {k : Nat} {e : Duplication.Event}
    (hstep : n.filterStep k e = some (n', o)) : Recognised n' := by
  unfold FilteredRouters.filterStep at hstep
  split at hstep
  · cases hstep
    exact h
  next f hf =>
    have hmarks := h.bred.marks f (List.mem_of_getElem? hf)
    have hset : ∀ {e : Duplication.Event} {state : DuplicationFilter} {o : Duplication.Outcome},
        f.state.step e = some (state, o) →
          Recognised { n with filters := n.filters.set k { f with state := state } } := by
      intro e state o hs
      have hstate := hmarks.step (Duplication.step_transition hs)
      exact ⟨h.queue, h.pending, h.bred.setFilter hstate, h.bred.copies⟩
    split at hstep
    · cases hstep
      exact h
    · cases hstep
    next hs =>
      split at hstep
      · cases hstep
        exact h
      next hd =>
        cases hstep
        exact (hset hs).arrive (hmarks.nextPush hd)
    next hs =>
      cases hstep
      exact hset hs

/-- A step that spares duplicates keeps the marks. -/
theorem Recognised.step (h : Recognised n) (hspares : n.spares e = true)
    (hstep : n.step e = some (n', o)) : Recognised n' := by
  cases e with
  | write i now c =>
    simp only [FilteredRouters.step, FilteredRouters.write] at hstep
    split at hstep
    · cases hstep
      exact h
    next hunmarked =>
      cases hstep
      exact h.arrive (eq_false_of_ne_true hunmarked)
  | process i entered now draws => exact h.process hspares hstep
  | handOver i now => exact h.handOver hspares hstep
  | filter k e => exact h.filterStep hstep

end Steps

/-- At the start nothing is queued. -/
theorem recognised_start {routers : Routers}
    (hresting : ∀ i, (routers i).queue.chunks = [] ∧ (routers i).pending = none)
    (targets : List Nat) (registered : Nat → List Registration) (now : Int) :
    Recognised (start routers targets registered now) := by
  refine ⟨fun i => ?_, fun {i handover} hi => ?_, fun f hf => ?_, List.Sublist.refl _⟩
  · change List.Forall₂ _ (routers i).queue.chunks []
    rw [(hresting i).1]
    exact .nil
  · change (routers i).pending = _ at hi
    rw [(hresting i).2] at hi
    cases hi
  · obtain ⟨router, -, rfl⟩ := List.mem_map.mp hf
    exact marks_new now

/-- In every run of a network with any duplication filters in which no translator is given a marked
UDP chunk: whatever comes from a duplicate, wherever it is, is marked, and every copy was made when
an original chunk met the filter itself, one for one. -/
theorem duplicates_never_breed {routers : Routers} {targets : List Nat}
    {registered : Nat → List Registration} {now : Int} {es : List Event} {n : FilteredRouters}
    {os : List Outcome}
    (hresting : ∀ i, (routers i).queue.chunks = [] ∧ (routers i).pending = none)
    (hspares : Along FilteredRouters.step (fun n e => n.spares e = true)
      (start routers targets registered now) es)
    (hrun : run FilteredRouters.step (start routers targets registered now) es = some (n, os)) :
    (∀ i, List.Forall₂ (fun c derived => derived = true → c.isDuplicate = true)
      (n.routers i).queue.chunks (n.derived i)) ∧
    (∀ i handover, (n.routers i).pending = some handover → n.carried i = true →
      handover.chunk.isDuplicate = true) ∧
    (∀ f ∈ n.filters, ∀ x ∈ f.state.scheduled, x.2.chunk.isDuplicate = true) ∧
    List.Sublist n.copies n.passed := by
  have h : Recognised n :=
    keeps_along (fun h hspares hstep => Recognised.step h hspares hstep)
      (recognised_start hresting targets registered now) hspares hrun
  refine ⟨fun i => ?_, fun i handover hi hderived => ?_, fun f hf => (h.bred.marks f hf).marked,
    h.bred.copies⟩
  · exact (h.queue i).imp fun c derived hmark hderived => hmark.trans hderived
  · rw [h.pending hi]
    exact hderived

/-- A filter on each of the two lower routers. -/
def filtered : Nat → List Registration
  | 1 => [⟨1, 0⟩]
  | 2 => [⟨0, 0⟩]
  | _ => []

/-- The chunk is duplicated by the lower filter. The duplicate follows it through the lower router,
and both meet the upper filter, which would duplicate both. -/
def followed (c : Chunk) : List Event :=
  [.write 2 10 c, .process 2 11 11 [some 0], .handOver 2 12, .filter 0 (.fire 0),
    .filter 0 (.bucketFired 0), .filter 0 (.push 0), .process 2 13 13 [some 0], .handOver 2 14,
    .process 1 15 15 [some 0], .handOver 1 16, .process 1 17 17 [some 0]]

/-- A TCP chunk with the addresses of the datagram. -/
def segment : Chunk :=
  .tcp ⟨⟨0, ⟨10, 0, 0, 2⟩, ⟨5, 6, 7, 8⟩, "1", false⟩, 1234, 5678, 0x02, [], 1, 0⟩

/-- The duplicate of a TCP chunk is recognised behind the translator. -/
theorem duplicates_never_breed_segment : ∃ n os,
    run FilteredRouters.step (start nestedRouters [2, 1] filtered 0) (followed segment) =
      some (n, os) ∧ n.copies = [⟨"1", 2, ⟨0, 0⟩⟩, ⟨"1", 1, ⟨1, 0⟩⟩] ∧
      List.Sublist n.copies n.passed := by
  have hspares : Along FilteredRouters.step (fun n e => n.spares e = true)
      (start nestedRouters [2, 1] filtered 0) (followed segment) := by decide +kernel
  refine exists_run (fun n _ => n.copies = [⟨"1", 2, ⟨0, 0⟩⟩, ⟨"1", 1, ⟨1, 0⟩⟩])
    (by decide +kernel) ?_
  intro n os hrun hn
  exact ⟨hn, (duplicates_never_breed nestedRouters_built.wired.resting hspares hrun).2.2.2⟩

/-- The duplicate of a UDP chunk is not: the upper filter makes a copy of the original and one of
the descendant of the duplicate. -/
theorem datagrams_breed : ∃ n os,
    run FilteredRouters.step (start nestedRouters [2, 1] filtered 0) (followed datagram) =
      some (n, os) ∧ n.passed = [⟨"1", 2, ⟨0, 0⟩⟩, ⟨"1", 1, ⟨1, 0⟩⟩] ∧
      n.copies = [⟨"1", 2, ⟨0, 0⟩⟩, ⟨"1", 1, ⟨1, 0⟩⟩, ⟨"1", 1, ⟨1, 0⟩⟩] := by
  exact exists_run (fun n _ => n.passed = [⟨"1", 2, ⟨0, 0⟩⟩, ⟨"1", 1, ⟨1, 0⟩⟩] ∧
    n.copies = [⟨"1", 2, ⟨0, 0⟩⟩, ⟨"1", 1, ⟨1, 0⟩⟩, ⟨"1", 1, ⟨1, 0⟩⟩]) (by decide +kernel)
    fun _ _ _ hn => hn

end Duplicating

end PionTransport.Vnet
