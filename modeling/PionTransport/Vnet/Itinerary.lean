import Mathlib.Data.List.Chain
import PionTransport.Core.Fairness
import PionTransport.Vnet.RouterSteps

/-!
# Itineraries

A chunk is followed by its tag, which is assigned once and survives every
translation. An itinerary says where chunks of one tag may be and how they may
end; if single moves keep to it, so do whole runs, whatever else happens in the
network. If the routers on the way keep running, the chunk does not stay in any of
their queues, and since every move leaves it with fewer ones to make, it ends.
-/

namespace PionTransport.Vnet

open PionTransport.Core

/-- The tag of a chunk that an event brings into the network. -/
def Event.tag : Event → Option String
  | push _ _ c => some c.tag
  | process .. => none
  | handOver .. => none

section Turns

variable {rs rs' : Routers} {i : Nat} {ev : Event} {o : Outcome}

/-- How many calls a router's goroutine has to make before it takes the next chunk. -/
def callsLeft : Option Handover → Nat
  | none => 0
  | some (.toNIC (.router _) _) => 2
  | some _ => 1

/-- The step moves the goroutine of a router that runs: a call that is pending is made, or a chunk
that is due is taken. -/
def Routers.Due (rs : Routers) (i : Nat) : Event → Prop
  | .push .. => False
  | .process m entered _ => m = i ∧ (rs i).pending = none ∧
    ∃ c rest, (rs i).queue.chunks = c :: rest ∧ c.getTimestamp + (rs i).minDelay ≤ entered
  | .handOver m _ => m = i ∧ (rs i).pending ≠ none

/-- What a step can do with one router: its queue may grow, its goroutine may take a chunk, and it
may make a call. -/
inductive Routers.Turn (rs : Routers) (i : Nat) : Event → Outcome → Router → Prop
  | rests {ev : Event} {o : Outcome} {r : Router} {l : List Chunk} :
      r.pending = (rs i).pending → r.queue.chunks = (rs i).queue.chunks ++ l →
      ((rs i).started = true → (rs i).halted = false → ¬ rs.Due i ev) → Turn rs i ev o r
  | takes {entered now : Int} {o : Outcome} {r : Router} {c : Chunk} : (rs i).pending = none →
      (rs i).queue.chunks = c :: r.queue.chunks →
      o = .routed i c ∨ (∃ fate, o = .finished i fate c) → Turn rs i (.process i entered now) o r
  | calls {now : Int} {o : Outcome} {r : Router} {l : List Chunk} :
      callsLeft r.pending < callsLeft (rs i).pending →
      r.queue.chunks = (rs i).queue.chunks ++ l → Turn rs i (.handOver i now) o r

/-- What a step does with one router, its delay, and why its goroutine may end. -/
structure Routers.Turned (rs : Routers) (i : Nat) (ev : Event) (o : Outcome) (r : Router) :
    Prop where
  minDelay : r.minDelay = (rs i).minDelay
  halted : r.halted = (rs i).halted ∨ ∃ e c, o = .finished i (.failed e) c
  turn : rs.Turn i ev o r

variable {now : Int}

/-- A chunk that is due is taken. -/
theorem process_due {entered : Int} (hstarted : (rs i).started = true)
    (hhalted : (rs i).halted = false) (hdue : rs.Due i (.process i entered now)) :
    rs.process i entered now ≠ some (rs', .idle) := by
  obtain ⟨-, hpending, c, rest, hchunks, htime⟩ := hdue
  have hfree : ¬ (¬ (rs i).started ∨ (rs i).halted ∨ (rs i).pending.isSome) := by
    simp [hstarted, hhalted, hpending]
  have hlate : ¬ (c.getTimestamp > entered - (rs i).minDelay) := by omega
  simp only [Routers.process, if_neg hfree, ChunkQueue.peek, ChunkQueue.pop, hchunks,
    List.head?_cons, if_neg hlate]
  split <;> simp

/-- A step that changes the translator of a router at most, or adds to its queue. -/
theorem Turned.rest {queue : ChunkQueue} {l : List Chunk}
    (hqueue : queue.chunks = (rs i).queue.chunks ++ l) (nat : Option NetworkAddressTranslator)
    (hdue : (rs i).started = true → (rs i).halted = false → ¬ rs.Due i ev) :
    rs.Turned i ev o { rs i with queue := queue, nat := nat } :=
  ⟨rfl, .inl rfl, .rests rfl hqueue hdue⟩

theorem Turned.same (hdue : (rs i).started = true → (rs i).halted = false → ¬ rs.Due i ev) :
    rs.Turned i ev o (rs i) :=
  Turned.rest (l := []) (by simp) (rs i).nat hdue

variable {m : Nat}

/-- What processing does to a router. -/
theorem process_turned {entered : Int} (h : rs.process m entered now = some (rs', o)) (i : Nat) :
    rs.Turned i (.process m entered now) o (rs' i) := by
  by_cases hi : i = m
  · subst hi
    cases Routers.process_cases h with
    | idle => exact Turned.same fun hstarted hhalted hdue => process_due hstarted hhalted hdue h
    | finished hpending hchunks hroute =>
      obtain ⟨nat, halted, rfl⟩ := route_frame hroute
      rw [Routers.set_self]
      refine ⟨rfl, ?_, .takes hpending hchunks (.inr ⟨_, rfl⟩)⟩
      cases Router.route_cases hroute with
      | failed => exact .inr ⟨_, _, rfl⟩
      | _ => exact .inl rfl
    | routed hpending hchunks hroute =>
      obtain ⟨nat, halted, rfl⟩ := route_frame hroute
      rw [Routers.set_self]
      refine ⟨rfl, .inl ?_, .takes hpending hchunks (.inl rfl)⟩
      cases Router.route_cases hroute <;> rfl
  · have hsame : rs' i = rs i := by
      cases Routers.process_cases h with
      | idle => rfl
      | finished | routed => exact Routers.set_ne rs hi _
    rw [hsame]
    exact Turned.same fun _ _ hdue => hi hdue.1.symm

theorem setPending_apply (rs : Routers) (m i : Nat) (next : Option Handover) :
    rs.setPending m next i =
      { rs i with pending := if i = m then next else (rs i).pending } := by
  by_cases hi : i = m
  · subst hi
    simp [Routers.setPending, Routers.set_self]
  · simp [Routers.setPending, hi]

theorem setNAT_apply (rs : Routers) (k i : Nat) (nat : NetworkAddressTranslator) :
    rs.setNAT k nat i = { rs i with nat := if i = k then some nat else (rs i).nat } := by
  by_cases hi : i = k
  · subst hi
    simp [Routers.setNAT, Routers.set_self]
  · simp [Routers.setNAT, hi]

/-- A call changes the pending call of its own router, and the translator or the queue of one. -/
theorem handOver_frame (h : rs.HandsOver m now rs' o) (i : Nat) :
    rs' = rs ∧ (rs m).pending = none ∨ ∃ next nat queue l,
      rs' i = { rs i with
        pending := if i = m then next else (rs i).pending, nat := nat, queue := queue } ∧
      queue.chunks = (rs i).queue.chunks ++ l ∧ callsLeft next < callsLeft (rs m).pending := by
  have hnil : (rs i).queue.chunks = (rs i).queue.chunks ++ [] := (List.append_nil _).symm
  cases h with
  | idle hpending => exact .inl ⟨rfl, hpending⟩
  | delivered hpending | dropped hpending =>
    exact .inr ⟨none, _, _, [], setPending_apply .., hnil, by simp [hpending, callsLeft]⟩
  | refused hpending =>
    exact .inr ⟨none, _, _, [], (setPending_apply ..).trans (by rw [setNAT_apply]), hnil,
      by simp [hpending, callsLeft]⟩
  | @translated k c c' nat nat' hpending =>
    exact .inr ⟨some (.toRouter k c'), _, _, [],
      (setPending_apply ..).trans (by rw [setNAT_apply]), hnil, by simp [hpending, callsLeft]⟩
  | @forwarded k c queue hpending hqueue =>
    have hcalls : callsLeft none < callsLeft (rs m).pending := by simp [hpending, callsLeft]
    by_cases hk : i = k
    · subst hk
      rw [setPending_apply] at hqueue
      refine .inr ⟨none, (rs i).nat, queue, _, ?_, hqueue, hcalls⟩
      rw [Routers.set_self, setPending_apply]
    · refine .inr ⟨none, (rs i).nat, (rs i).queue, [], ?_, hnil, hcalls⟩
      rw [Routers.set_ne _ hk, setPending_apply]

/-- What a hand-over does to a router. -/
theorem handOver_turned (h : rs.handOver m now = some (rs', o)) (i : Nat) :
    rs.Turned i (.handOver m now) o (rs' i) := by
  have hother : i ≠ m → (rs i).started = true → (rs i).halted = false →
      ¬ rs.Due i (.handOver m now) := fun hi _ _ hdue => hi hdue.1.symm
  rcases handOver_frame (Routers.handOver_cases h) i with
    ⟨rfl, hpending⟩ | ⟨next, nat, queue, l, hframe, hqueue, hcalls⟩
  · exact Turned.same fun _ _ hdue => hdue.2 (hdue.1 ▸ hpending)
  · rw [hframe]
    by_cases hi : i = m
    · subst hi
      exact ⟨rfl, .inl rfl, .calls (by rwa [if_pos rfl]) hqueue⟩
    · rw [if_neg hi]
      exact Turned.rest hqueue nat (hother hi)

/-- Every step gives every router such a turn. -/
theorem step_turned (h : rs.step ev = some (rs', o)) (i : Nat) : rs.Turned i ev o (rs' i) := by
  cases ev with
  | push m now c =>
    cases h
    by_cases hi : i = m
    · subst hi
      rw [Routers.set_self]
      rcases (rs i).push_cases now c with ⟨queue, hpush, hqueue, -⟩ | ⟨hpush, -⟩ <;> rw [hpush]
      · exact Turned.rest hqueue (rs i).nat fun _ _ hdue => hdue
      · exact Turned.same fun _ _ hdue => hdue
    · rw [Routers.set_ne rs hi]
      exact Turned.same fun _ _ hdue => hdue
  | process m entered now => exact process_turned h i
  | handOver m now => exact handOver_turned h i

end Turns

section Itineraries

variable {rs₀ rs : Routers} {hist hist' : Nat → List Use} {now : Int}

variable {ev : Event} {x : Location} {o : Outcome}

/-- A move keeps the tag. -/
theorem Moves.tag_eq {y : Location} (h : Moves rs₀ hist hist' ev x o (some y)) :
    y.chunk.tag = x.chunk.tag := by
  cases h with
  | toNIC => rfl
  | up | forwarded => simp
  | down _ _ htag => exact htag

variable {i : Nat}

/-- A finished chunk is nowhere. -/
theorem Moves.finished_eq {fate : Fate} {c : Chunk} {next : Option Location}
    (h : Moves rs₀ hist hist' ev x (.finished i fate c) next) :
    c = x.chunk ∧ next = none := by
  cases h <;> exact ⟨rfl, rfl⟩

/-- A chunk that is nowhere is finished. -/
theorem Moves.finished_of_none (h : Moves rs₀ hist hist' ev x o none) :
    ∃ i fate, o = .finished i fate x.chunk := by
  cases h <;> exact ⟨_, _, rfl⟩

/-- A chunk that is not in a queue is in the pending call of its router. -/
theorem pending_of_carries (h : rs.Carries x) (hplace : x.place ≠ .queue) :
    ∃ handover, (rs x.router).pending = some handover ∧ handover.location x.router = x := by
  simp only [Routers.Carries, Router.locations, List.mem_append, List.mem_map, Option.mem_toList,
    Option.map_eq_some_iff] at h
  rcases h with ⟨c, -, hx⟩ | h
  · exact absurd (congrArg Location.place hx).symm hplace
  · exact h

/-- Only for want of a port does a step end the goroutine of a router that translates ports. -/
theorem Effect.halted {rs' : Routers} (hstep : rs.step ev = some (rs', o))
    (h : Effect rs₀ rs rs' hist hist' ev o)
    (hnormal : ∀ nat, (rs₀ i).nat = some nat → nat.natType.mode = .natModeNormal) :
    (rs' i).halted = (rs i).halted ∨
      ∃ d, o = .finished i (.failed NATError.portSpaceExhausted.failure) d := by
  refine (step_turned hstep i).halted.imp_right ?_
  rintro ⟨e, d, rfl⟩
  cases h with
  | quiet _ ho | arrived _ ho => cases ho
  | moved _ hmoves =>
    cases hmoves with
    | failed _ _ hnat he => exact ⟨d, by rw [he (hnormal _ hnat)]⟩

/-- Where the chunks of a tag may be, with a bound on the moves that they have left, and how they
may end, given the translators' histories. Every move that meets a condition on the state and the
event keeps to it. -/
structure Itinerary (rs₀ : Routers) (tag : String) (Cond : Routers → Event → Prop)
    (At : Nat → (Nat → List Use) → Location → Prop)
    (Ends : (Nat → List Use) → Nat → Fate → Chunk → Prop) : Prop where
  mono : ∀ n hist hist' x, (∀ i, hist i ⊆ hist' i) → At n hist x → At n hist' x
  ends_mono : ∀ hist hist' i fate c, (∀ i, hist i ⊆ hist' i) → Ends hist i fate c →
    Ends hist' i fate c
  move : ∀ n rs hist hist' now ev x o y, Running rs₀ rs hist now → now ≤ ev.time → Cond rs ev →
    (∀ i, hist i ⊆ hist' i) → rs.Carries x → x.chunk.tag = tag → At n hist x →
    Moves rs₀ hist hist' ev x o (some y) → ∃ m < n, At m hist' y
  finish : ∀ n rs hist hist' now ev x i fate, Running rs₀ rs hist now → now ≤ ev.time →
    Cond rs ev → (∀ i, hist i ⊆ hist' i) → rs.Carries x → x.chunk.tag = tag → At n hist x →
    Moves rs₀ hist hist' ev x (.finished i fate x.chunk) none → Ends hist' i fate x.chunk

/-- All chunks of a tag are where they may be. -/
def OnTrack (tag : String) (At : Nat → (Nat → List Use) → Location → Prop) (rs : Routers)
    (hist : Nat → List Use) : Prop :=
  ∀ x, rs.Carries x → x.chunk.tag = tag → ∃ n, At n hist x

/-- Some chunk of the tag is still in the network. -/
def Routers.Holds (rs : Routers) (tag : String) : Prop := ∃ x, rs.Carries x ∧ x.chunk.tag = tag

/-- A chunk of the tag is still in the network or among the outcomes. -/
def Held (tag : String) (outs : List Outcome) (rs : Routers) : Prop :=
  rs.Holds tag ∨ ∃ i fate c, .finished i fate c ∈ outs ∧ c.tag = tag

/-- What a run with the outcomes `outs` has kept: routers that translate ports, if anything, have
ended for want of a port only, and the chunks of a tag are on track or have ended as they may. -/
structure Tracked (rs₀ : Routers) (tag : String) (At : Nat → (Nat → List Use) → Location → Prop)
    (Ends : (Nat → List Use) → Nat → Fate → Chunk → Prop) (outs : List Outcome) (rs : Routers)
    (hist : Nat → List Use) : Prop where
  serving : ∀ i, (∀ nat, (rs₀ i).nat = some nat → nat.natType.mode = .natModeNormal) →
    (rs i).halted = false ∨
      ∃ d, .finished i (.failed NATError.portSpaceExhausted.failure) d ∈ outs
  track : OnTrack tag At rs hist
  ends : ∀ i fate c, .finished i fate c ∈ outs → c.tag = tag → Ends hist i fate c

variable {tag : String} {Cond : Routers → Event → Prop}
  {At : Nat → (Nat → List Use) → Location → Prop}
  {Ends : (Nat → List Use) → Nat → Fate → Chunk → Prop} {outs : List Outcome}

/-- A router goes on, or has run out of ports. -/
theorem Tracked.serving_step (h : Tracked rs₀ tag At Ends outs rs hist) {rs' : Routers}
    (hstep : rs.step ev = some (rs', o)) (heffect : Effect rs₀ rs rs' hist hist' ev o) (i : Nat)
    (hnormal : ∀ nat, (rs₀ i).nat = some nat → nat.natType.mode = .natModeNormal) :
    (rs' i).halted = false ∨
      ∃ d, .finished i (.failed NATError.portSpaceExhausted.failure) d ∈ outs ++ [o] := by
  rcases h.serving i hnormal with hserving | ⟨d, hd⟩
  · rcases heffect.halted hstep hnormal with hsame | ⟨d, rfl⟩
    · exact Or.inl (hsame.trans hserving)
    · exact Or.inr ⟨d, List.mem_append_right _ (List.mem_singleton_self _)⟩
  · exact Or.inr ⟨d, List.mem_append_left _ hd⟩

/-- One step keeps chunks on track and loses none. -/
theorem Itinerary.step (hit : Itinerary rs₀ tag Cond At Ends) (hwired : Routers.Wired rs₀)
    (h : Running rs₀ rs hist now) (hle : now ≤ ev.time) (hcond : Cond rs ev)
    (hfresh : ev.tag ≠ some tag) (ht : Tracked rs₀ tag At Ends outs rs hist) :
    ∃ rs' o hist', rs.step ev = some (rs', o) ∧ Running rs₀ rs' hist' ev.time ∧
      Tracked rs₀ tag At Ends (outs ++ [o]) rs' hist' ∧
      (Held tag outs rs → Held tag (outs ++ [o]) rs') := by
  obtain ⟨rs', o, hist', hstep, hrunning, hgrow, heffect⟩ := h.proceeds hwired ev hle
  have hkept : ∀ x, rs.Carries x → x.chunk.tag = tag → ∃ n, At n hist' x := fun x hx htag =>
    (ht.track x hx htag).imp fun n hn => hit.mono n _ _ x hgrow hn
  suffices hstep : OnTrack tag At rs' hist' ∧
      (∀ i fate c, o = .finished i fate c → c.tag = tag → Ends hist' i fate c) ∧
      (rs.Holds tag → rs'.Holds tag ∨ ∃ i fate c, o = .finished i fate c ∧ c.tag = tag) by
    obtain ⟨htrack, hends, hholds⟩ := hstep
    refine ⟨rs', o, hist', ‹_›, hrunning, ⟨ht.serving_step ‹_› heffect, htrack, ?_⟩, ?_⟩
    · intro i fate c hmem htag
      rcases List.mem_append.mp hmem with hmem | hmem
      · exact hit.ends_mono _ _ i fate c hgrow (ht.ends i fate c hmem htag)
      · exact hends i fate c (List.mem_singleton.mp hmem).symm htag
    · rintro (hheld | ⟨i, fate, c, hmem, htag⟩)
      · refine (hholds hheld).imp_right ?_
        rintro ⟨i, fate, c, rfl, htag⟩
        exact ⟨i, fate, c, List.mem_append_right _ (List.mem_singleton_self _), htag⟩
      · exact Or.inr ⟨i, fate, c, List.mem_append_left _ hmem, htag⟩
  cases heffect with
  | quiet hsame ho =>
    subst hsame ho
    exact ⟨hkept, fun i fate c he => (by cases he), Or.inl⟩
  | @arrived i time c hev ho horigin hothers =>
    subst hev ho
    refine ⟨fun x hx htag => ?_, fun i fate c he => (by cases he), ?_⟩
    · rcases horigin x hx with hold | rfl
      · exact hkept x hold htag
      · rw [Chunk.tag_setTimestamp] at htag
        exact absurd (congrArg some htag) hfresh
    · rintro ⟨x, hx, htag⟩
      exact Or.inl ⟨x, hothers x hx, htag⟩
  | @moved x next hx hmoves hrelocates =>
    refine ⟨fun y hy htag => ?_, fun i fate c he htag => ?_, ?_⟩
    · rcases hrelocates.origin y hy with hold | rfl
      · exact hkept y hold htag
      · have hxtag : x.chunk.tag = tag := hmoves.tag_eq.symm.trans htag
        obtain ⟨n, hn⟩ := ht.track x hx hxtag
        obtain ⟨m, -, hm⟩ :=
          hit.move n rs hist hist' now ev x o y h hle hcond hgrow hx hxtag hn hmoves
        exact ⟨m, hm⟩
    · subst he
      obtain ⟨rfl, rfl⟩ := hmoves.finished_eq
      obtain ⟨n, hn⟩ := ht.track x hx htag
      exact hit.finish n rs hist hist' now ev x i fate h hle hcond hgrow hx htag hn hmoves
    · rintro ⟨y, hy, htag⟩
      rcases hrelocates.others y hy with rfl | hstays
      · cases next with
        | none =>
          obtain ⟨i, fate, ho⟩ := hmoves.finished_of_none
          exact Or.inr ⟨i, fate, y.chunk, ho, htag⟩
        | some z =>
          exact Or.inl ⟨z, hrelocates.target z rfl, hmoves.tag_eq.trans htag⟩
      · exact Or.inl ⟨y, hstays, htag⟩

/-- A run keeps chunks on track and loses none. -/
theorem Itinerary.run (hit : Itinerary rs₀ tag Cond At Ends) (hwired : Routers.Wired rs₀)
    (events : List Event) (h : Running rs₀ rs hist now)
    (htimes : (now :: events.map Event.time).IsChain (· ≤ ·))
    (hcond : Along Routers.step Cond rs events) (hfresh : ∀ ev ∈ events, ev.tag ≠ some tag)
    (ht : Tracked rs₀ tag At Ends outs rs hist) :
    ∃ rs' outs' hist' last, run Routers.step rs events = some (rs', outs') ∧
      Running rs₀ rs' hist' last ∧
      (∀ later, (now :: (events ++ later).map Event.time).IsChain (· ≤ ·) →
        (last :: later.map Event.time).IsChain (· ≤ ·)) ∧
      Tracked rs₀ tag At Ends (outs ++ outs') rs' hist' ∧
      (Held tag outs rs → Held tag (outs ++ outs') rs') := by
  induction events generalizing rs hist now outs with
  | nil =>
    rw [← List.append_nil outs] at ht
    exact ⟨rs, [], hist, now, rfl, h, fun later hlater => hlater, ht, by simp⟩
  | cons ev events ih =>
    rw [List.map_cons, List.isChain_cons_cons] at htimes
    obtain ⟨rs₁, o, hist₁, hstep, h₁, ht₁, hheld₁⟩ :=
      hit.step hwired h htimes.1 hcond.1 (hfresh ev List.mem_cons_self) ht
    obtain ⟨rs₂, outs₂, hist₂, last, hrun, h₂, hlast, ht₂, hheld₂⟩ :=
      ih h₁ htimes.2 (along_cons hcond hstep).2
        (fun ev' hev' => hfresh ev' (List.mem_cons_of_mem ev hev')) ht₁
    rw [List.append_assoc] at ht₂ hheld₂
    refine ⟨rs₂, o :: outs₂, hist₂, last, run_cons_some hstep hrun, h₂, fun later hlater => ?_, ht₂,
      fun hheld => hheld₂ (hheld₁ hheld)⟩
    rw [List.cons_append, List.map_cons, List.isChain_cons_cons] at hlater
    exact hlast later hlater.2

/-- Chunks of a tag that was not sent yet are nowhere. -/
theorem itinerary_absent (rs₀ : Routers) (tag : String) :
    Itinerary rs₀ tag (fun _ _ => True) (fun _ _ _ => False) fun _ _ _ _ => False where
  mono := fun _ _ _ _ _ h => h
  ends_mono := fun _ _ _ _ _ _ h => h
  move := fun _ _ _ _ _ _ _ _ _ _ _ _ _ _ _ h _ => h.elim
  finish := fun _ _ _ _ _ _ _ _ _ _ _ _ _ _ _ h _ => h

theorem isChain_map_append_left {events later : List Event}
    (h : (now :: (events ++ later).map Event.time).IsChain (· ≤ ·)) :
    (now :: events.map Event.time).IsChain (· ≤ ·) := by
  rw [List.map_append, ← List.cons_append] at h
  exact h.left_of_append

/-- A network that was just built carries nothing. -/
theorem Routers.Wired.absent (h : Routers.Wired rs₀) (tag : String) :
    Tracked rs₀ tag (fun _ _ _ => False) (fun _ _ _ _ => False) [] rs₀ hist where
  serving i _ := Or.inl (h.serving i)
  track x hx := by
    obtain ⟨hqueue, hpending⟩ := h.resting x.router
    simp [Routers.Carries, Router.locations, hqueue, hpending] at hx
  ends _ _ _ hmem := by cases hmem

/-- A chunk that is sent to an open router follows its itinerary from there. -/
theorem Itinerary.send {c : Chunk} {time : Int} (hit : Itinerary rs₀ c.tag Cond At Ends)
    (hwired : Routers.Wired rs₀) (h : Running rs₀ rs hist now) (hopen : (rs₀ i).Open)
    (ht : Tracked rs₀ c.tag (fun _ _ _ => False) (fun _ _ _ _ => False) outs rs hist) {n : Nat}
    (hstart : At n hist ⟨i, .queue, c.setTimestamp time⟩) (events : List Event)
    (htimes : (now :: (.push i time c :: events).map Event.time).IsChain (· ≤ ·))
    (hcond : Along Routers.step Cond rs (.push i time c :: events))
    (hfresh : ∀ ev ∈ events, ev.tag ≠ some c.tag) :
    ∃ rs' outs' hist' last, Core.run Routers.step rs (.push i time c :: events) =
        some (rs', outs') ∧ Running rs₀ rs' hist' last ∧
      (∀ later, (now :: (.push i time c :: events ++ later).map Event.time).IsChain (· ≤ ·) →
        (last :: later.map Event.time).IsChain (· ≤ ·)) ∧
      Tracked rs₀ c.tag At Ends (outs ++ outs') rs' hist' ∧ Held c.tag (outs ++ outs') rs' := by
  obtain ⟨hle, htimes⟩ : now ≤ time ∧ (time :: events.map Event.time).IsChain (· ≤ ·) :=
    List.isChain_cons_cons.mp htimes
  obtain ⟨h₁, ⟨-, hcarries⟩ | ⟨-, -, hclosed⟩⟩ := (h.later hle).push i c
  · have hstep : rs.step (.push i time c) =
        some (rs.set i ((rs i).push time c).1, .received i c) := rfl
    have ht₁ : Tracked rs₀ c.tag At Ends (outs ++ [.received i c])
        (rs.set i ((rs i).push time c).1) hist := by
      refine ⟨fun m hm => ?_, fun x hx htag => ?_, fun m fate d hmem htag => ?_⟩
      · rcases (step_turned hstep m).halted with hsame | ⟨_, _, ho⟩
        · rw [hsame]
          exact (ht.serving m hm).imp_right fun ⟨d, hd⟩ => ⟨d, List.mem_append_left _ hd⟩
        · cases ho
      · rcases (hcarries x).mp hx with hold | rfl
        · obtain ⟨-, hnone⟩ := ht.track x hold htag
          exact hnone.elim
        · exact ⟨n, hstart⟩
      · rcases List.mem_append.mp hmem with hmem | hmem
        · exact (ht.ends m fate d hmem htag).elim
        · cases List.mem_singleton.mp hmem
    obtain ⟨rs₂, outs₂, hist₂, last, hrun, h₂, hlast, ht₂, hheld⟩ :=
      hit.run hwired events h₁ htimes (along_cons hcond hstep).2 hfresh ht₁
    rw [List.append_assoc] at ht₂ hheld
    refine ⟨rs₂, .received i c :: outs₂, hist₂, last, run_cons_some hstep hrun, h₂,
      fun later hlater => ?_, ht₂,
      hheld (Or.inl ⟨_, (hcarries _).mpr (Or.inr rfl), Chunk.tag_setTimestamp ..⟩)⟩
    rw [List.cons_append, List.map_cons, List.isChain_cons_cons] at hlater
    exact hlast later hlater.2
  · exact absurd hopen hclosed

end Itineraries

section Arrival

/-- A schedule in which the goroutines of some routers keep running: they call `processChunks` again
and again, at times that pass every bound, and make the calls that are pending. -/
structure Serves (S : Nat → Prop) (evs : Nat → Event) : Prop where
  processes : ∀ i, S i → ∀ n (t : Int), ∃ m, n ≤ m ∧ ∃ entered now,
    evs m = .process i entered now ∧ t ≤ entered
  hands : ∀ i, S i → ∀ n, ∃ m, n ≤ m ∧ ∃ now, evs m = .handOver i now

/-- Where a chunk is, and what its router's goroutine does at most before its turn comes. -/
inductive Routers.Waits (rs : Routers) : Location → Nat → Prop
  | queued {i : Nat} {c : Chunk} {front rest : List Chunk} :
      (rs i).queue.chunks = front ++ c :: rest →
      Waits rs ⟨i, .queue, c⟩ (3 * front.length + callsLeft (rs i).pending)
  | called {i : Nat} {handover : Handover} : (rs i).pending = some handover →
      Waits rs (handover.location i) 0

variable {rs₀ rs rs' : Routers} {hist hist' : Nat → List Use} {ev : Event} {o : Outcome}
  {x : Location} {w : Nat}

theorem callsLeft_le (pending : Option Handover) : callsLeft pending ≤ 2 := by
  unfold callsLeft
  split <;> omega

theorem location_router (i : Nat) (handover : Handover) : (handover.location i).router = i := by
  cases handover <;> rfl

/-- A chunk that is carried waits for a step. -/
theorem waits_of_carries (h : rs.Carries x) : ∃ w, rs.Waits x w := by
  by_cases hplace : x.place = .queue
  · obtain ⟨i, place, c⟩ := x
    cases hplace
    have hmem : c ∈ (rs i).queue.chunks := by
      simp only [Routers.Carries, Router.locations, List.mem_append, List.mem_map,
        Option.mem_toList, Option.map_eq_some_iff] at h
      rcases h with ⟨d, hd, he⟩ | ⟨handover, -, he⟩
      · cases he
        exact hd
      · cases handover <;> cases he
    obtain ⟨front, rest, hchunks⟩ := List.append_of_mem hmem
    exact ⟨_, .queued hchunks⟩
  · obtain ⟨handover, hpending, hx⟩ := pending_of_carries h hplace
    exact ⟨0, hx ▸ .called hpending⟩

/-- A chunk that waits is carried. -/
theorem Routers.Waits.carries (h : rs.Waits x w) : rs.Carries x := by
  cases h with
  | queued hchunks => simp [Routers.Carries, Router.locations, hchunks]
  | called hpending => simp [Routers.Carries, Router.locations, location_router, hpending]

/-- A router with a chunk has something to do, which the schedule gives it time for. -/
theorem Routers.Waits.due {S : Nat → Prop} {evs : Nat → Event} (h : rs.Waits x w)
    (hserves : Serves S evs) (hS : S x.router) (n : Nat) :
    ∃ m, n ≤ m ∧ rs.Due x.router (evs m) := by
  by_cases hpending : (rs x.router).pending = none
  · obtain ⟨c, rest, hchunks⟩ : ∃ c rest, (rs x.router).queue.chunks = c :: rest := by
      cases h with
      | @queued i c front rest hchunks =>
        cases front with
        | nil => exact ⟨c, rest, hchunks⟩
        | cons d front => exact ⟨d, front ++ c :: rest, hchunks⟩
      | called hcalled =>
        rw [location_router, hcalled] at hpending
        cases hpending
    obtain ⟨m, hm, entered, now, hev, ht⟩ :=
      hserves.processes _ hS n (c.getTimestamp + (rs x.router).minDelay)
    exact ⟨m, hm, hev ▸ ⟨rfl, hpending, c, rest, hchunks, ht⟩⟩
  · obtain ⟨m, hm, now, hev⟩ := hserves.hands _ hS n
    exact ⟨m, hm, hev ▸ ⟨rfl, hpending⟩⟩

variable {i : Nat}

/-- What was to be done stays to be done while the router rests. -/
theorem Routers.Due.rests {l : List Chunk} (h : rs.Due i ev)
    (hdelay : (rs' i).minDelay = (rs i).minDelay) (hpending : (rs' i).pending = (rs i).pending)
    (hqueue : (rs' i).queue.chunks = (rs i).queue.chunks ++ l) : rs'.Due i ev := by
  cases ev with
  | push => exact h
  | process m entered now =>
    obtain ⟨hm, hnone, c, rest, hchunks, htime⟩ := h
    refine ⟨hm, hpending.trans hnone, c, rest ++ l, ?_, by rwa [hdelay]⟩
    rw [hqueue, hchunks, List.cons_append]
  | handOver m now => exact ⟨h.1, by rw [hpending]; exact h.2⟩

variable {now : Int}

/-- The chunk that a goroutine takes is the one that moves. -/
theorem Effect.takes {entered : Int} {c : Chunk}
    (h : Effect rs₀ rs rs' hist hist' (.process i entered now) o)
    (ho : o = .routed i c ∨ ∃ fate, o = .finished i fate c) : ∃ next,
      Moves rs₀ hist hist' (.process i entered now) ⟨i, .queue, c⟩ o next ∧
      rs.Relocates rs' ⟨i, .queue, c⟩ next := by
  cases h with
  | quiet _ hidle =>
    subst hidle
    rcases ho with ho | ⟨fate, ho⟩ <;> cases ho
  | arrived hev => cases hev
  | @moved x next _ hmoves hrelocates =>
    obtain rfl : x = ⟨i, .queue, c⟩ := by
      cases hmoves <;> rcases ho with ho | ⟨fate, ho⟩ <;> cases ho <;> rfl
    exact ⟨next, hmoves, hrelocates⟩

/-- The chunk of the call that a goroutine makes is the one that moves. -/
theorem Effect.calls {handover : Handover} (h : Effect rs₀ rs rs' hist hist' (.handOver i now) o)
    (hpending : (rs i).pending = some handover) (hchanged : rs' ≠ rs) : ∃ next,
      Moves rs₀ hist hist' (.handOver i now) (handover.location i) o next ∧
      rs.Relocates rs' (handover.location i) next := by
  cases h with
  | quiet hsame => exact absurd hsame hchanged
  | arrived hev => cases hev
  | @moved x next hx hmoves hrelocates =>
    obtain ⟨hrouter, hplace⟩ : x.router = i ∧ x.place ≠ .queue := by
      cases hmoves <;> exact ⟨rfl, nofun⟩
    obtain ⟨handover', hpending', hx'⟩ := pending_of_carries hx hplace
    rw [hrouter, hpending] at hpending'
    cases hpending'
    rw [← hrouter, hx']
    exact ⟨next, hrouter ▸ hmoves, hrelocates⟩

/-- A step leaves a chunk and what is to be done before its turn, brings its turn nearer, or is its
turn. -/
theorem Routers.Waits.step (h : rs.Waits x w) (heffect : Effect rs₀ rs rs' hist hist' ev o)
    (hturned : rs.Turned x.router ev o (rs' x.router)) :
    (rs'.Waits x w ∧
      ((rs x.router).started = true → (rs x.router).halted = false → ¬ rs.Due x.router ev) ∧
      ∀ ev', rs.Due x.router ev' → rs'.Due x.router ev') ∨
    (∃ w' < w, rs'.Waits x w') ∨
    ∃ next, Moves rs₀ hist hist' ev x o next ∧ rs.Relocates rs' x next := by
  obtain ⟨hdelay, -, hturn⟩ := hturned
  cases h with
  | @queued i c front rest hchunks =>
    cases hturn with
    | @rests _ _ _ l hpending hqueue hdue =>
      refine .inl ⟨?_, hdue, fun ev' hev' => hev'.rests hdelay hpending hqueue⟩
      rw [← hpending]
      exact .queued (hqueue.trans (hchunks ▸ List.append_assoc front (c :: rest) l))
    | takes hpending htaken ho =>
      cases front with
      | nil =>
        cases hchunks.symm.trans htaken
        exact .inr (.inr (heffect.takes ho))
      | cons d front =>
        obtain ⟨-, hrest⟩ := List.cons.inj (hchunks.symm.trans htaken)
        refine .inr (.inl ⟨_, ?_, .queued hrest.symm⟩)
        have := callsLeft_le (rs' i).pending
        rw [List.length_cons]
        omega
    | @calls _ _ _ l hcalls hqueue =>
      exact .inr (.inl ⟨_, Nat.add_lt_add_left hcalls _,
        .queued (hqueue.trans (hchunks ▸ List.append_assoc front (c :: rest) l))⟩)
  | @called i handover hcalled =>
    rw [location_router] at hdelay hturn ⊢
    cases hturn with
    | rests hpending hqueue hdue =>
      exact .inl ⟨.called (hpending.trans hcalled), hdue,
        fun ev' hev' => hev'.rests hdelay hpending hqueue⟩
    | takes hpending =>
      rw [hcalled] at hpending
      cases hpending
    | calls hcalls =>
      refine .inr (.inr (heffect.calls hcalled fun hsame => ?_))
      rw [hsame] at hcalls
      exact Nat.lt_irrefl _ hcalls

variable {tag : String} {Cond : Routers → Event → Prop}
  {At : Nat → (Nat → List Use) → Location → Prop}
  {Ends : (Nat → List Use) → Nat → Fate → Chunk → Prop} {S : Nat → Prop} {evs : Nat → Event}

/-- The chunk of a tag ended, or some of the routers has no port left. -/
def Ended (tag : String) (S : Nat → Prop) (o : Outcome) : Prop :=
  (∃ i fate c, o = .finished i fate c ∧ c.tag = tag) ∨
    ∃ i d, S i ∧ o = .finished i (.failed NATError.portSpaceExhausted.failure) d

/-- A chunk of the tag waits at a place of its itinerary before event number `n` of a schedule. It
has at most `a.1` moves to make, and at most `a.2.1` steps of its router come before the next. -/
structure OnWay (rs₀ : Routers) (tag : String) (Cond : Routers → Event → Prop)
    (At : Nat → (Nat → List Use) → Location → Prop) (S : Nat → Prop) (evs : Nat → Event) (n : Nat)
    (a : Nat × Nat × Location) (rs : Routers) : Prop where
  along : ∀ k, Along Routers.step Cond rs (window evs n k)
  serving : ∀ i, S i → (rs i).halted = false
  tag_eq : a.2.2.chunk.tag = tag
  waits : rs.Waits a.2.2 a.2.1
  place : ∃ hist now, Running rs₀ rs hist now ∧
    (∀ k, (now :: (window evs n k).map Event.time).IsChain (· ≤ ·)) ∧ At a.1 hist a.2.2

/-- Every step ends the chunk's way, shortens it or leaves it as it was. -/
theorem OnWay.step (hit : Itinerary rs₀ tag Cond At Ends) (hwired : Routers.Wired rs₀)
    (hnormal : ∀ i, S i → ∀ nat, (rs₀ i).nat = some nat → nat.natType.mode = .natModeNormal)
    (hstarted : ∀ i, S i → (rs₀ i).started = true)
    (hplace : ∀ n hist x, At n hist x → S x.router) {n : Nat} {a : Nat × Nat × Location}
    (h : OnWay rs₀ tag Cond At S evs n a rs) :
    ∃ rs' o, rs.step (evs n) = some (rs', o) ∧ (Ended tag S o ∨
      (∃ b, Prod.Lex (· < ·) (InvImage (· < ·) Prod.fst) b a ∧
        OnWay rs₀ tag Cond At S evs (n + 1) b rs') ∨
      OnWay rs₀ tag Cond At S evs (n + 1) a rs' ∧ ¬ rs.Due a.2.2.router (evs n) ∧
        ∀ ev, rs.Due a.2.2.router ev → rs'.Due a.2.2.router ev) := by
  obtain ⟨r, w, x⟩ := a
  obtain ⟨halong, hserving, htag, hwaits, hist, now, hrunning, htimes, hat⟩ := h
  simp only at htag hwaits hat ⊢
  have hle : now ≤ (evs n).time := (List.isChain_cons_cons.mp (htimes 1)).1
  obtain ⟨rs', o, hist', hstep, hrunning', hgrow, heffect⟩ := hrunning.proceeds hwired _ hle
  refine ⟨rs', o, hstep, ?_⟩
  by_cases hended : Ended tag S o
  · exact .inl hended
  -- what the chunk needs for its way, wherever it is after the step
  have hnext : ∀ {r' w' y}, y.chunk.tag = tag → rs'.Waits y w' → At r' hist' y →
      OnWay rs₀ tag Cond At S evs (n + 1) (r', w', y) rs' := fun htag' hwaits' hat' =>
    { along := fun k => (along_cons (window_succ evs n k ▸ halong (k + 1)) hstep).2
      serving := fun i hi =>
        ((heffect.halted hstep (hnormal i hi)).resolve_right
          fun ⟨d, ho⟩ => hended (.inr ⟨i, d, hi, ho⟩)).trans (hserving i hi)
      tag_eq := htag'
      waits := hwaits'
      place := ⟨hist', _, hrunning', fun k => (List.isChain_cons_cons.mp
        (List.map_cons ▸ window_succ evs n k ▸ htimes (k + 1))).2, hat'⟩ }
  refine .inr ?_
  rcases hwaits.step heffect (step_turned hstep x.router) with
    ⟨hsame, hdue, hkeeps⟩ | ⟨w', hlt, hwaits'⟩ | ⟨next, hmoves, hrelocates⟩
  · refine .inr ⟨hnext htag hsame (hit.mono _ _ _ _ hgrow hat), hdue ?_ ?_, hkeeps⟩
    · rw [(hrunning.config x.router).started]
      exact hstarted _ (hplace _ _ _ hat)
    · exact hserving _ (hplace _ _ _ hat)
  · exact .inl ⟨(r, w', x), .right _ hlt, hnext htag hwaits' (hit.mono _ _ _ _ hgrow hat)⟩
  · cases next with
    | none =>
      obtain ⟨i, fate, rfl⟩ := hmoves.finished_of_none
      exact absurd (.inl ⟨i, fate, _, rfl, htag⟩) hended
    | some y =>
      obtain ⟨m, hm, hat'⟩ := hit.move r rs hist hist' now (evs n) x o y hrunning hle
        (along_cons (window_succ evs n 0 ▸ halong 1) hstep).1 hgrow hwaits.carries htag hat hmoves
      obtain ⟨w', hwaits'⟩ := waits_of_carries (hrelocates.target y rfl)
      exact .inl ⟨_, .left _ _ hm, hnext (hmoves.tag_eq.trans htag) hwaits' hat'⟩

/-- While the routers on its way keep running, a chunk that was sent ends as its itinerary says,
unless one of them has no port left. -/
theorem Itinerary.settles {outs : List Outcome} (hit : Itinerary rs₀ tag Cond At Ends)
    (hwired : Routers.Wired rs₀)
    (hnormal : ∀ i, S i → ∀ nat, (rs₀ i).nat = some nat → nat.natType.mode = .natModeNormal)
    (hstarted : ∀ i, S i → (rs₀ i).started = true) (hplace : ∀ n hist x, At n hist x → S x.router)
    (hserves : Serves S evs) (h : Running rs₀ rs hist now)
    (htimes : ∀ k, (now :: (window evs 0 k).map Event.time).IsChain (· ≤ ·))
    (hcond : ∀ k, Along Routers.step Cond rs (window evs 0 k))
    (hfresh : ∀ n, (evs n).tag ≠ some tag) (ht : Tracked rs₀ tag At Ends outs rs hist)
    (hheld : Held tag outs rs) :
    ∃ k rs' outs', Core.run Routers.step rs (window evs 0 k) = some (rs', outs') ∧
      ((∃ hist' i fate c, .finished i fate c ∈ outs ++ outs' ∧ c.tag = tag ∧
          Ends hist' i fate c) ∨
        ∃ i d, S i ∧
          .finished i (.failed NATError.portSpaceExhausted.failure) d ∈ outs ++ outs') := by
  rcases hheld with ⟨x, hx, htag⟩ | ⟨i, fate, c, hmem, htag⟩
  · by_cases hserving : ∀ i, S i → (rs i).halted = false
    · obtain ⟨n, hn⟩ := ht.track x hx htag
      obtain ⟨w, hw⟩ := waits_of_carries hx
      have hway : OnWay rs₀ tag Cond At S evs 0 (n, w, x) rs :=
        ⟨hcond, hserving, htag, hw, hist, now, h, htimes, hn⟩
      have hwf : WellFounded (Prod.Lex (· < ·) (InvImage (· < ·) Prod.fst) :
          Nat × Nat × Location → Nat × Nat × Location → Prop) :=
        WellFounded.prod_lex Nat.lt_wfRel.wf (InvImage.wf _ Nat.lt_wfRel.wf)
      obtain ⟨k, rs', outs', hrun, o, ho, hended⟩ :=
        reaches_of_fair hwf (fun a rs ev => rs.Due a.2.2.router ev)
          (fun hat => hat.step hit hwired hnormal hstarted hplace)
          (fun ⟨_, _, _, hwaits, _, _, _, _, hat⟩ => hwaits.due hserves (hplace _ _ _ hat) _) hway
      refine ⟨k, rs', outs', hrun, ?_⟩
      have ho := List.mem_append_right outs ho
      rcases hended with ⟨i, fate, c, rfl, hc⟩ | ⟨i, d, hi, rfl⟩
      · have hunsent : ∀ ev ∈ window evs 0 k, ev.tag ≠ some tag := by
          intro ev hev
          obtain ⟨m, -, rfl⟩ := List.mem_map.mp hev
          exact hfresh _
        obtain ⟨rs'', outs'', hist', last, hrun', -, -, ht', -⟩ :=
          hit.run hwired (window evs 0 k) h (htimes k) (hcond k) hunsent ht
        cases hrun.symm.trans hrun'
        exact .inl ⟨hist', i, fate, c, ho, hc, ht'.ends i fate c ho hc⟩
      · exact .inr ⟨i, d, hi, ho⟩
    · push Not at hserving
      obtain ⟨i, hi, hhalted⟩ := hserving
      obtain ⟨d, hd⟩ := (ht.serving i (hnormal i hi)).resolve_left hhalted
      exact ⟨0, rs, [], rfl, .inr ⟨i, d, hi, List.mem_append_left _ hd⟩⟩
  · exact ⟨0, rs, [], rfl, .inl ⟨hist, i, fate, c, List.mem_append_left _ hmem, htag,
      ht.ends i fate c hmem htag⟩⟩

end Arrival

end PionTransport.Vnet
