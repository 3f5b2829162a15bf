import PionTransport.Vnet.Forwarding

/-!
# Producers and the end of the run loop

`onInboundChunk` pushes its chunk and then sends on an unbuffered channel whose
only receiver is the run loop. A loop that has seen `Close` never receives again,
so a call that has not been received by then, and every later call, waits for
ever. If the loop sees `Close` only while no call is in progress and none starts
afterwards, every call can return.
-/

namespace PionTransport.Vnet.Delay

open PionTransport.Core DelayFilter

variable {β : Type}

/-- The run loop sees `Close` only while no call is in progress, and no call starts after that. -/
def DelayFilter.quiet (f : DelayFilter β) : Event β → Bool
  | .call _ => !f.loop.ending
  | .observe => f.producers.all fun p => p.pos = .returned
  | _ => true

/-- The timer can be stopped or received from wherever the loop does so, and no call outlives the
loop. -/
structure Served (f : DelayFilter β) : Prop where
  armed : f.loop = .selecting ∨ f.loop = .updating → f.timer ≠ none
  served : f.loop.ending = true → ∀ p ∈ f.producers, p.pos = .returned

section Quiet

variable {f f' : DelayFilter β} {e : Event β} {i : Nat}

theorem served_new {now : Int} {opts : List (Option Int)}
    (h : newDelayFilter now opts = .ok f) : Served f := by
  obtain ⟨delay, rfl⟩ := newDelayFilter_ok h
  exact ⟨fun _ => by simp, fun he => by cases he⟩

theorem Served.step (h : Served f) (hquiet : f.quiet e = true) (ht : Transition f e f') :
    Served f' := by
  cases ht with
  | stutter => exact h
  | elapse | setDelay | close | closeReturn | drain => exact ⟨h.armed, h.served⟩
  | call =>
    refine ⟨h.armed, fun hend => ?_⟩
    change f.loop.ending = true at hend
    simp [DelayFilter.quiet, hend] at hquiet
  | enqueue hp =>
    refine ⟨h.armed, fun hend => ?_⟩
    have hreturned := h.served hend _ (List.mem_of_getElem? hp)
    cases hreturned
  | signal hp hl =>
    refine ⟨fun _ => h.armed (.inl hl), fun hend => by cases hend⟩
  | updateIdle hl => exact ⟨fun _ => h.armed (.inr hl), fun hend => by cases hend⟩
  | update | scheduleIdle | schedule =>
    exact ⟨fun _ => by simp [resetUntil], fun hend => by cases hend⟩
  | fire | processed =>
    refine ⟨fun hwaits => ?_, fun hend => by cases hend⟩
    rcases hwaits with hwaits | hwaits <;> cases hwaits
  | forward hl =>
    refine ⟨fun hwaits => ?_, fun hend => ?_⟩
    · exact h.armed hwaits
    · exact h.served hend
  | observe =>
    refine ⟨fun hwaits => ?_, fun _ p hp => ?_⟩
    · rcases hwaits with hwaits | hwaits <;> cases hwaits
    · simp only [DelayFilter.quiet, List.all_eq_true, decide_eq_true_eq] at hquiet
      exact hquiet p hp
  | exit hl =>
    refine ⟨fun hwaits => ?_, fun _ => h.served ?_⟩
    · rcases hwaits with hwaits | hwaits <;> cases hwaits
    · rw [hl]
      rfl

theorem Served.run {es : List (Event β)} {os : List Outcome} (h : Served f)
    (hquiet : Along DelayFilter.step (fun f e => f.quiet e = true) f es)
    (hrun : run DelayFilter.step f es = some (f', os)) : Served f' :=
  keeps_along (fun h hquiet hstep => Served.step h hquiet (step_transition hstep)) h hquiet hrun

/-- Some run leads to the goal. -/
def Leads (f : DelayFilter β) (goal : DelayFilter β → Prop) : Prop :=
  ∃ es f' os, Core.run DelayFilter.step f es = some (f', os) ∧ goal f'

variable {goal : DelayFilter β → Prop}

theorem Leads.here (h : goal f) : Leads f goal :=
  ⟨[], f, [], rfl, h⟩

theorem Leads.after {o : Outcome} (hstep : f.step e = some (f', o)) (h : Leads f' goal) :
    Leads f goal := by
  obtain ⟨es, f'', os, hrun, hgoal⟩ := h
  exact ⟨e :: es, f'', o :: os, run_cons_some hstep hrun, hgoal⟩

section Selecting

/-! The loop comes back to its `select` with the calls where they were. -/

variable {goal : DelayFilter β → Prop} {producers : List (Producer β)}
  (hgoal : ∀ g : DelayFilter β, g.loop = .selecting → g.producers = producers → Leads g goal)

include hgoal

theorem leads_scheduling (hl : f.loop = .scheduling) (hp : f.producers = producers) :
    Leads f goal := by
  cases hq : f.queue with
  | nil =>
    have hstep : f.step .schedule =
        some ({ f with timer := some (f.now + minute), loop := .selecting }, .moved) := by
      simp only [DelayFilter.step, scheduleNextPacketTimer, hl, hq]
    exact .after hstep (hgoal _ rfl hp)
  | cons c rest =>
    have hstep : f.step .schedule =
        some ({ f.resetUntil c.deadline with loop := .selecting }, .moved) := by
      simp only [DelayFilter.step, scheduleNextPacketTimer, hl, hq]
    exact .after hstep (hgoal _ rfl hp)

theorem leads_processing {now : Int} (hl : f.loop = .processing now)
    (hp : f.producers = producers) : Leads f goal := by
  induction hq : f.queue generalizing f with
  | nil =>
    have hstep : f.step .process = some ({ f with loop := .scheduling }, .moved) := by
      simp only [DelayFilter.step, processReadyPackets, hl, hq]
    exact .after hstep (leads_scheduling hgoal rfl hp)
  | cons c rest ih =>
    by_cases hdue : c.deadline ≤ now
    · have hstep : f.step .process = some ({ f with
          queue := rest, forwarded := f.forwarded ++ [(c, some now)] }, .moved) := by
        simp only [DelayFilter.step, processReadyPackets, hl, hq, if_pos hdue]
      exact .after hstep (ih hl hp rfl)
    · have hstep : f.step .process = some ({ f with loop := .scheduling }, .moved) := by
        simp only [DelayFilter.step, processReadyPackets, hl, hq, if_neg hdue]
      exact .after hstep (leads_scheduling hgoal rfl hp)

theorem leads_updating {due : Int} (hl : f.loop = .updating) (htimer : f.timer = some due)
    (hp : f.producers = producers) : Leads f goal := by
  cases hq : f.queue with
  | nil =>
    have hstep : f.step .update = some ({ f with loop := .selecting }, .moved) := by
      simp only [DelayFilter.step, updateTimerForNextPacket, hl, hq]
    exact .after hstep (hgoal _ rfl hp)
  | cons c rest =>
    have hstep : f.step .update =
        some ({ f.resetUntil c.deadline with loop := .selecting }, .moved) := by
      simp only [DelayFilter.step, updateTimerForNextPacket, hl, hq, htimer]
    exact .after hstep (hgoal _ rfl hp)

end Selecting

/-- A loop that has not seen `Close` comes back to its `select`, whatever the calls do. -/
theorem leads_selecting (h : Served f) (hend : f.loop.ending = false)
    (hgoal : ∀ g : DelayFilter β, g.loop = .selecting → g.producers = f.producers → Leads g goal) :
    Leads f goal := by
  cases hl : f.loop with
  | selecting => exact hgoal f hl rfl
  | updating =>
    obtain ⟨due, htimer⟩ := Option.ne_none_iff_exists'.mp (h.armed (.inr hl))
    exact leads_updating hgoal hl htimer rfl
  | processing now => exact leads_processing hgoal hl rfl
  | scheduling => exact leads_scheduling hgoal hl rfl
  | draining | exited =>
    rw [hl] at hend
    cases hend

/-- The call has returned. -/
def Returned (i : Nat) (timed : TimedChunk β) (f : DelayFilter β) : Prop :=
  f.producers[i]? = some ⟨timed, .returned⟩

/-- A call in front of its send returns once the loop is in its `select`. -/
theorem leads_signalling (h : Served f) (hend : f.loop.ending = false) {timed : TimedChunk β}
    (hp : f.producers[i]? = some ⟨timed, .signalling⟩) : Leads f (Returned i timed) := by
  refine leads_selecting h hend fun g hl hg => ?_
  rw [← hg] at hp
  have hstep : g.step (.signal i) =
      some ({ g.moveProducer i .returned with loop := .updating }, .moved) := by
    simp only [DelayFilter.step, signal, hp, hl]
  exact .after hstep (.here (getElem?_modify_self hp _))

/-- Every call can return. -/
theorem Served.completes (h : Served f) {p : Producer β} (hp : f.producers[i]? = some p) :
    Leads f (Returned i p.timed) := by
  obtain ⟨timed, pos⟩ := p
  cases hend : f.loop.ending with
  | true =>
    have hreturned := h.served hend _ (List.mem_of_getElem? hp)
    cases hreturned
    exact .here hp
  | false =>
    cases pos with
    | returned => exact .here hp
    | signalling => exact leads_signalling h hend hp
    | stamped =>
      have hstep : f.step (.enqueue i) = some ({ f.moveProducer i .signalling with
          queue := f.queue ++ [timed], queued := f.queued ++ [timed] }, .moved) := by
        simp only [DelayFilter.step, enqueue, hp]
      have h' := h.step rfl (step_transition hstep)
      exact .after hstep (leads_signalling h' hend (getElem?_modify_self hp _))

end Quiet

variable {f f' : DelayFilter β}

/-- In every run in which the loop sees `Close` only while no call is in progress and no call starts
after that: a loop that has ended leaves no call behind, and every call can return. -/
theorem producers_complete {now : Int} {opts : List (Option Int)} {es : List (Event β)}
    {os : List Outcome} (hnew : newDelayFilter now opts = .ok f)
    (hquiet : Along DelayFilter.step (fun f e => f.quiet e = true) f es)
    (hrun : run DelayFilter.step f es = some (f', os)) :
    (f'.loop = .exited → ∀ p ∈ f'.producers, p.pos = .returned) ∧
    ∀ (i : Nat) (p : Producer β), f'.producers[i]? = some p → ∃ es' f'' os',
      run DelayFilter.step f' es' = some (f'', os') ∧
        f''.producers[i]? = some ⟨p.timed, .returned⟩ := by
  have h := (served_new hnew).run hquiet hrun
  constructor
  · intro hexited
    exact h.served (by rw [hexited]; rfl)
  · intro i p hp
    exact h.completes hp

/-- `Close` is called during a call, and the loop receives from the call before it sees `Close`. -/
theorem producers_complete_before_close : ∃ f' os,
    run DelayFilter.step { delay := 5, now := 0, timer := some 0 }
        [.call 1, .close, .enqueue 0, .signal 0, .update, .observe, .drain, .drain] =
      some (f', os) ∧ f'.loop = .exited ∧ ∀ p ∈ f'.producers, p.pos = .returned := by
  have hnew : newDelayFilter (β := Nat) 0 [some 5] =
      .ok { delay := 5, now := 0, timer := some 0 } := rfl
  refine exists_run (fun f _ => f.loop = .exited) (by decide) ?_
  exact fun f' os hrun hexited =>
    ⟨hexited, (producers_complete hnew (by decide) hrun).1 hexited⟩

/-- The loop has ended and the call has not returned, or is not made yet. -/
structure Stranded (i : Nat) (f : DelayFilter β) : Prop where
  exited : f.loop = .exited
  unreturned : ∀ timed, ¬ Returned i timed f

theorem Stranded.step {e : Event β} {i : Nat} (h : Stranded i f) (ht : Transition f e f') :
    Stranded i f' := by
  have hexited := h.exited
  cases ht with
  | stutter => exact h
  | elapse | setDelay | close | closeReturn => exact ⟨h.exited, h.unreturned⟩
  | call =>
    refine ⟨h.exited, fun timed hr => ?_⟩
    rcases getElem?_snoc_iff.mp hr with ⟨-, hnew⟩ | hold
    · cases hnew
    · exact h.unreturned timed hold
  | enqueue hp =>
    refine ⟨h.exited, fun timed' hr => ?_⟩
    rcases (getElem?_modify_of_some hp).mp hr with ⟨-, he⟩ | ⟨-, hold⟩
    · cases he
    · exact h.unreturned timed' hold
  | signal hp hl | updateIdle hl | update hl | fire hl | forward hl | processed hl
  | scheduleIdle hl | schedule hl | observe hl | drain hl | exit hl =>
    rw [hexited] at hl
    cases hl

/-- A call that has not returned by the end of the loop never returns. -/
theorem Stranded.run {es : List (Event β)} {os : List Outcome} {i : Nat} (h : Stranded i f)
    (hrun : run DelayFilter.step f es = some (f', os)) : Stranded i f' :=
  keeps_of_step (fun h hstep => Stranded.step h (step_transition hstep)) h hrun

/-- `Close` comes between the push of a call to the queue and its send. The chunk is drained, the
loop ends, and neither this call nor the next one ever returns. -/
theorem close_strands_producers : ∃ f os,
    run DelayFilter.step { delay := 0, now := 0, timer := some 0 }
        [.call 1, .enqueue 0, .close, .observe, .drain, .drain] = some (f, os) ∧
      f.producers = [⟨⟨1, 0, 0⟩, .signalling⟩] ∧
      ∀ es f' os', run DelayFilter.step f es = some (f', os') →
        ∀ timed, f'.producers[0]? ≠ some ⟨timed, .returned⟩ ∧
          f'.producers[1]? ≠ some ⟨timed, .returned⟩ := by
  refine exists_run (fun f _ => f.loop = .exited ∧ f.producers = [⟨⟨1, 0, 0⟩, .signalling⟩])
    (by decide) ?_
  rintro f os - ⟨hexited, hproducers⟩
  refine ⟨hproducers, fun es f' os' hrest timed => ?_⟩
  have hfirst : Stranded 0 f := ⟨hexited, by simp [Returned, hproducers]⟩
  have hnext : Stranded 1 f := ⟨hexited, by simp [Returned, hproducers]⟩
  exact ⟨(hfirst.run hrest).unreturned timed, (hnext.run hrest).unreturned timed⟩

end PionTransport.Vnet.Delay
