import PionTransport.Vnet.Delay

/-!
# The delay filter forwards in order and in time

Only the run loop takes chunks off the queue, from its front, so what it has
forwarded and what is left are together what was queued. A chunk that is
forwarded before the filter is closed passes the comparison of its deadline with
the time the timer has sent. Each signal of a producer re-arms the timer for the
head of the queue, and so does each round of the loop.
-/

namespace PionTransport.Vnet.Delay

open PionTransport.Core DelayFilter

variable {β : Type}

/-- The run loop has received from `done`. -/
def LoopAt.ending : LoopAt → Bool
  | .draining | .exited => true
  | .selecting | .updating | .processing _ | .scheduling => false

/-- The timer is set for the deadline of the chunk, or at once if that has passed. -/
def DelayFilter.ArmedFor (f : DelayFilter β) (c : TimedChunk β) : Prop :=
  ∃ due, f.timer = some due ∧ c.deadline ≤ due ∧ (due = c.deadline ∨ due ≤ f.now)

/-- Some call is in front of its send to `push`. -/
def DelayFilter.Signalling (f : DelayFilter β) : Prop :=
  ∃ (i : Nat) (timed : TimedChunk β), f.producers[i]? = some ⟨timed, .signalling⟩

/-- The invariant of the filter. -/
structure Orderly (f : DelayFilter β) : Prop where
  order : f.queued = f.forwarded.map Prod.fst ++ f.queue
  timely : ∀ c v, (c, some v) ∈ f.forwarded → c.deadline ≤ v ∧ v ≤ f.now
  drained : ∀ c, (c, none) ∈ f.forwarded → f.loop.ending = true
  observed : f.observed.isSome = f.loop.ending
  known : ∀ {n}, f.observed = some n → n ≤ f.queued.length
  emptied : ∀ {n}, f.observed = some n → f.loop = .exited → n ≤ f.forwarded.length
  instant : ∀ {v}, f.loop = .processing v → v ≤ f.now
  head : f.loop = .selecting → ∀ {c rest}, f.queue = c :: rest → f.Signalling ∨ f.ArmedFor c

section Invariant

variable {f f' : DelayFilter β} {e : Event β}

theorem orderly_new {now : Int} {opts : List (Option Int)}
    (h : newDelayFilter now opts = .ok f) : Orderly f := by
  obtain ⟨delay, rfl⟩ := newDelayFilter_ok h
  refine ⟨rfl, by simp, by simp, rfl, by simp, by simp, by simp, ?_⟩
  intro _ c rest hq
  cases hq

/-- `Reset` arms the timer for the deadline that is still to come, or at once. -/
theorem armedFor_resetUntil (c : TimedChunk β) (loop : LoopAt) :
    DelayFilter.ArmedFor { f.resetUntil c.deadline with loop := loop } c := by
  refine ⟨_, rfl, ?_, ?_⟩
  · omega
  · change _ = _ ∨ f.now + max 0 (c.deadline - f.now) ≤ f.now
    omega

theorem DelayFilter.ArmedFor.later {c : TimedChunk β} (h : f.ArmedFor c)
    (htimer : f'.timer = f.timer) (hnow : f.now ≤ f'.now) : f'.ArmedFor c := by
  obtain ⟨due, ht, hdue, hwhen⟩ := h
  exact ⟨due, htimer.trans ht, hdue, hwhen.imp_right fun hle => Int.le_trans hle hnow⟩

/-- Calls that are signalling stay so unless they are received. -/
theorem DelayFilter.Signalling.append (h : f.Signalling) (p : Producer β)
    (hproducers : f'.producers = f.producers ++ [p]) : f'.Signalling := by
  obtain ⟨i, timed, hi⟩ := h
  refine ⟨i, timed, ?_⟩
  rw [hproducers]
  exact getElem?_snoc_iff.mpr (.inr hi)

/-- The run loop moves between places that do not concern the queue. -/
theorem Orderly.turn (h : Orderly f) {loop : LoopAt} {timer : Option Int}
    (hending : loop.ending = f.loop.ending) (hexited : loop ≠ .exited)
    (hinstant : ∀ {v}, loop = .processing v → v ≤ f.now)
    (hhead : loop = .selecting → ∀ {c rest}, f.queue = c :: rest →
      f.Signalling ∨ DelayFilter.ArmedFor { f with timer := timer } c) :
    Orderly { f with loop := loop, timer := timer } where
  order := h.order
  timely := h.timely
  drained c hc := hending.trans (h.drained c hc)
  observed := h.observed.trans hending.symm
  known := h.known
  emptied _ he := absurd he hexited
  instant := hinstant
  head := hhead

/-- The run loop finds nothing to arm its timer for. -/
theorem Orderly.idle (h : Orderly f) (hending : f.loop.ending = false) (hq : f.queue = [])
    (timer : Option Int) : Orderly { f with loop := .selecting, timer := timer } := by
  apply h.turn
  · exact hending.symm
  · simp
  · simp
  · intro _ c rest hcons
    rw [hq] at hcons
    cases hcons

/-- The run loop arms its timer for the head of the queue. -/
theorem Orderly.reset (h : Orderly f) (hending : f.loop.ending = false) {c : TimedChunk β}
    {rest : List (TimedChunk β)} (hq : f.queue = c :: rest) :
    Orderly { f.resetUntil c.deadline with loop := .selecting } := by
  apply h.turn
  · exact hending.symm
  · simp
  · simp
  · intro _ c' rest' hcons
    rw [hq] at hcons
    cases hcons
    exact .inr (armedFor_resetUntil c _)

/-- The run loop forwards the head of the queue, in time or in the drain. -/
theorem Orderly.take (h : Orderly f) {c : TimedChunk β} {rest : List (TimedChunk β)}
    (hq : f.queue = c :: rest) (hexited : f.loop ≠ .exited) (hselecting : f.loop ≠ .selecting)
    {received : Option Int} (htimely : ∀ v, received = some v → c.deadline ≤ v ∧ v ≤ f.now)
    (hdrained : received = none → f.loop.ending = true) :
    Orderly { f with queue := rest, forwarded := f.forwarded ++ [(c, received)] } := by
  refine ⟨?_, fun d v hd => ?_, fun d hd => ?_, h.observed, h.known, fun _ he => absurd he hexited,
    h.instant, fun he => absurd he hselecting⟩
  · change f.queued = (f.forwarded ++ [(c, received)]).map Prod.fst ++ rest
    rw [h.order, hq, List.map_append, List.append_assoc]
    rfl
  · rcases List.mem_append.mp hd with hd | hd
    · exact h.timely d v hd
    · cases List.mem_singleton.mp hd
      exact htimely v rfl
  · rcases List.mem_append.mp hd with hd | hd
    · exact h.drained d hd
    · cases List.mem_singleton.mp hd
      exact hdrained rfl

theorem Orderly.step (h : Orderly f) (ht : Transition f e f') : Orderly f' := by
  cases ht with
  | stutter => exact h
  | @elapse d =>
    have hle : f.now ≤ f.now + d := by omega
    refine ⟨h.order, fun c v hc => ?_, h.drained, h.observed, h.known, h.emptied,
      fun hl => Int.le_trans (h.instant hl) hle, fun hl c rest hq => ?_⟩
    · obtain ⟨hdeadline, hnow⟩ := h.timely c v hc
      exact ⟨hdeadline, Int.le_trans hnow hle⟩
    · exact (h.head hl hq).imp_right fun ha => ha.later rfl hle
  | setDelay | close | closeReturn =>
    exact ⟨h.order, h.timely, h.drained, h.observed, h.known, h.emptied, h.instant, h.head⟩
  | call =>
    refine ⟨h.order, h.timely, h.drained, h.observed, h.known, h.emptied, h.instant,
      fun hl c rest hq => ?_⟩
    exact (h.head hl hq).imp_left fun hs => hs.append _ rfl
  | @enqueue i timed hp =>
    refine ⟨?_, h.timely, h.drained, h.observed, fun hn => ?_, h.emptied, h.instant,
      fun _ c rest _ => .inl ⟨i, timed, ?_⟩⟩
    · change f.queued ++ [timed] = f.forwarded.map Prod.fst ++ (f.queue ++ [timed])
      rw [h.order, List.append_assoc]
    · have hle := h.known hn
      change _ ≤ (f.queued ++ [timed]).length
      rw [List.length_append]
      omega
    · exact getElem?_modify_self hp _
  | signal hp hl =>
    refine ⟨h.order, h.timely, fun c hc => ?_, ?_, h.known, nofun, nofun, nofun⟩
    · have hend := h.drained c hc
      rw [hl] at hend
      cases hend
    · have hobserved := h.observed
      rw [hl] at hobserved
      exact hobserved
  | updateIdle hl hq => exact h.idle (by rw [hl]; rfl) hq f.timer
  | scheduleIdle hl hq => exact h.idle (by rw [hl]; rfl) hq _
  | update hl hq | schedule hl hq => exact h.reset (by rw [hl]; rfl) hq
  | fire hl ht hdue hnow =>
    apply h.turn
    · rw [hl]
      rfl
    · simp
    · rintro v hv
      cases hv
      exact hnow
    · intro he
      cases he
  | forward hl hq hdue =>
    refine h.take hq (by simp [hl]) (by simp [hl]) (fun v hv => ?_) (fun hnone => ?_)
    · cases hv
      exact ⟨hdue, h.instant hl⟩
    · cases hnone
  | processed hl =>
    apply h.turn
    · rw [hl]
      rfl
    · simp
    · simp
    · intro he
      cases he
  | observe hl hd =>
    refine ⟨h.order, h.timely, fun _ _ => rfl, rfl, fun hn => ?_, nofun, nofun, nofun⟩
    cases hn
    exact Nat.le_refl _
  | drain hl hq =>
    refine h.take hq (by simp [hl]) (by simp [hl]) (fun v hv => ?_) (fun _ => ?_)
    · cases hv
    · rw [hl]
      rfl
  | exit hl hq =>
    refine ⟨h.order, h.timely, fun _ _ => rfl, ?_, h.known, fun hn _ => ?_, nofun, nofun⟩
    · have hobserved := h.observed
      rw [hl] at hobserved
      exact hobserved
    · -- the queue is empty, so everything queued has been forwarded
      have hlength := congrArg List.length h.order
      rw [hq, List.append_nil, List.length_map] at hlength
      exact hlength ▸ h.known hn

theorem Orderly.run {es : List (Event β)} {os : List Outcome} (h : Orderly f)
    (hrun : run DelayFilter.step f es = some (f', os)) : Orderly f' :=
  keeps_of_step (fun h hstep => Orderly.step h (step_transition hstep)) h hrun

end Invariant

/-- Two chunks, the second with an earlier deadline because the delay was lowered: they leave in the
order of the queue, both when the timer for the first fires. -/
def loweredDelay : List (Event Nat) :=
  [.call 1, .enqueue 0, .signal 0, .update, .setDelay 1, .call 2, .enqueue 1, .signal 1, .update,
    .elapse 5, .fire 5, .process, .process, .process, .schedule]

end PionTransport.Vnet.Delay
