import PionTransport.Udp.Batching

/-!
# What `Close` leaves behind

`Close` raises a flag and sends one wake-up. The flusher reads the flag at the
head of its loop, so the write batch is flushed only if the flusher is past
that point: parked in its `select` and woken for a swap, or already awake. A
flusher that is busy with the other batch leaves without looking at this one.
-/

namespace PionTransport.Udp.Batch

open PionTransport.Core

variable {α : Type}

/-- `WriteBatch` fails. -/
def Event.fails : Event α → Bool
  | .writeBatch none => true
  | _ => false

/-- The flusher leaves its `select` by a tick that comes before the interval has elapsed. -/
def PingPong.idles (p : PingPong α) : Event α → Bool
  | .tick elapsed => p.flusher = .selecting && !elapsed
  | _ => false

/-- At the call of `Close` the write batch is empty, or the flusher is awake, or it is parked in
its `select` and does not leave it without a swap. -/
def Drains (p : PingPong α) (es : List (Event α)) : Prop :=
  p.current.writePos = 0 ∨ p.flusher = .awake ∨
    p.flusher = .selecting ∧ Along PingPong.step (fun p e => p.idles e = false) p es

instance Drains.decidable (p : PingPong α) (es : List (Event α)) : Decidable (Drains p es) := by
  unfold Drains
  infer_instance

/-- The messages transmitted or in the batch being flushed. -/
def PingPong.handed (p : PingPong α) : List (Message α) := p.sent ++ p.unflushed

theorem PingPong.content_eq (p : PingPong α) : p.content = p.handed ++ p.current.written := rfl

section Draining

variable {size : Nat} {p p' : PingPong α} {e : Event α} {o : Outcome α} {es : List (Event α)}
  {os : List (Outcome α)}

theorem handed_moveFlusher (hsent : p'.sent = p.sent) (h : ∀ i txN, p.flusher ≠ .flushing i txN)
    (h' : ∀ i txN, p'.flusher ≠ .flushing i txN) : p'.handed = p.handed := by
  rw [PingPong.handed, PingPong.handed, unflushed_eq_nil h, unflushed_eq_nil h', hsent]

/-- The swap hands the write batch over. -/
theorem handed_swap (hf : p.flusher = .awake) (hi : p.writeBatchIdx = p.readBatchIdx) :
    PingPong.handed { p with
      writeBatchIdx := !p.writeBatchIdx
      flushPending := true
      writeBatchSwapped := p.writeBatchSwapped + 1
      flusher := .flushing p.readBatchIdx 0 } = p.content := by
  rw [PingPong.content, unflushed_eq_nil (by simp [hf]), List.append_nil, PingPong.current, hi]
  rfl

/-- Only the swap of a flusher that is awake hands messages over, and it hands over all. -/
theorem handed_step (hwf : Wf size p) (hok : p.succeeds e) (ht : Transition p e p' o) :
    p'.handed = p.handed ∨ p.flusher = .awake ∧ p'.handed = p.content := by
  cases ht with
  | accept hw hbuf hfree hroom hmsg =>
    left
    rw [PingPong.handed, PingPong.handed]
    congr 1
    exact unflushed_store hwf _
  | exit hf | park hf | ready hf | unswapped hf | updateRead hf | unread hf | release hf
  | finish hf => exact .inl (handed_moveFlusher rfl (by simp [hf]) (by simp))
  | @tick elapsed hf =>
    refine .inl (handed_moveFlusher rfl (by simp [hf]) ?_)
    cases elapsed <;> simp
  | swap hf hi hp => exact .inr ⟨hf, handed_swap hf hi⟩
  | writeError hf hlt => exact absurd (hok rfl _ _ hf) (Nat.not_le_of_lt hlt)
  | writeBatch hf hlt =>
    left
    simp only [PingPong.handed, PingPong.unflushed, hf, MessageBatch.offered, List.append_assoc]
    rw [← List.drop_drop, List.take_append_drop]
  | flushed hf hle =>
    left
    rw [PingPong.handed, PingPong.handed, unflushed_flushed hf hle]
    rfl
  | _ => exact .inl rfl

/-- A flusher that is awake stays so until its swap. -/
theorem awake_step (hwf : Wf size p) (ht : Transition p e p' o) (hf : p.flusher = .awake) :
    p'.flusher = .awake ∨ p'.handed = p.content := by
  cases ht with
  | swap _ hi hp => exact .inr (handed_swap hf hi)
  | unswapped _ hno =>
    obtain ⟨hindex, hpending⟩ := hwf.awake hf
    simp [hindex, hpending] at hno
  | exit hf' | park hf' | tick hf' | ready hf' | writeError hf' | writeBatch hf' | flushed hf'
  | updateRead hf' | unread hf' | release hf' | finish hf' =>
    rw [hf] at hf'
    cases hf'
  | _ => exact .inl hf

/-- A parked flusher leaves its `select` for a swap or by an early tick. -/
theorem selecting_step (ht : Transition p e p' o) (hf : p.flusher = .selecting) :
    p'.flusher = .selecting ∨ p'.flusher = .awake ∨ p.idles e = true := by
  cases ht with
  | @tick elapsed =>
    cases elapsed with
    | false => exact .inr (.inr (by simp [PingPong.idles, hf]))
    | true => exact .inr (.inl rfl)
  | ready => exact .inr (.inl rfl)
  | exit hf' | park hf' | swap hf' | unswapped hf' | writeError hf' | writeBatch hf' | flushed hf'
  | updateRead hf' | unread hf' | release hf' | finish hf' =>
    rw [hf] at hf'
    cases hf'
  | _ => exact .inl hf

/-- `Close` returns only after the flusher has ended. -/
def Awaited (p : PingPong α) : Prop := .returned ∈ p.closers → p.flusherDone = true

theorem Awaited.step (h : Awaited p) (ht : Transition p e p' o) : Awaited p' := by
  cases ht with
  | closeStore => exact fun hc => h (by simpa using hc)
  | closeSignal => exact fun hc => h ((List.mem_or_eq_of_mem_set hc).resolve_right (by simp))
  | closeReturn _ hdone => exact fun _ => hdone
  | finish => exact fun _ => rfl
  | _ => exact h

/-- The first `k` messages are handed over, or will be before the flusher leaves. -/
def Secured (k : Nat) (p : PingPong α) (es : List (Event α)) : Prop :=
  k ≤ p.handed.length ∨ p.flusher = .awake ∨
    p.flusher = .selecting ∧ Along PingPong.step (fun p e => p.idles e = false) p es

theorem Secured.step {k : Nat} (h : Secured k p (e :: es)) (hwf : Wf size p) (hok : p.succeeds e)
    (hk : k ≤ p.content.length) (hstep : p.step e = some (p', o)) : Secured k p' es := by
  have ht := step_transition hstep
  obtain hk' | hf | ⟨hf, halong⟩ := h
  · left
    obtain he | ⟨-, he⟩ := handed_step hwf hok ht
    · rwa [he]
    · rwa [he]
  · obtain hf' | he := awake_step hwf ht hf
    · exact .inr (.inl hf')
    · exact .inl (by rwa [he])
  · obtain ⟨hidle, halong'⟩ := along_cons halong hstep
    obtain hf' | hf' | hidle' := selecting_step ht hf
    · exact .inr (.inr ⟨hf', halong'⟩)
    · exact .inr (.inl hf')
    · rw [hidle] at hidle'
      cases hidle'

theorem Secured.run {k : Nat} (h : Secured k p es) (hwf : Wf size p)
    (hok : Along PingPong.step PingPong.succeeds p es) (hk : k ≤ p.content.length)
    (hrun : run PingPong.step p es = some (p', os)) : Secured k p' [] := by
  induction hrun using run_induct with
  | nil => exact h
  | cons hstep _ ih =>
    obtain ⟨hok₁, hok⟩ := along_cons hok hstep
    have ht := step_transition hstep
    obtain ⟨ms, hms, -⟩ := content_step hwf hok₁ ht
    refine ih (h.step hwf hok₁ hk hstep) (hwf.step ht) hok ?_
    rw [hms, List.length_append]
    omega

theorem awaited_run (hwf : Wf size p) (h : Awaited p)
    (hrun : run PingPong.step p es = some (p', os)) : Wf size p' ∧ Awaited p' := by
  obtain ⟨p₁, os₁, hrun₁, h₁⟩ : ∃ p₁ os₁, Core.run PingPong.step p es = some (p₁, os₁) ∧
      Wf size p₁ ∧ Awaited p₁ := by
    refine run_keeps (fun p e (h : Wf size p ∧ Awaited p) => ?_) es ⟨hwf, h⟩
    obtain ⟨p₁, o, hstep⟩ := h.1.progress e
    have ht := step_transition hstep
    exact ⟨p₁, o, hstep, h.1.step ht, h.2.step ht⟩
  rw [hrun] at hrun₁
  cases hrun₁
  exact h₁

/-- Once `Close` has returned, what is handed over is transmitted. -/
theorem handed_of_returned (hwf : Wf size p) (h : Awaited p) (hret : .returned ∈ p.closers) :
    p.flusher = .ended ∧ p.handed = p.sent := by
  have hf := hwf.done (h hret)
  exact ⟨hf, by rw [PingPong.handed, unflushed_eq_nil (by simp [hf]), List.append_nil]⟩

theorem along_succeeds (h : ∀ e ∈ es, e.fails = false) (p : PingPong α) :
    Along PingPong.step PingPong.succeeds p es := by
  refine along_of_mem (fun e he p hnone => ?_) p
  have := h e he
  rw [hnone] at this
  cases this

theorem awaited_new : Awaited (newPingPong size : PingPong α) := fun h => by cases h

theorem content_of_run {es : List (Event α)} {os : List (Outcome α)}
    (hok : ∀ e ∈ es, e.fails = false)
    (hrun : run PingPong.step (newPingPong size) es = some (p, os)) :
    List.Forall₂ Carries p.content (acceptances os) := by
  have hnew : Wf size (newPingPong size : PingPong α) := Wf.new
  obtain ⟨ms, hms, hcarry⟩ := content_run hnew (along_succeeds hok _) hrun
  rw [content_new, List.nil_append] at hms
  rwa [hms]

/-- A run up to a call of `Close`, and on until a `Close` has returned. -/
theorem closed_run {pre post : List (Event α)} {p₁ p₂ : PingPong α} {os₁ os₂ : List (Outcome α)}
    (hpre : run PingPong.step (newPingPong size) pre = some (p₁, os₁))
    (hclose : run PingPong.step p₁ post = some (p₂, os₂)) (hok : ∀ e ∈ pre, e.fails = false)
    (hret : .returned ∈ p₂.closers) :
    Wf size p₁ ∧ List.Forall₂ Carries p₁.content (acceptances os₁) ∧ p₂.flusher = .ended ∧
      p₂.handed = p₂.sent := by
  have hnew : Wf size (newPingPong size : PingPong α) := Wf.new
  obtain ⟨hwf₁, hwait₁⟩ := awaited_run hnew awaited_new hpre
  obtain ⟨hwf₂, hwait₂⟩ := awaited_run hwf₁ hwait₁ hclose
  exact ⟨hwf₁, content_of_run hok hpre, handed_of_returned hwf₂ hwait₂ hret⟩

/-- If the flusher drains the write batch, then every message whose call returned its length
before `Close` was called is transmitted when `Close` returns. -/
theorem close_hands_over (size : Nat) {pre post : List (Event α)} {p₁ p₂ : PingPong α}
    {os₁ os₂ : List (Outcome α)}
    (hpre : run PingPong.step (newPingPong size) pre = some (p₁, os₁))
    (hclose : run PingPong.step p₁ (.closeStore :: post) = some (p₂, os₂))
    (hok : ∀ e ∈ pre ++ post, e.fails = false)
    (hdrains : Drains p₁ (.closeStore :: post)) (hret : .returned ∈ p₂.closers) :
    (∀ i buf raddr, buf ≠ [] → p₁.writers[i]? = some ⟨buf, raddr, .returned buf.length⟩ →
      .accepted i buf raddr ∈ os₁) ∧
    List.Forall₂ Carries (p₂.sent.take (acceptances os₁).length) (acceptances os₁) := by
  obtain ⟨hwf₁, hcarry, hf, hsent⟩ :=
    closed_run hpre hclose (fun e he => hok e (List.mem_append_left _ he)) hret
  have hok' : ∀ e ∈ .closeStore :: post, e.fails = false := by
    rw [List.forall_mem_cons]
    exact ⟨rfl, fun e he => hok e (List.mem_append_right _ he)⟩
  obtain ⟨ms, hms, -⟩ := content_run hwf₁ (along_succeeds hok' p₁) hclose
  have hsecured : Secured p₁.content.length p₂ [] := by
    refine Secured.run ?_ hwf₁ (along_succeeds hok' p₁) (Nat.le_refl _) hclose
    obtain hempty | hdrains := hdrains
    · left
      apply Nat.le_of_eq
      rw [p₁.content_eq, MessageBatch.written, hempty, List.take_zero, List.append_nil]
    · exact .inr hdrains
  have hlen : p₁.content.length ≤ p₂.sent.length := by
    rw [← hsent]
    simpa [Secured, hf] using hsecured
  refine ⟨fun i buf raddr hbuf hi => ?_, ?_⟩
  · refine ((answered_run hpre).mp ⟨hbuf, _, hi, by simp [WriterAt.answers]⟩).resolve_left ?_
    rintro ⟨-, pos, hpos, -⟩
    cases hpos
  · -- the transmitted messages begin with the content at the call of `Close`
    have htake : p₂.sent.take p₁.content.length = p₁.content := by
      calc p₂.sent.take p₁.content.length
        _ = p₂.content.take p₁.content.length := by
          rw [p₂.content_eq, hsent, List.take_append_of_le_length hlen]
        _ = p₁.content := by rw [hms, List.take_left]
    rw [← hcarry.length_eq, htake]
    exact hcarry

/-- The second message fills the write batch while the flusher is in `WriteBatch` of the first. -/
def acceptDuringFlush : List (Event Nat) :=
  [.call [1] (some 7), .enqueue 0, .signal 0, .loop, .ready, .swap, .call [2] (some 8),
    .enqueue 1, .signal 1]

/-- The flush ends after `Close` has raised its flag. -/
def closeDuringFlush : List (Event Nat) :=
  [.closeSignal 0, .writeBatch (some 1), .flushed, .updateRead, .loop, .release, .finish,
    .closeReturn 0]

/-- `Close` drops a message whose call has returned its length. -/
theorem close_drops_second :
    (∀ e ∈ acceptDuringFlush ++ closeDuringFlush, e.fails = false) ∧
    ((run PingPong.step (newPingPong 1) acceptDuringFlush).map fun r =>
      (r.1.closed, r.1.writers[1]?)) = some (false, some ⟨[2], some 8, .returned 1⟩) ∧
    ((run PingPong.step (newPingPong 1) (acceptDuringFlush ++ .closeStore :: closeDuringFlush)).map
      fun r => (r.1.closers, r.1.sent)) = some ([.returned], [⟨[[1]], some 7⟩]) := by
  decide +kernel

/-- The flusher is parked when the message comes. -/
def acceptParked : List (Event Nat) := [.loop, .call [1] (some 7), .enqueue 0]

/-- The wake-up of `Close` takes the flusher to the swap. -/
def closeParked : List (Event Nat) :=
  [.closeSignal 0, .ready, .swap, .writeBatch (some 1), .flushed, .updateRead, .loop, .release,
    .finish, .closeReturn 0]

theorem close_hands_over_parked :
    ∃ p₁ os₁ p₂ os₂, run PingPong.step (newPingPong 2) acceptParked = some (p₁, os₁) ∧
      run PingPong.step p₁ (.closeStore :: closeParked) = some (p₂, os₂) ∧
      acceptances os₁ = [([1], some 7)] ∧
      List.Forall₂ Carries (p₂.sent.take (acceptances os₁).length) (acceptances os₁) := by
  obtain ⟨p₁, os₁, hpre, hwf⟩ := Wf.run (Wf.new : Wf 2 (newPingPong 2 : PingPong Nat)) acceptParked
  obtain ⟨p₂, os₂, hclose, -⟩ := hwf.run (.closeStore :: closeParked)
  obtain ⟨hacc, hdrains, hreturned⟩ := holds_of_run hpre (fun p os =>
    acceptances os = [([1], some 7)] ∧ Drains p (.closeStore :: closeParked) ∧
      (run PingPong.step p (.closeStore :: closeParked)).any fun r => .returned ∈ r.1.closers)
    (by decide +kernel)
  exact ⟨p₁, os₁, p₂, os₂, hpre, hclose, hacc, (close_hands_over 2 hpre hclose (by decide) hdrains
    (holds_of_run hclose (fun p _ => .returned ∈ p.closers) hreturned)).2⟩

end Draining

end PionTransport.Udp.Batch
