import PionTransport.Udp.Batching

/-!
# No lost wake-up

Only the writer that fills the write batch signals; those that find it full just
wait. So a full batch always has its wake-up under way: in the hands of the
writer that filled it, in `writeReady`, or with the flusher in front of the swap.
-/

namespace PionTransport.Udp.Batch

open PionTransport.Core

variable {α : Type}

/-- The writer `i` has filled the write batch and not yet sent to `writeReady`. -/
def Fills (p : PingPong α) (i : Nat) : Prop :=
  ∃ buf raddr, buf ≠ [] ∧
    p.writers[i]? = some ⟨buf, raddr, .signalling buf.length p.writeBatchSwapped⟩

/-- The writer `i` receives from a channel that is open. -/
def Blocked (p : PingPong α) (i ch : Nat) : Prop :=
  (∃ buf raddr, p.writers[i]? = some ⟨buf, raddr, .waiting ch⟩) ∧ p.channelClosed ch = false

/-- Where the wake-up for a full write batch is, and which channels writers wait for. -/
structure Roused (p : PingPong α) : Prop where
  full : p.current.isFull = true →
    p.writeReady = true ∨ (∃ i, Fills p i) ∨ p.flusher = .awake
  waiting : ∀ {i : Nat} {buf raddr ch}, p.writers[i]? = some ⟨buf, raddr, .waiting ch⟩ →
    ch < p.writeBatchSwapped ∨ ch = p.writeBatchSwapped ∧ p.current.isFull = true

section Wakeups

variable {size : Nat} {p p' : PingPong α} {e : Event α} {o : Outcome α}

variable {i : Nat} {pos : WriterAt}

theorem moveWriter_cases {j : Nat} {w : Writer α} (h : (p.moveWriter i pos).writers[j]? = some w) :
    w.pos = pos ∨ p.writers[j]? = some w := by
  obtain ⟨w₀, hw₀, rfl⟩ := getElem?_modify_iff.mp h
  split
  · exact .inl rfl
  · exact .inr hw₀

variable {buf : List UInt8} {raddr : Option α}

/-- A writer that is not in front of its send moves. -/
theorem Fills.moveWriter {j : Nat} (h : Fills p j) (hi : p.writers[i]? = some ⟨buf, raddr, pos⟩)
    (hpos : ∀ n ch, pos ≠ .signalling n ch) (pos' : WriterAt) : Fills (p.moveWriter i pos') j := by
  obtain ⟨b, a, hb, hj⟩ := h
  refine ⟨b, a, hb, getElem?_modify_iff.mpr ⟨_, hj, if_neg ?_⟩⟩
  rintro rfl
  rw [hi] at hj
  cases hj
  exact hpos _ _ rfl

/-- A step that moves one writer, not yet in front of its send, to a place without a wait. -/
theorem Roused.moveWriter (h : Roused p) {pos' : WriterAt}
    (hi : p.writers[i]? = some ⟨buf, raddr, pos⟩) (hpos : ∀ n ch, pos ≠ .signalling n ch)
    (hpos' : ∀ ch, pos' ≠ .waiting ch) :
    Roused (p.moveWriter i pos') where
  full hfull := by
    obtain hr | ⟨j, hj⟩ | hf := h.full hfull
    · exact .inl hr
    · exact .inr (.inl ⟨j, hj.moveWriter hi hpos pos'⟩)
    · exact .inr (.inr hf)
  waiting hw := by
    obtain hw | hw := moveWriter_cases hw
    · exact absurd hw.symm (hpos' _)
    · exact h.waiting hw

/-- A step of the flusher or of `Close` that keeps the write batch and takes no wake-up. -/
theorem Roused.frame (h : Roused p) (hcurrent : p'.current = p.current)
    (hready : p.writeReady = true → p'.writeReady = true) (hwriters : p'.writers = p.writers)
    (hch : p'.writeBatchSwapped = p.writeBatchSwapped)
    (hawake : p.flusher = .awake → p'.flusher = .awake) : Roused p' where
  full hfull := by
    rw [hcurrent] at hfull
    obtain hr | ⟨i, b, a, hb, hi⟩ | hf := h.full hfull
    · exact .inl (hready hr)
    · refine .inr (.inl ⟨i, b, a, hb, ?_⟩)
      rw [hwriters, hch]
      exact hi
    · exact .inr (.inr (hawake hf))
  waiting hw := by
    rw [hwriters] at hw
    rw [hch, hcurrent]
    exact h.waiting hw

theorem Roused.new (hsize : 1 ≤ size) : Roused (newPingPong size : PingPong α) where
  full hfull := by
    have hzero : 0 = size := by simpa [PingPong.current, newPingPong, newMessageBatch,
      MessageBatch.isFull] using hfull
    omega
  waiting hw := by cases hw

/-- The swap leaves no full batch and closes the channel that writers wait for. -/
theorem Roused.swap (h : Roused p) (hwf : Wf size p) (hsize : 1 ≤ size) (hf : p.flusher = .awake) :
    Roused { p with
      writeBatchIdx := !p.writeBatchIdx
      flushPending := true
      writeBatchSwapped := p.writeBatchSwapped + 1
      flusher := .flushing p.readBatchIdx 0 } where
  full hfull := by
    have hspare : (p.batches (!p.writeBatchIdx)).writePos = 0 :=
      hwf.spare _ (by simp) (by simp [hf])
    have hsz := (hwf.sized (!p.writeBatchIdx)).size_eq
    have hpos : (p.batches (!p.writeBatchIdx)).writePos = (p.batches (!p.writeBatchIdx)).size := by
      simpa [PingPong.current, MessageBatch.isFull] using hfull
    omega
  waiting {i buf raddr ch} hw := by
    have hle : ch < p.writeBatchSwapped ∨ ch = p.writeBatchSwapped ∧ p.current.isFull = true :=
      h.waiting hw
    left
    change ch < p.writeBatchSwapped + 1
    omega

/-- The writer that fills the batch is in front of its send. -/
theorem Roused.accept (h : Roused p) {msg : Message α}
    (hw : p.writers[i]? = some ⟨buf, raddr, .trying⟩) (hbuf : buf ≠ [])
    (hroom : p.current.isFull = false) :
    Roused ((p.setBatch p.writeBatchIdx (p.current.store msg)).moveWriter i
      (p.leave buf.length (p.current.store msg).isFull)) where
  full hfull := by
    have hcurrent : (p.setBatch p.writeBatchIdx (p.current.store msg)).current =
        p.current.store msg := Function.update_self ..
    change (p.setBatch p.writeBatchIdx (p.current.store msg)).current.isFull = true at hfull
    rw [hcurrent] at hfull
    refine .inr (.inl ⟨i, buf, raddr, hbuf, getElem?_modify_iff.mpr ⟨_, hw, ?_⟩⟩)
    rw [if_pos rfl, PingPong.leave, if_pos hfull]
    rfl
  waiting {j b a ch} hj := by
    left
    obtain hpos | hj := moveWriter_cases hj
    · unfold PingPong.leave at hpos
      split at hpos <;> cases hpos
    · -- nobody waits for the current channel while the batch has room
      obtain hlt | ⟨-, hfull⟩ := h.waiting (p := p) hj
      · exact hlt
      · rw [hroom] at hfull
        cases hfull

/-- The end of a flush concerns the other batch. -/
theorem Roused.reset (h : Roused p) (hwf : Wf size p) {i : Bool} {txN : Nat}
    (hf : p.flusher = .flushing i txN) :
    Roused { p.setBatch i (p.batches i).reset with flusher := .flushed } := by
  refine h.frame ?_ id rfl rfl (by simp [hf])
  exact Function.update_of_ne (hwf.flushing_ne hf).symm _ _

theorem Roused.step (h : Roused p) (hwf : Wf size p) (hsize : 1 ≤ size)
    (ht : Transition p e p' o) : Roused p' := by
  cases ht with
  | stutter => exact h
  | call =>
    refine ⟨fun hfull => ?_, fun hw => ?_⟩
    · obtain hr | ⟨i, b, a, hb, hi⟩ | hf := h.full hfull
      · exact .inl hr
      · exact .inr (.inl ⟨i, b, a, hb, getElem?_snoc_iff.mpr (.inr hi)⟩)
      · exact .inr (.inr hf)
    · obtain ⟨-, hw⟩ | hw := getElem?_snoc_iff.mp hw
      · cases hw
      · exact h.waiting hw
  | accept hw hbuf hfree hroom hmsg => exact h.accept hw hbuf hroom
  | skip hw =>
    refine h.moveWriter hw (by simp) fun ch => ?_
    unfold PingPong.leave
    split <;> simp
  | wait hw hno =>
    have hfull : p.current.isFull = true := by
      obtain hnone | hfull := hno
      · rw [hwf.getWriteBatch] at hnone
        cases hnone
      · exact hfull.1
    refine ⟨fun _ => ?_, fun {j b a ch} hj => ?_⟩
    · obtain hr | ⟨j, hj⟩ | hf := h.full hfull
      · exact .inl hr
      · exact .inr (.inl ⟨j, hj.moveWriter hw (by simp) _⟩)
      · exact .inr (.inr hf)
    · obtain hpos | hj := moveWriter_cases hj
      · cases hpos
        exact .inr ⟨rfl, hfull⟩
      · exact h.waiting hj
  | wake hw => exact h.moveWriter hw (by simp) (by simp)
  | check hw =>
    refine h.moveWriter hw (by simp) fun ch => ?_
    split <;> simp
  | signal hw =>
    refine ⟨fun _ => .inl rfl, fun hj => ?_⟩
    obtain hpos | hj := moveWriter_cases (p := p) hj
    · cases hpos
    · exact h.waiting hj
  | exit hf | park hf | release hf | finish hf | updateRead hf | unread hf | tick hf
  | writeBatch hf =>
    exact h.frame rfl id rfl rfl (by simp [hf])
  | ready hf hr =>
    refine ⟨fun _ => .inr (.inr rfl), h.waiting⟩
  | swap hf hi hp => exact h.swap hwf hsize hf
  | unswapped hf hno =>
    obtain ⟨hindex, hpending⟩ := hwf.awake hf
    simp [hindex, hpending] at hno
  | writeError hf | flushed hf => exact h.reset hwf hf
  | closeStore | closeReturn => exact h.frame rfl id rfl rfl id
  | closeSignal => exact h.frame rfl (fun _ => rfl) rfl rfl id

/-- No interleaving panics, and both invariants hold after each. -/
theorem roused_run (hsize : 1 ≤ size) (es : List (Event α)) :
    ∃ p os, run PingPong.step (newPingPong size : PingPong α) es = some (p, os) ∧
      Wf size p ∧ Roused p := by
  refine run_keeps (fun p e (h : Wf size p ∧ Roused p) => ?_) es ⟨Wf.new, Roused.new hsize⟩
  obtain ⟨p₁, o, hstep⟩ := h.1.progress e
  have ht := step_transition hstep
  exact ⟨p₁, o, hstep, h.1.step ht, h.2.step h.1 hsize ht⟩

/-- A flusher that is awake swaps the batches. -/
theorem Wf.swaps (h : Wf size p) (hf : p.flusher = .awake) :
    ∃ p', p.step .swap = some (p', .moved) ∧ p'.writeBatchSwapped = p.writeBatchSwapped + 1 := by
  have hopen : p.swappedClosed = false :=
    eq_false_of_ne_true fun hs => by simpa [hf] using h.swapped hs
  obtain ⟨hindex, hpending⟩ := h.awake hf
  simp [PingPong.step, PingPong.swap, hf, hindex, hpending, hopen]

/-- A flusher that has left its loop closes the current channel. -/
theorem Wf.releases (h : Wf size p) (hf : p.flusher = .exiting) :
    ∃ p', p.step .release = some (p', .moved) ∧ p'.swappedClosed = true := by
  have hopen : p.swappedClosed = false :=
    eq_false_of_ne_true fun hs => by simpa [hf] using h.swapped hs
  simp [PingPong.step, PingPong.release, hf, hopen]

theorem Roused.blocked (h : Roused p) {ch : Nat} (hb : Blocked p i ch) :
    ch = p.writeBatchSwapped ∧ p.current.isFull = true := by
  obtain ⟨⟨buf, raddr, hw⟩, hopen⟩ := hb
  obtain hlt | hcur := h.waiting hw
  · simp [PingPong.channelClosed, hlt] at hopen
  · exact hcur

/-- In every reachable state: a full write batch has its wake-up under way; a blocked writer waits
for the channel that the next swap, or the exit of the flusher, closes; and a flusher parked in its
`select` while a writer is blocked has a token in `writeReady` or is about to get one. -/
theorem no_lost_wakeup (size : Nat) (hsize : 1 ≤ size) (es : List (Event α)) :
    ∃ p os, run PingPong.step (newPingPong size : PingPong α) es = some (p, os) ∧
      (p.current.isFull = true → p.writeReady = true ∨ (∃ i, Fills p i) ∨ p.flusher = .awake) ∧
      (∀ i ch, Blocked p i ch → ch = p.writeBatchSwapped ∧
        (p.flusher = .awake → ∃ p', p.step .swap = some (p', .moved) ∧ ¬ Blocked p' i ch) ∧
        (p.flusher = .exiting → ∃ p', p.step .release = some (p', .moved) ∧ ¬ Blocked p' i ch)) ∧
      (∀ i ch, Blocked p i ch → p.flusher = .selecting →
        p.writeReady = true ∨ ∃ j, Fills p j) := by
  obtain ⟨p, os, hrun, hwf, h⟩ := roused_run hsize es
  refine ⟨p, os, hrun, h.full, fun i ch hb => ⟨(h.blocked hb).1, fun hf => ?_, fun hf => ?_⟩,
    fun i ch hb hf => ?_⟩
  · obtain ⟨p', hstep, hch⟩ := hwf.swaps hf
    refine ⟨p', hstep, fun hb' => ?_⟩
    have hopen := hb'.2
    have hcur := (h.blocked hb).1
    simp [PingPong.channelClosed, hch, hcur] at hopen
  · obtain ⟨p', hstep, hclosed⟩ := hwf.releases hf
    refine ⟨p', hstep, fun hb' => ?_⟩
    have hopen := hb'.2
    simp [PingPong.channelClosed, hclosed] at hopen
  · obtain hr | hfill | hawake := h.full (h.blocked hb).2
    · exact .inl hr
    · exact .inr hfill
    · rw [hf] at hawake
      cases hawake

/-- The first writer fills the batch, the second finds it full, and the flusher parks before the
first one sends. -/
def fullBeforeSend : List (Event Nat) :=
  [.call [1] (some 7), .call [2] (some 8), .enqueue 0, .enqueue 1, .loop]

theorem no_lost_wakeup_before_send :
    ∃ p os, run PingPong.step (newPingPong 1) fullBeforeSend = some (p, os) ∧
      Blocked p 1 0 ∧ p.flusher = .selecting ∧ (p.writeReady = true ∨ ∃ j, Fills p j) := by
  obtain ⟨p, os, hrun, -, -, hparked⟩ := no_lost_wakeup 1 (Nat.le_refl 1) fullBeforeSend
  obtain ⟨hwriter, hopen, hselecting⟩ := holds_of_run hrun (fun p _ =>
    p.writers[1]? = some ⟨[2], some 8, .waiting 0⟩ ∧ p.channelClosed 0 = false ∧
      p.flusher = .selecting) (by decide +kernel)
  have hb : Blocked p 1 0 := ⟨⟨[2], some 8, hwriter⟩, hopen⟩
  exact ⟨p, os, hrun, hb, hselecting, hparked 1 0 hb hselecting⟩

end Wakeups

end PionTransport.Udp.Batch
