import Mathlib.Data.List.Forall2
import PionTransport.Core.Heap
import PionTransport.Udp.PingPong

/-!
# Batches keep the order of messages

`Transition` lists what one step can do. The two indices and the pending flag
follow the place of the flusher, and the batch that is neither written nor
flushed is empty. So the messages transmitted, those still to flush and those
in the write batch are, in this order, the accepted ones.
-/

namespace PionTransport.Udp.Batch

open PionTransport.Core

variable {α : Type}

/-- The batch that writers fill. -/
def PingPong.current (p : PingPong α) : MessageBatch α := p.batches p.writeBatchIdx

/-- What one step can do. -/
inductive Transition (p : PingPong α) : Event α → PingPong α → Outcome α → Prop
  | stutter {e} : Transition p e p .blocked
  | call {buf raddr} :
      Transition p (.call buf raddr) { p with writers := p.writers ++ [{ buf, raddr }] } .moved
  | accept {i buf raddr msg} : p.writers[i]? = some ⟨buf, raddr, .trying⟩ → buf ≠ [] →
      p.flushes p.writeBatchIdx = false → p.current.isFull = false →
      p.current.messages[p.current.writePos]? = some msg →
      Transition p (.enqueue i)
        ((p.setBatch p.writeBatchIdx (p.current.store (msg.fill buf raddr))).moveWriter i
          (p.leave buf.length (p.current.store (msg.fill buf raddr)).isFull))
        (.accepted i buf raddr)
  | skip {i raddr} : p.writers[i]? = some ⟨[], raddr, .trying⟩ →
      Transition p (.enqueue i) (p.moveWriter i (p.leave 0 p.current.isFull)) .moved
  | wait {i buf raddr} : p.writers[i]? = some ⟨buf, raddr, .trying⟩ →
      p.getWriteBatch = none ∨ p.current.isFull = true ∧ buf ≠ [] →
      Transition p (.enqueue i) (p.moveWriter i (.waiting p.writeBatchSwapped)) .moved
  | wake {i buf raddr ch} : p.writers[i]? = some ⟨buf, raddr, .waiting ch⟩ →
      p.channelClosed ch = true → Transition p (.wake i) (p.moveWriter i .woken) .moved
  | check {i buf raddr} : p.writers[i]? = some ⟨buf, raddr, .woken⟩ →
      Transition p (.check i) (p.moveWriter i (if p.closed then .returned 0 else .trying)) .moved
  | signal {i buf raddr n ch} : p.writers[i]? = some ⟨buf, raddr, .signalling n ch⟩ →
      Transition p (.signal i) { p.moveWriter i (.returned n) with writeReady := true } .moved
  | exit : p.flusher = .looping → p.closed = true →
      Transition p .loop { p with flusher := .exiting } .moved
  | park : p.flusher = .looping → p.closed = false →
      Transition p .loop { p with flusher := .selecting } .moved
  | tick {elapsed} : p.flusher = .selecting →
      Transition p (.tick elapsed) { p with flusher := if elapsed then .awake else .looping } .moved
  | ready : p.flusher = .selecting → p.writeReady = true →
      Transition p .ready { p with flusher := .awake, writeReady := false } .moved
  | swap : p.flusher = .awake → p.writeBatchIdx = p.readBatchIdx → p.flushPending = false →
      Transition p .swap { p with
        writeBatchIdx := !p.writeBatchIdx
        flushPending := true
        writeBatchSwapped := p.writeBatchSwapped + 1
        flusher := .flushing p.readBatchIdx 0 } .moved
  | unswapped : p.flusher = .awake → p.writeBatchIdx ≠ p.readBatchIdx ∨ p.flushPending = true →
      Transition p .swap { p with flusher := .looping } .moved
  | writeError {i txN} : p.flusher = .flushing i txN → txN < (p.batches i).writePos →
      Transition p (.writeBatch none)
        { p.setBatch i (p.batches i).reset with flusher := .flushed } .moved
  | writeBatch {i txN n} : p.flusher = .flushing i txN → txN < (p.batches i).writePos →
      Transition p (.writeBatch (some n)) { p with
        sent := p.sent ++ ((p.batches i).offered txN).take n
        flusher := .flushing i (txN + n) } .moved
  | flushed {i txN} : p.flusher = .flushing i txN → (p.batches i).writePos ≤ txN →
      Transition p .flushed { p.setBatch i (p.batches i).reset with flusher := .flushed } .moved
  | updateRead : p.flusher = .flushed → p.flushPending = true →
      Transition p .updateRead { p with
        readBatchIdx := !p.readBatchIdx
        flushPending := false
        flusher := .looping } .moved
  | unread : p.flusher = .flushed → p.flushPending = false →
      Transition p .updateRead { p with flusher := .looping } .moved
  | release : p.flusher = .exiting →
      Transition p .release { p with swappedClosed := true, flusher := .released } .moved
  | finish : p.flusher = .released →
      Transition p .finish { p with flusherDone := true, flusher := .ended } .moved
  | closeStore :
      Transition p .closeStore { p with closed := true, closers := p.closers ++ [.stored] } .moved
  | closeSignal {i} : p.closers[i]? = some .stored →
      Transition p (.closeSignal i)
        { p with writeReady := true, closers := p.closers.set i .waiting } .moved
  | closeReturn {i} : p.closers[i]? = some .waiting → p.flusherDone = true →
      Transition p (.closeReturn i) { p with closers := p.closers.set i .returned } .moved

section Cases

variable {p p' : PingPong α} {o : Outcome α}

theorem blocked_transition {e : Event α} (h : p.blocked = some (p', o)) : Transition p e p' o := by
  cases h
  exact .stutter

theorem setBatch_self (i : Bool) : p.setBatch i (p.batches i) = p := by
  simp [PingPong.setBatch]

/-- The part of `EnqueueMessage` under `mu` is one of the listed steps. -/
theorem enqueue_transition {i : Nat} (h : p.enqueue i = some (p', o)) :
    Transition p (.enqueue i) p' o := by
  unfold PingPong.enqueue at h
  split at h
  next buf raddr hw =>
    split at h
    next hnone =>
      cases h
      exact .wait hw (.inl hnone)
    next b hb =>
      obtain rfl : p.writeBatchIdx = b := by
        unfold PingPong.getWriteBatch at hb
        split at hb
        · cases hb
        · exact Option.some.inj hb
      split at h
      · exact blocked_transition h
      next hfree =>
        simp only [Option.bind_eq_bind, Option.bind_eq_some_iff, MessageBatch.enqueueMessage] at h
        obtain ⟨⟨m, n, isFull⟩, hm, h⟩ := h
        split at hm
        next hskip =>
          cases hm
          rw [setBatch_self] at h
          dsimp only at h
          by_cases hbuf : buf = []
          · subst hbuf
            cases h
            exact .skip hw
          · have hlen : 0 ≠ buf.length := fun he => hbuf (List.eq_nil_of_length_eq_zero he.symm)
            rw [if_neg hlen] at h
            cases h
            exact .wait hw (.inr ⟨hskip.resolve_left hbuf, hbuf⟩)
        next hskip =>
          obtain ⟨msg, hmsg, he⟩ := Option.bind_eq_some_iff.mp hm
          cases he
          rw [not_or] at hskip
          rw [if_pos rfl, if_neg hskip.1] at h
          cases h
          exact .accept hw hskip.1 (eq_false_of_ne_true hfree) (eq_false_of_ne_true hskip.2) hmsg
  · exact blocked_transition h

/-- A step of the batcher is one of the listed ones. -/
theorem step_transition {e : Event α} (h : p.step e = some (p', o)) : Transition p e p' o := by
  -- where the event does not apply it is blocked; the other branches follow in the events' order
  cases e <;> simp only [PingPong.step, PingPong.call, PingPong.wake, PingPong.check,
    PingPong.signal, PingPong.loop, PingPong.tick, PingPong.ready, PingPong.swap,
    PingPong.writeBatch, PingPong.finishFlush, PingPong.updateReadBatch, PingPong.release,
    PingPong.finish, PingPong.closeStore, PingPong.closeSignal, PingPong.closeReturn] at h <;>
    try (split at h <;> try exact blocked_transition h)
  · cases h
    exact .call
  · exact enqueue_transition h
  · split at h
    · cases h
      exact .wake ‹_› ‹_›
    · exact blocked_transition h
  · cases h
    exact .check ‹_›
  · cases h
    exact .signal ‹_›
  · cases h
    split
    · exact .exit ‹_› ‹_›
    · exact .park ‹_› (eq_false_of_ne_true ‹_›)
  · cases h
    exact .tick ‹_›
  · split at h
    · cases h
      exact .ready ‹_› ‹_›
    · exact blocked_transition h
  next hf =>
    split at h
    next hno =>
      cases h
      exact .unswapped hf hno
    next hyes =>
      rw [not_or, not_not] at hyes
      split at h <;> cases h
      exact .swap hf hyes.1 (eq_false_of_ne_true hyes.2)
  · split at h
    · split at h <;> cases h
      · exact .writeError ‹_› ‹_›
      · exact .writeBatch ‹_› ‹_›
    · exact blocked_transition h
  · split at h
    · exact blocked_transition h
    · cases h
      exact .flushed ‹_› (Nat.le_of_not_lt ‹_›)
  · split at h <;> cases h
    · exact .updateRead ‹_› ‹_›
    · exact .unread ‹_› (eq_false_of_ne_true ‹_›)
  · split at h <;> cases h
    exact .release ‹_›
  · split at h <;> cases h
    exact .finish ‹_›
  · cases h
    exact .closeStore
  · cases h
    exact .closeSignal ‹_›
  next hc =>
    cases h
    exact .closeReturn hc.1 hc.2

end Cases

/-- The flusher has swapped the batches and not yet swapped the read index. -/
def Flusher.busy : Flusher → Bool
  | .flushing .. | .flushed => true
  | .looping | .selecting | .awake | .exiting | .released | .ended => false

/-- The flusher has left its loop. -/
def Flusher.left : Flusher → Bool
  | .exiting | .released | .ended => true
  | .looping | .selecting | .awake | .flushing .. | .flushed => false

/-- A batch of the given size, with room for its messages. -/
structure MessageBatch.Sized (size : Nat) (m : MessageBatch α) : Prop where
  size_eq : m.size = size
  slots : m.messages.length = size
  fits : m.writePos ≤ size

/-- The invariant of reachable batchers. -/
structure Wf (size : Nat) (p : PingPong α) : Prop where
  sized : ∀ b, (p.batches b).Sized size
  pending : p.flushPending = p.flusher.busy
  index : p.writeBatchIdx = (p.readBatchIdx ^^ p.flusher.busy)
  flushing : ∀ {i txN}, p.flusher = .flushing i txN → i = p.readBatchIdx
  spare : ∀ b, b ≠ p.writeBatchIdx → (∀ txN, p.flusher ≠ .flushing b txN) →
    (p.batches b).writePos = 0
  opened : p.closed = false → p.flusher.left = false
  swapped : p.swappedClosed = true → p.flusher = .released ∨ p.flusher = .ended
  done : p.flusherDone = true → p.flusher = .ended

section Invariant

variable {size : Nat} {p p' : PingPong α} {e : Event α} {o : Outcome α}

/-- A new batch is empty. -/
theorem sized_new : (newMessageBatch size : MessageBatch α).Sized size :=
  ⟨rfl, by simp [newMessageBatch], Nat.zero_le _⟩

variable {m : MessageBatch α}

/-- A batch that is not full has a slot left. -/
theorem MessageBatch.Sized.writePos_lt (h : m.Sized size) (hroom : m.isFull = false) :
    m.writePos < m.messages.length := by
  have hne : m.writePos ≠ m.size := by simpa [MessageBatch.isFull] using hroom
  have hle := h.fits
  rw [h.size_eq] at hne
  rw [h.slots]
  omega

/-- A reset batch is empty. -/
theorem MessageBatch.Sized.reset (h : m.Sized size) : m.reset.Sized size :=
  ⟨h.size_eq, h.slots, Nat.zero_le _⟩

/-- A message fills one slot. -/
theorem MessageBatch.Sized.store (h : m.Sized size) (hroom : m.isFull = false) (msg : Message α) :
    (m.store msg).Sized size where
  size_eq := h.size_eq
  slots := by simpa [MessageBatch.store] using h.slots
  fits := by
    have hlt := h.writePos_lt hroom
    rw [h.slots] at hlt
    exact hlt

/-- The slot that `EnqueueMessage` writes to is in range. -/
theorem MessageBatch.Sized.enqueueMessage (h : m.Sized size) (buf : List UInt8) (raddr : Option α) :
    ∃ r, m.enqueueMessage buf raddr = some r := by
  unfold MessageBatch.enqueueMessage
  split
  · exact ⟨_, rfl⟩
  next hskip =>
    have hroom := eq_false_of_ne_true (not_or.mp hskip).2
    rw [List.getElem?_eq_getElem (h.writePos_lt hroom)]
    exact ⟨_, rfl⟩

/-- A new batcher meets the invariant. -/
theorem Wf.new : Wf size (newPingPong size : PingPong α) where
  sized _ := sized_new
  pending := rfl
  index := rfl
  flushing h := by cases h
  spare _ _ _ := rfl
  opened _ := rfl
  swapped h := by cases h
  done h := by cases h

variable {i : Bool}

/-- The batch that is being flushed is not the one that is being written. -/
theorem Wf.flushing_ne (h : Wf size p) {txN : Nat} (hf : p.flusher = .flushing i txN) :
    i ≠ p.writeBatchIdx := by
  rw [h.index, h.flushing hf, hf]
  simp [Flusher.busy]

/-- The write batch is not being flushed. -/
theorem Wf.write_free (h : Wf size p) : p.flushes p.writeBatchIdx = false := by
  unfold PingPong.flushes
  split
  next j txN hf =>
    have := h.flushing_ne hf
    simpa using this.symm
  · rfl

/-- There always is a write batch. -/
theorem Wf.getWriteBatch (h : Wf size p) : p.getWriteBatch = some p.writeBatchIdx := by
  unfold PingPong.getWriteBatch
  rw [if_neg]
  rw [h.pending, h.index]
  cases p.flusher.busy <;> simp

/-- A flusher that is awake finds the batches ready to swap. -/
theorem Wf.awake (h : Wf size p) (hf : p.flusher = .awake) :
    p.writeBatchIdx = p.readBatchIdx ∧ p.flushPending = false := by
  have hindex := h.index
  have hpending := h.pending
  simp only [hf, Flusher.busy, Bool.xor_false] at hindex hpending
  exact ⟨hindex, hpending⟩

/-- A writer's move is of no concern to the batches. -/
theorem Wf.moveWriter (h : Wf size p) (i : Nat) (pos : WriterAt) : Wf size (p.moveWriter i pos) :=
  ⟨h.sized, h.pending, h.index, h.flushing, h.spare, h.opened, h.swapped, h.done⟩

/-- Replacing a batch by one of the same size. -/
theorem sized_update (h : ∀ b, (p.batches b).Sized size) (hm : m.Sized size) (b : Bool) :
    ((p.setBatch i m).batches b).Sized size := by
  by_cases hb : b = i
  · subst hb
    simpa [PingPong.setBatch] using hm
  · simpa [PingPong.setBatch, Function.update_of_ne hb] using h b

/-- The end of a flush. -/
theorem Wf.reset (h : Wf size p) {txN : Nat} (hf : p.flusher = .flushing i txN) :
    Wf size { p.setBatch i (p.batches i).reset with flusher := .flushed } where
  sized b := sized_update h.sized (h.sized i).reset b
  pending := by rw [← (by rw [hf]; rfl : p.flusher.busy = Flusher.flushed.busy)]; exact h.pending
  index := by rw [← (by rw [hf]; rfl : p.flusher.busy = Flusher.flushed.busy)]; exact h.index
  flushing hf' := by cases hf'
  spare b hb _ := by
    change (Function.update p.batches i (p.batches i).reset b).writePos = 0
    have hi : b = i := by
      have hne := h.flushing_ne hf
      change b ≠ p.writeBatchIdx at hb
      revert hb hne
      cases b <;> cases i <;> cases p.writeBatchIdx <;> simp
    subst hi
    rw [Function.update_self]
    rfl
  opened hc := rfl
  swapped hs := by
    have := h.swapped hs
    simp [hf] at this
  done hd := by
    have := h.done hd
    simp [hf] at this

variable {f : Flusher}

/-- The flusher moves and holds no batch before or after. -/
theorem Wf.moveFlusher (h : Wf size p) (hbusy : f.busy = p.flusher.busy)
    (hfree : ∀ i txN, p.flusher ≠ .flushing i txN ∧ f ≠ .flushing i txN)
    (hleft : p.closed = false → f.left = false)
    (hswapped : p.swappedClosed = true → f = .released ∨ f = .ended)
    (hdone : p.flusherDone = true → f = .ended) : Wf size { p with flusher := f } where
  sized := h.sized
  pending := h.pending.trans hbusy.symm
  index := by
    rw [hbusy]
    exact h.index
  flushing hf := absurd hf (hfree _ _).2
  spare b hb _ := h.spare b hb fun txN => (hfree b txN).1
  opened := hleft
  swapped := hswapped
  done := hdone

/-- The channels of a flusher that has not released its waiters are open. -/
theorem Wf.unreleased (h : Wf size p) (hf : p.flusher = f) (hr : f ≠ .released) (he : f ≠ .ended) :
    p.swappedClosed = false ∧ p.flusherDone = false := by
  subst hf
  refine ⟨eq_false_of_ne_true fun hs => ?_, eq_false_of_ne_true fun hd => ?_⟩
  · obtain hs | hs := h.swapped hs
    · exact hr hs
    · exact he hs
  · exact he (h.done hd)

/-- The flusher moves inside of its loop and holds no batch before or after. -/
theorem Wf.turn (h : Wf size p) {f' : Flusher} (hf : p.flusher = f)
    (hold : f.busy = false ∧ f.left = false) (hnew : f'.busy = false ∧ f'.left = false) :
    Wf size { p with flusher := f' } := by
  obtain ⟨hs, hd⟩ := h.unreleased hf (by rintro rfl; cases hold.2) (by rintro rfl; cases hold.2)
  apply h.moveFlusher
  · rw [hnew.1, hf, hold.1]
  · intro i txN
    rw [hf]
    constructor
    · rintro rfl
      cases hold.1
    · rintro rfl
      cases hnew.1
  · exact fun _ => hnew.2
  · simp [hs]
  · simp [hd]

/-- A step keeps the invariant. -/
theorem Wf.step (h : Wf size p) (ht : Transition p e p' o) : Wf size p' := by
  cases ht with
  | stutter => exact h
  | call | closeSignal | closeReturn | signal =>
    exact ⟨h.sized, h.pending, h.index, h.flushing, h.spare, h.opened, h.swapped, h.done⟩
  | accept hw hbuf hfree hroom hmsg =>
    refine ⟨?_, h.pending, h.index, h.flushing, ?_, h.opened, h.swapped, h.done⟩
    · exact sized_update h.sized ((h.sized _).store hroom _)
    · intro b hb hfl
      change b ≠ p.writeBatchIdx at hb
      change (Function.update p.batches _ _ b).writePos = 0
      rw [Function.update_of_ne hb]
      exact h.spare b hb hfl
  | skip | wait | wake | check => exact h.moveWriter _ _
  | exit hf hc =>
    obtain ⟨hs, hd⟩ := h.unreleased hf (by decide) (by decide)
    exact h.moveFlusher (by simp [hf, Flusher.busy]) (by simp [hf]) (by simp [hc]) (by simp [hs])
      (by simp [hd])
  | park hf | unswapped hf => exact h.turn hf ⟨rfl, rfl⟩ ⟨rfl, rfl⟩
  | @tick elapsed hf => cases elapsed <;> exact h.turn hf ⟨rfl, rfl⟩ ⟨rfl, rfl⟩
  | ready hf hr =>
    have hm : Wf size { p with flusher := .awake } := h.turn hf ⟨rfl, rfl⟩ ⟨rfl, rfl⟩
    exact ⟨hm.sized, hm.pending, hm.index, hm.flushing, hm.spare, hm.opened, hm.swapped, hm.done⟩
  | swap hf hi hp =>
    obtain ⟨hs, hd⟩ := h.unreleased hf (by decide) (by decide)
    refine ⟨h.sized, rfl, by simp [hi, Flusher.busy], by simp, ?_, by simp [Flusher.left],
      by simp [hs], by simp [hd]⟩
    intro b hb hfl
    -- the batch that was written is the one that is flushed now
    have hbr : b = p.readBatchIdx := by
      rw [← hi]
      revert hb
      cases b <;> cases p.writeBatchIdx <;> simp
    exact absurd (by rw [hbr]) (hfl 0)
  | writeError hf | flushed hf => exact h.reset hf
  | writeBatch hf hlt =>
    obtain ⟨hs, hd⟩ := h.unreleased hf (by simp) (by simp)
    refine ⟨h.sized, ?_, ?_, ?_, ?_, by simp [Flusher.left], by simp [hs], by simp [hd]⟩
    · simpa [hf, Flusher.busy] using h.pending
    · simpa [hf, Flusher.busy] using h.index
    · intro j k hj
      cases hj
      exact h.flushing hf
    · intro b hb hfl
      refine h.spare b hb fun k hk => ?_
      rw [hf] at hk
      cases hk
      exact hfl _ rfl
  | updateRead hf hp =>
    obtain ⟨hs, hd⟩ := h.unreleased hf (by decide) (by decide)
    refine ⟨h.sized, rfl, ?_, by simp, ?_, by simp [Flusher.left], by simp [hs], by simp [hd]⟩
    · simpa [hf, Flusher.busy] using h.index
    · exact fun b hb _ => h.spare b hb (by simp [hf])
  | unread hf hp =>
    have hpend := h.pending
    simp [hf, hp, Flusher.busy] at hpend
  | release hf =>
    obtain ⟨hs, hd⟩ := h.unreleased hf (by decide) (by decide)
    have hleft := h.opened
    refine ⟨h.sized, ?_, ?_, by simp, ?_, ?_, by simp, by simp [hd]⟩
    · simpa [hf, Flusher.busy] using h.pending
    · simpa [hf, Flusher.busy] using h.index
    · exact fun b hb _ => h.spare b hb (by simp [hf])
    · simpa [hf, Flusher.left] using hleft
  | finish hf =>
    have hleft := h.opened
    refine ⟨h.sized, ?_, ?_, by simp, ?_, ?_, by simp, by simp⟩
    · simpa [hf, Flusher.busy] using h.pending
    · simpa [hf, Flusher.busy] using h.index
    · exact fun b hb _ => h.spare b hb (by simp [hf])
    · simpa [hf, Flusher.left] using hleft
  | closeStore =>
    exact ⟨h.sized, h.pending, h.index, h.flushing, h.spare, by simp, h.swapped, h.done⟩

/-- No step of a reachable batcher panics. -/
theorem Wf.progress (h : Wf size p) (e : Event α) : ∃ p' o, p.step e = some (p', o) := by
  cases e with
  | enqueue i =>
    simp only [PingPong.step, PingPong.enqueue, h.getWriteBatch]
    split
    next buf raddr hw =>
      obtain ⟨⟨m, n, isFull⟩, hm⟩ := (h.sized p.writeBatchIdx).enqueueMessage buf raddr
      simp only [h.write_free, Bool.false_eq_true, if_false, hm, Option.bind_eq_bind,
        Option.bind_some]
      split <;> exact ⟨_, _, rfl⟩
    · exact ⟨_, _, rfl⟩
  | swap =>
    have hswapped := h.swapped
    simp only [PingPong.step, PingPong.swap]
    split
    next hf =>
      have hopen : p.swappedClosed = false := by simpa [hf] using hswapped
      simp only [hopen, Bool.false_eq_true, if_false]
      split <;> exact ⟨_, _, rfl⟩
    · exact ⟨_, _, rfl⟩
  | release =>
    have hswapped := h.swapped
    simp only [PingPong.step, PingPong.release]
    split
    next hf =>
      have hopen : p.swappedClosed = false := by simpa [hf] using hswapped
      simp [hopen]
    · exact ⟨_, _, rfl⟩
  | finish =>
    have hdone := h.done
    simp only [PingPong.step, PingPong.finish]
    split
    next hf =>
      have hopen : p.flusherDone = false := by simpa [hf] using hdone
      simp [hopen]
    · exact ⟨_, _, rfl⟩
  | _ =>
    simp only [PingPong.step, PingPong.call, PingPong.wake, PingPong.check, PingPong.signal,
      PingPong.loop, PingPong.tick, PingPong.ready, PingPong.writeBatch, PingPong.finishFlush,
      PingPong.updateReadBatch, PingPong.closeStore, PingPong.closeSignal, PingPong.closeReturn]
    (repeat' split) <;> exact ⟨_, _, rfl⟩

/-- No interleaving panics, and the invariant holds after each. -/
theorem Wf.run (h : Wf size p) (es : List (Event α)) :
    ∃ p' os, run PingPong.step p es = some (p', os) ∧ Wf size p' :=
  run_keeps (fun _ e hwf => by
    obtain ⟨p₁, o, hstep⟩ := hwf.progress e
    exact ⟨p₁, o, hstep, hwf.step (step_transition hstep)⟩) es h

end Invariant

section Order

variable {size : Nat} {p p' : PingPong α} {e : Event α} {o : Outcome α}

/-- The message carries the bytes of an accepted one, and its address if it was given one. -/
def Carries (msg : Message α) (accepted : List UInt8 × Option α) : Prop :=
  msg.payload = accepted.1 ∧ ∀ a, accepted.2 = some a → msg.addr = some a

/-- The bytes and the address that the socket gets. -/
def Message.datagram (msg : Message α) : List UInt8 × Option α := (msg.payload, msg.addr)

/-- The message that a step accepts. -/
def Outcome.message : Outcome α → List (List UInt8 × Option α)
  | .accepted _ buf raddr => [(buf, raddr)]
  | .blocked | .moved => []

/-- The accepted messages in the order of acceptance. -/
def acceptances (os : List (Outcome α)) : List (List UInt8 × Option α) :=
  os.flatMap Outcome.message

/-- The part of the batch being flushed that is not transmitted. -/
def PingPong.unflushed (p : PingPong α) : List (Message α) :=
  match p.flusher with
  | .flushing i txN => (p.batches i).offered txN
  | _ => []

/-- Everything accepted, oldest first: transmitted, still to flush, in the write batch. -/
def PingPong.content (p : PingPong α) : List (Message α) :=
  p.sent ++ p.unflushed ++ p.current.written

/-- `WriteBatch` transmits at least one and at most the offered messages. -/
def PingPong.transmits (p : PingPong α) : Event α → Bool
  | .writeBatch r =>
    match p.flusher, r with
    | .flushing i txN, some n =>
      (p.batches i).writePos ≤ txN || (1 ≤ n && n ≤ ((p.batches i).offered txN).length)
    | .flushing i txN, none => (p.batches i).writePos ≤ txN
    | _, _ => true
  | _ => true

/-- `WriteBatch` does not fail. -/
def PingPong.succeeds (p : PingPong α) (e : Event α) : Prop :=
  e = .writeBatch none → ∀ i txN, p.flusher = .flushing i txN → (p.batches i).writePos ≤ txN

theorem succeeds_of_transmits (h : p.transmits e = true) : p.succeeds e := by
  rintro rfl i txN hf
  simpa [PingPong.transmits, hf] using h

/-- A filled slot holds the packet. -/
theorem payload_fill (msg : Message α) (buf : List UInt8) (raddr : Option α) :
    (msg.fill buf raddr).payload = buf := by
  unfold Message.fill Message.payload
  split <;> simp

/-- A filled slot carries the packet and its address. -/
theorem carries_fill (msg : Message α) (buf : List UInt8) (raddr : Option α) :
    Carries (msg.fill buf raddr) (buf, raddr) := by
  refine ⟨payload_fill msg buf raddr, fun a ha => ?_⟩
  obtain rfl : raddr = some a := ha
  rfl

/-- A stored message comes last. -/
theorem written_store {m : MessageBatch α} (msg : Message α)
    (h : m.writePos < m.messages.length) : (m.store msg).written = m.written ++ [msg] := by
  simp only [MessageBatch.written, MessageBatch.store]
  rw [List.take_add_one, List.take_set_of_le (Nat.le_refl _), List.getElem?_set_self h]
  rfl

/-- Outside of a flush nothing is half sent. -/
theorem unflushed_eq_nil (h : ∀ i txN, p.flusher ≠ .flushing i txN) : p.unflushed = [] := by
  unfold PingPong.unflushed
  split
  next i txN hf => exact absurd hf (h i txN)
  · rfl

/-- A move of the flusher between places without a batch keeps the content. -/
theorem content_moveFlusher (hsent : p'.sent = p.sent) (hcurrent : p'.current = p.current)
    (h : ∀ i txN, p.flusher ≠ .flushing i txN) (h' : ∀ i txN, p'.flusher ≠ .flushing i txN) :
    p'.content = p.content := by
  rw [PingPong.content, PingPong.content, unflushed_eq_nil h, unflushed_eq_nil h', hsent, hcurrent]

/-- At the end of a flush everything of its batch is transmitted. -/
theorem unflushed_flushed {i : Bool} {txN : Nat} (hf : p.flusher = .flushing i txN)
    (hle : (p.batches i).writePos ≤ txN) : p.unflushed = [] := by
  simp only [PingPong.unflushed, hf, MessageBatch.offered]
  apply List.drop_eq_nil_of_le
  exact Nat.le_trans (List.length_take_le _ _) hle

/-- Resetting a flushed batch loses nothing. -/
theorem content_reset (h : Wf size p) {i : Bool} {txN : Nat} (hf : p.flusher = .flushing i txN)
    (hle : (p.batches i).writePos ≤ txN) :
    PingPong.content { p.setBatch i (p.batches i).reset with flusher := .flushed } =
      p.content := by
  have hcurrent : PingPong.current { p.setBatch i (p.batches i).reset with flusher := .flushed } =
      p.current :=
    Function.update_of_ne (h.flushing_ne hf).symm _ _
  rw [PingPong.content, PingPong.content, unflushed_flushed hf hle, hcurrent]
  rfl

/-- Writers do not touch the batch that is being flushed. -/
theorem unflushed_store (h : Wf size p) (m : MessageBatch α) :
    (p.setBatch p.writeBatchIdx m).unflushed = p.unflushed := by
  unfold PingPong.unflushed
  simp only [PingPong.setBatch]
  split
  next j txN hf => rw [Function.update_of_ne (h.flushing_ne hf)]
  · rfl

/-- A stored message is the newest of the content. -/
theorem content_store (h : Wf size p) (hroom : p.current.isFull = false) (i : Nat) (pos : WriterAt)
    (msg : Message α) :
    ((p.setBatch p.writeBatchIdx (p.current.store msg)).moveWriter i pos).content =
      p.content ++ [msg] := by
  have hcurrent : (p.setBatch p.writeBatchIdx (p.current.store msg)).current =
      p.current.store msg := Function.update_self ..
  have hwritten : (p.current.store msg).written = p.current.written ++ [msg] :=
    written_store msg ((h.sized p.writeBatchIdx).writePos_lt hroom)
  calc
    _ = p.sent ++ (p.setBatch p.writeBatchIdx (p.current.store msg)).unflushed ++
        (p.setBatch p.writeBatchIdx (p.current.store msg)).current.written := rfl
    _ = p.sent ++ p.unflushed ++ (p.current.written ++ [msg]) := by
      rw [unflushed_store h, hcurrent, hwritten]
    _ = p.content ++ [msg] := by rw [PingPong.content, List.append_assoc _ _ [msg]]

/-- The write batch becomes the batch to flush, and an empty one takes its place. -/
theorem content_swap (h : Wf size p) (hf : p.flusher = .awake)
    (hi : p.writeBatchIdx = p.readBatchIdx) :
    PingPong.content { p with
      writeBatchIdx := !p.writeBatchIdx
      flushPending := true
      writeBatchSwapped := p.writeBatchSwapped + 1
      flusher := .flushing p.readBatchIdx 0 } = p.content := by
  have hspare : (p.batches (!p.writeBatchIdx)).writePos = 0 :=
    h.spare _ (by simp) (by simp [hf])
  simp only [PingPong.content, PingPong.unflushed, PingPong.current, hf, MessageBatch.offered,
    MessageBatch.written, hspare, ← hi, List.drop_zero, List.take_zero, List.append_nil]

/-- One step appends to the content what it accepts, and loses, doubles or moves nothing. -/
theorem content_step (h : Wf size p) (hok : p.succeeds e) (ht : Transition p e p' o) :
    ∃ ms, p'.content = p.content ++ ms ∧ List.Forall₂ Carries ms o.message := by
  have hkeep : o.message = [] → p'.content = p.content →
      ∃ ms, p'.content = p.content ++ ms ∧ List.Forall₂ Carries ms o.message := by
    intro ho he
    exact ⟨[], by rw [he, List.append_nil], by rw [ho]; exact .nil⟩
  cases ht with
  | stutter | call | skip | wait | wake | check | signal | closeStore | closeSignal | closeReturn =>
    exact hkeep rfl rfl
  | @accept i buf raddr msg hw hbuf hfree hroom hmsg =>
    refine ⟨[msg.fill buf raddr], ?_, .cons (carries_fill msg buf raddr) .nil⟩
    exact content_store h hroom i _ (msg.fill buf raddr)
  | exit hf | park hf | ready hf | unswapped hf | updateRead hf | unread hf | release hf
  | finish hf => exact hkeep rfl (content_moveFlusher rfl rfl (by simp [hf]) (by simp))
  | @tick elapsed hf =>
    refine hkeep rfl (content_moveFlusher rfl rfl (by simp [hf]) ?_)
    cases elapsed <;> simp
  | swap hf hi hp => exact hkeep rfl (content_swap h hf hi)
  | writeError hf hlt => exact absurd (hok rfl _ _ hf) (Nat.not_le_of_lt hlt)
  | @writeBatch i txN n hf hlt =>
    refine hkeep rfl ?_
    -- the transmitted messages move from the front of the offered ones to the end of the sent ones
    simp only [PingPong.content, PingPong.unflushed, hf, MessageBatch.offered, List.append_assoc]
    rw [← List.drop_drop, ← List.append_assoc (List.take n _), List.take_append_drop]
    rfl
  | flushed hf hle => exact hkeep rfl (content_reset h hf hle)

/-- A new batcher holds nothing. -/
theorem content_new : (newPingPong size : PingPong α).content = [] := by
  simp [PingPong.content, PingPong.unflushed, PingPong.current, MessageBatch.written,
    newPingPong, newMessageBatch]

variable {es : List (Event α)} {os : List (Outcome α)}

/-- A run appends to the content exactly the accepted messages, in their order. -/
theorem content_run (h : Wf size p) (hok : Along PingPong.step PingPong.succeeds p es)
    (hrun : run PingPong.step p es = some (p', os)) :
    ∃ ms, p'.content = p.content ++ ms ∧ List.Forall₂ Carries ms (acceptances os) := by
  induction hrun using run_induct with
  | nil => exact ⟨[], (List.append_nil _).symm, .nil⟩
  | cons hstep _ ih =>
    obtain ⟨hok₁, hok⟩ := along_cons hok hstep
    have ht := step_transition hstep
    obtain ⟨ms, hms, hcarry⟩ := content_step h hok₁ ht
    obtain ⟨ms', hms', hcarry'⟩ := ih (h.step ht) hok
    refine ⟨ms ++ ms', by rw [hms', hms, List.append_assoc], ?_⟩
    rw [acceptances, List.flatMap_cons]
    exact List.rel_append hcarry hcarry'

/-- Every address in a slot or on the wire was given by a writer. -/
structure Known (S : α → Prop) (p : PingPong α) : Prop where
  slots : ∀ b, ∀ msg ∈ (p.batches b).messages, ∀ a, msg.addr = some a → S a
  sent : ∀ msg ∈ p.sent, ∀ a, msg.addr = some a → S a

variable {S : α → Prop}

/-- A batch of known addresses. -/
theorem Known.setBatch (h : Known S p) {i : Bool} {m : MessageBatch α}
    (hm : ∀ msg ∈ m.messages, ∀ a, msg.addr = some a → S a) : Known S (p.setBatch i m) where
  slots b := by
    by_cases hb : b = i
    · subst hb
      simpa [PingPong.setBatch] using hm
    · simpa [PingPong.setBatch, Function.update_of_ne hb] using h.slots b
  sent := h.sent

/-- A step brings in no address but that of an accepted message. -/
theorem Known.step (h : Known S p) (ht : Transition p e p' o)
    (ho : ∀ x ∈ o.message, ∀ a, x.2 = some a → S a) : Known S p' := by
  cases ht with
  | @accept i buf raddr msg hw hbuf hfree hroom hmsg =>
    have hm := h.setBatch (i := p.writeBatchIdx) (m := p.current.store (msg.fill buf raddr)) ?_
    · exact ⟨hm.slots, hm.sent⟩
    · intro x hx a ha
      obtain hx | rfl := List.mem_or_eq_of_mem_set hx
      · exact h.slots _ x hx a ha
      · cases raddr with
        | none => exact h.slots _ msg (List.mem_of_getElem? hmsg) a ha
        | some b => exact ho (buf, some b) List.mem_cons_self a ha
  | @writeError i | @flushed i =>
    have hm := h.setBatch (i := i) (m := (p.batches i).reset) (h.slots i)
    exact ⟨hm.slots, hm.sent⟩
  | @writeBatch i txN n hf hlt =>
    refine ⟨h.slots, fun msg hmsg a ha => ?_⟩
    obtain hmsg | hmsg := List.mem_append.mp hmsg
    · exact h.sent msg hmsg a ha
    · have hslot := List.mem_of_mem_take (List.mem_of_mem_drop (List.mem_of_mem_take hmsg))
      exact h.slots i msg hslot a ha
  | _ => exact ⟨h.slots, h.sent⟩

/-- A run brings in no addresses but those of accepted messages. -/
theorem Known.run (h : Known S p) (hrun : run PingPong.step p es = some (p', os))
    (hos : ∀ x ∈ acceptances os, ∀ a, x.2 = some a → S a) : Known S p' := by
  induction hrun using run_induct with
  | nil => exact h
  | cons hstep _ ih =>
    rw [acceptances, List.flatMap_cons] at hos
    refine ih (h.step (step_transition hstep) fun x hx => ?_) fun x hx => ?_
    · exact hos x (List.mem_append_left _ hx)
    · exact hos x (List.mem_append_right _ hx)

/-- The messages held or sent have known addresses. -/
theorem Known.content (h : Known S p) {msg : Message α} (hmsg : msg ∈ p.content) {a : α}
    (ha : msg.addr = some a) : S a := by
  simp only [PingPong.content, List.mem_append] at hmsg
  obtain (hmsg | hmsg) | hmsg := hmsg
  · exact h.sent msg hmsg a ha
  · unfold PingPong.unflushed at hmsg
    split at hmsg
    next i txN hf =>
      exact h.slots i msg (List.mem_of_mem_take (List.mem_of_mem_drop hmsg)) a ha
    · cases hmsg
  · exact h.slots _ msg (List.mem_of_mem_take hmsg) a ha

/-- The call returns `n`, if only after its send to `writeReady`. -/
def WriterAt.answers (n : Nat) : WriterAt → Bool
  | .returned m | .signalling m _ => m = n
  | .trying | .waiting _ | .woken => false

/-- The call `i` has a non-empty message and returns its length. -/
def Answered (p : PingPong α) (i : Nat) (buf : List UInt8) (raddr : Option α) : Prop :=
  buf ≠ [] ∧ ∃ pos, p.writers[i]? = some ⟨buf, raddr, pos⟩ ∧ pos.answers buf.length = true

/-- A writer returns what the batch answered. -/
theorem leave_answers (n : Nat) (isFull : Bool) : (p.leave n isFull).answers n = true := by
  unfold PingPong.leave
  split <;> simp [WriterAt.answers]

variable {i : Nat} {buf : List UInt8} {raddr : Option α}

/-- The other writers stay where they are. -/
theorem answered_moveWriter {j : Nat} {b : List UInt8} {a : Option α} {pos pos' : WriterAt}
    (hwriters : p'.writers = (p.moveWriter j pos').writers)
    (hj : p.writers[j]? = some ⟨b, a, pos⟩) :
    Answered p' i buf raddr ↔ i ≠ j ∧ Answered p i buf raddr ∨
      i = j ∧ buf ≠ [] ∧ b = buf ∧ a = raddr ∧ pos'.answers buf.length = true := by
  have hiff : ∀ q, p'.writers[i]? = some ⟨buf, raddr, q⟩ ↔
      ∃ w, p.writers[i]? = some w ∧ (if j = i then { w with pos := pos' } else w) =
        ⟨buf, raddr, q⟩ := by
    intro q
    rw [hwriters]
    exact getElem?_modify_iff
  simp only [Answered, hiff]
  by_cases hij : j = i
  · subst hij
    simp [hj, and_assoc]
  · simp [hij, Ne.symm hij]

/-- A writer's move that does not change whether its call returns its length. -/
theorem answered_of_same {j : Nat} {b : List UInt8} {a : Option α} {pos pos' : WriterAt}
    (hwriters : p'.writers = (p.moveWriter j pos').writers)
    (hj : p.writers[j]? = some ⟨b, a, pos⟩)
    (hpos : b ≠ [] → pos'.answers b.length = pos.answers b.length) :
    Answered p' i buf raddr ↔ Answered p i buf raddr := by
  rw [answered_moveWriter hwriters hj]
  by_cases hij : i = j
  · subst hij
    simp only [Answered, hj, ne_eq, not_true_eq_false, false_and, false_or, true_and,
      Option.some.injEq, Writer.mk.injEq]
    constructor
    · rintro ⟨hbuf, rfl, rfl, hans⟩
      exact ⟨hbuf, pos, ⟨rfl, rfl, rfl⟩, by rw [← hpos hbuf, hans]⟩
    · rintro ⟨hbuf, q, ⟨rfl, rfl, rfl⟩, hans⟩
      exact ⟨hbuf, rfl, rfl, by rw [hpos hbuf, hans]⟩
  · simp [hij]

/-- A step makes a call return its length exactly if it accepts its message. -/
theorem answered_step (ht : Transition p e p' o) :
    Answered p' i buf raddr ↔ Answered p i buf raddr ∨ o = .accepted i buf raddr := by
  cases ht with
  | @accept j b a msg hw hbuf hfree hroom hmsg =>
    refine (answered_moveWriter rfl hw).trans ?_
    by_cases hij : i = j
    · subst hij
      simp only [Answered, hw, WriterAt.answers, ne_eq, not_true_eq_false, false_and, false_or,
        true_and, Option.some.injEq, Writer.mk.injEq, Outcome.accepted.injEq]
      constructor
      · rintro ⟨-, rfl, rfl, -⟩
        exact .inr ⟨rfl, rfl⟩
      · rintro (⟨-, q, ⟨-, -, rfl⟩, hans⟩ | ⟨rfl, rfl⟩)
        · cases hans
        · exact ⟨hbuf, rfl, rfl, leave_answers _ _⟩
    · simp [hij, Ne.symm hij]
  | call =>
    rw [or_iff_left (by simp)]
    simp only [Answered, getElem?_snoc_iff]
    refine and_congr_right fun _ => ⟨?_, fun ⟨q, hq, hans⟩ => ⟨q, .inr hq, hans⟩⟩
    rintro ⟨q, ⟨-, hq⟩ | hq, hans⟩
    · cases hq
      cases hans
    · exact ⟨q, hq, hans⟩
  | skip hw =>
    rw [or_iff_left (by simp)]
    exact answered_of_same rfl hw fun h => absurd rfl h
  | wait hw | wake hw | signal hw =>
    rw [or_iff_left (by simp)]
    exact answered_of_same rfl hw fun _ => rfl
  | @check j b a hw =>
    rw [or_iff_left (by simp)]
    refine answered_of_same rfl hw fun hb => ?_
    have hlen : 0 ≠ b.length := fun he => hb (List.eq_nil_of_length_eq_zero he.symm)
    cases p.closed <;> simp [WriterAt.answers, hlen]
  | _ => exact (or_iff_left (by simp)).symm

/-- The calls that return their length are those whose message is accepted. -/
theorem answered_run (hrun : run PingPong.step p es = some (p', os)) :
    Answered p' i buf raddr ↔ Answered p i buf raddr ∨ .accepted i buf raddr ∈ os := by
  induction hrun using run_induct with
  | nil => simp
  | @cons _ _ _ o _ _ hstep _ ih =>
    rw [ih, answered_step (step_transition hstep), List.mem_cons, or_assoc,
      eq_comm (b := o)]

/-- In a run of a new batcher the accepted messages are those whose call returns their length. -/
theorem accepted_iff_answered (hrun : run PingPong.step (newPingPong size) es = some (p', os))
    (i : Nat) (buf : List UInt8) (raddr : Option α) :
    .accepted i buf raddr ∈ os ↔ Answered p' i buf raddr := by
  rw [answered_run hrun, or_iff_right]
  rintro ⟨-, pos, hpos, -⟩
  cases hpos

/-- If all calls give an address, or none does, the messages are the accepted ones. -/
theorem datagrams_eq {ms : List (Message α)} {xs : List (List UInt8 × Option α)}
    (h : List.Forall₂ Carries ms xs)
    (hknown : ∀ msg ∈ ms, ∀ a, msg.addr = some a → ∃ buf, (buf, some a) ∈ xs)
    (hsame : (∀ x ∈ xs, x.2 ≠ none) ∨ ∀ x ∈ xs, x.2 = none) : ms.map Message.datagram = xs := by
  refine List.ext_getElem (by rw [List.length_map, h.length_eq]) fun i hi hi' => ?_
  rw [List.getElem_map]
  rw [List.length_map] at hi
  obtain ⟨hpayload, hgiven⟩ := h.get hi hi'
  refine Prod.ext hpayload ?_
  rcases hsame with hsome | hnone
  · obtain ⟨a, ha⟩ := Option.ne_none_iff_exists'.mp (hsome _ (List.getElem_mem hi'))
    exact (hgiven a ha).trans ha.symm
  · rw [hnone _ (List.getElem_mem hi')]
    cases haddr : ms[i].addr with
    | none => exact haddr
    | some a =>
      obtain ⟨buf, hbuf⟩ := hknown _ (List.getElem_mem hi) a haddr
      cases hnone _ hbuf

/-- In every interleaving with a socket that transmits: the transmitted messages, the rest of the
batch being flushed and the write batch are the accepted messages in the order of acceptance, with
no address but those given, and equal to them if all calls give an address or none does; the
accepted ones are those whose call returns their length; the flusher and the writers use different
batches; and the indices differ exactly while a flush is pending. -/
theorem batches_keep_order (size : Nat) (es : List (Event α))
    (htr : Along PingPong.step (fun p e => p.transmits e = true) (newPingPong size) es) :
    ∃ p os, run PingPong.step (newPingPong size) es = some (p, os) ∧
      List.Forall₂ Carries (p.sent ++ p.unflushed ++ p.current.written) (acceptances os) ∧
      (∀ msg ∈ p.sent ++ p.unflushed ++ p.current.written, ∀ a, msg.addr = some a →
        ∃ buf, (buf, some a) ∈ acceptances os) ∧
      ((∀ x ∈ acceptances os, x.2 ≠ none) ∨ (∀ x ∈ acceptances os, x.2 = none) →
        (p.sent ++ p.unflushed ++ p.current.written).map Message.datagram = acceptances os) ∧
      (∀ i buf raddr, .accepted i buf raddr ∈ os ↔ Answered p i buf raddr) ∧
      (∀ i txN, p.flusher = .flushing i txN → i ≠ p.writeBatchIdx) ∧
      (p.writeBatchIdx = p.readBatchIdx ∧ p.flushPending = false ∨
        p.writeBatchIdx ≠ p.readBatchIdx ∧ p.flushPending = true) := by
  have hnew : Wf size (newPingPong size : PingPong α) := Wf.new
  obtain ⟨p, os, hrun, hwf⟩ := hnew.run es
  obtain ⟨ms, hcontent, hcarry⟩ :=
    content_run hnew (htr.imp fun _ _ => succeeds_of_transmits) hrun
  have hknown : Known (fun a => ∃ buf, (buf, some a) ∈ acceptances os) p := by
    refine Known.run ⟨?_, ?_⟩ hrun fun x hx a ha => ⟨x.1, by rw [← ha]; exact hx⟩
    · intro b msg hmsg a ha
      obtain ⟨-, rfl⟩ := List.mem_replicate.mp hmsg
      cases ha
    · intro msg hmsg
      cases hmsg
  rw [content_new, List.nil_append] at hcontent
  rw [← hcontent] at hcarry
  have hgiven := fun msg (hmsg : msg ∈ p.content) a ha => hknown.content (a := a) hmsg ha
  refine ⟨p, os, hrun, hcarry, hgiven, datagrams_eq hcarry hgiven, accepted_iff_answered hrun,
    fun i txN => hwf.flushing_ne, ?_⟩
  rw [hwf.pending, hwf.index]
  cases p.flusher.busy <;> simp

/-- Two messages, the first of them flushed while the second is written. -/
def flushDuringWrite : List (Event Nat) :=
  [.call [1] (some 7), .enqueue 0, .loop, .ready, .tick true, .swap, .call [2] (some 8),
    .writeBatch (some 1), .enqueue 1]

/-- A second message is accepted during the flush of the first. -/
theorem batches_keep_order_two :
    ∃ p os, run PingPong.step (newPingPong 2) flushDuringWrite = some (p, os) ∧
      acceptances os = [([1], some 7), ([2], some 8)] ∧
      List.Forall₂ Carries (p.sent ++ p.unflushed ++ p.current.written) (acceptances os) := by
  obtain ⟨p, os, hrun, horder, -⟩ := batches_keep_order 2 flushDuringWrite (by decide +kernel)
  exact ⟨p, os, hrun, holds_of_run hrun
    (fun _ os => acceptances os = [([1], some 7), ([2], some 8)]) (by decide +kernel), horder⟩

end Order

end PionTransport.Udp.Batch
