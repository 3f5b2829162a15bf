import PionTransport.Deadlines.Invariant
import PionTransport.PacketIO.Refinement

/-!
# Readers never sleep next to a packet

Any number of calls of `Read` share a buffer with writers, `Close` and the read
deadline. What happens under the mutex is one step; a reader that finds the
buffer empty waits for the one-slot channel `notify` or for its deadline. The
token in the channel stands for any number of packets: whoever takes it looks at
the buffer again, and puts it back if packets remain.
-/

namespace PionTransport.PacketIO

open PionTransport.Core Deadlines

/-- Where a call of `Read` is. -/
inductive ReaderAt (α : Type)
  /-- in front of its first look at the deadline -/
  | calling
  /-- in front of its first `mutex.Lock` -/
  | locking
  /-- has found the buffer empty and unlocked it, in front of its `select` -/
  | parking
  /-- in its `select`, with this channel of the deadline -/
  | waiting (done : Nat)
  /-- has received from `notify`, in front of `mutex.Lock` -/
  | woken
  | returned (result : ReadResult α)
  deriving DecidableEq, Repr

/-- A call of `Read`. -/
structure Reader (α : Type) where
  payloadBuf : List UInt8
  attributes : List α
  pos : ReaderAt α := .calling
  deriving DecidableEq, Repr

/-- A buffer with its deadline and its readers. The flag of the buffer for an exceeded deadline is
not used here. -/
structure Shared (α : Type) where
  buf : Buffer α
  /-- whether the channel `notify` is closed -/
  notifyClosed : Bool := false
  deadline : Deadline := new
  readers : List (Reader α) := []

/-- A new buffer without readers. -/
def newShared {α : Type} : Shared α := { buf := newBuffer }

namespace Shared

/-- The steps of writers, readers and the deadline. -/
inductive Event (α : Type)
  | write (payload : List UInt8) (attributes : List α)
  | close
  | setLimitSize (limit : Int)
  | setLimitCount (limit : Int)
  /-- a step of the deadline -/
  | deadline (e : Deadlines.Event)
  /-- `Read` is called -/
  | call (payloadBuf : List UInt8) (attributes : List α)
  /-- a reader looks at the deadline for the first time -/
  | check (i : Nat)
  /-- a reader looks at the locked buffer -/
  | inspect (i : Nat)
  /-- a reader enters its `select` -/
  | park (i : Nat)
  /-- a reader receives from `notify` -/
  | wake (i : Nat)
  /-- a reader receives from the channel of the deadline -/
  | timeout (i : Nat)

/-- What a step is seen to do. -/
inductive Outcome
  | blocked
  | moved
  | wrote (n : Nat) (err : Option Error)
  | deadline (o : Deadlines.Outcome)
  deriving DecidableEq, Repr

variable {α : Type}

/-- Move a reader. -/
def moveReader (s : Shared α) (i : Nat) (pos : ReaderAt α) : Shared α :=
  { s with readers := s.readers.modify i fun r => { r with pos } }

/-- A step that cannot be taken. -/
def blocked (s : Shared α) : Option (Shared α × Outcome) := some (s, .blocked)

/-- `Write`. -/
def write (sizeHardLimit : Bool) (s : Shared α) (payload : List UInt8) (attributes : List α) :
    Option (Shared α × Outcome) :=
  (s.buf.write sizeHardLimit payload attributes).map fun r =>
    ({ s with buf := r.1 }, .wrote r.2.1 r.2.2)

/-- `Close`; closing `notify` twice would panic. -/
def close (s : Shared α) : Option (Shared α × Outcome) :=
  if s.buf.closed then some (s, .moved)
  else if s.notifyClosed then none
  else some ({ s with buf := s.buf.close, notifyClosed := true }, .moved)

/-- The channel of the deadline is closed. -/
def exceeded (s : Shared α) (done : Nat) : Bool := s.deadline.chans[done]? = some true

/-- `Read` looks at its deadline and goes on or times out. -/
def check (s : Shared α) (i : Nat) : Option (Shared α × Outcome) :=
  match s.readers[i]? with
  | some ⟨payloadBuf, _, .calling⟩ =>
    if s.exceeded s.deadline.done then
      some (s.moveReader i (.returned (.returned payloadBuf 0 [] (some .timeout))), .moved)
    else some (s.moveReader i .locking, .moved)
  | _ => s.blocked

/-- The part of `Read` under the mutex. -/
def look (s : Shared α) (i : Nat) (payloadBuf : List UInt8) (attributes : List α) :
    Option (Shared α × Outcome) :=
  if s.buf.head ≠ s.buf.tail then do
    let (b, payloadBuf, n, attrs, err) ← s.buf.consumePacket payloadBuf attributes
    return ({ s with buf := b }.moveReader i (.returned (.returned payloadBuf n attrs err)), .moved)
  else if s.buf.closed then
    some (s.moveReader i (.returned (.returned payloadBuf 0 [] (some .eof))), .moved)
  else some (s.moveReader i .parking, .moved)

/-- A reader that has the mutex looks at the buffer. -/
def inspect (s : Shared α) (i : Nat) : Option (Shared α × Outcome) :=
  match s.readers[i]? with
  | some ⟨payloadBuf, attributes, .locking⟩ => s.look i payloadBuf attributes
  | some ⟨payloadBuf, attributes, .woken⟩ => s.look i payloadBuf attributes
  | _ => s.blocked

/-- A reader enters its `select` with the current channel of the deadline. -/
def park (s : Shared α) (i : Nat) : Option (Shared α × Outcome) :=
  match s.readers[i]? with
  | some ⟨_, _, .parking⟩ => some (s.moveReader i (.waiting s.deadline.done), .moved)
  | _ => s.blocked

/-- A reader receives from `notify`. -/
def wake (s : Shared α) (i : Nat) : Option (Shared α × Outcome) :=
  match s.readers[i]? with
  | some ⟨_, _, .waiting _⟩ =>
    if s.notifyClosed then some (s.moveReader i .woken, .moved)
    else if s.buf.notify then
      some ({ s with buf := { s.buf with notify := false } }.moveReader i .woken, .moved)
    else s.blocked
  | _ => s.blocked

/-- A reader receives from the channel of the deadline and times out. -/
def timeout (s : Shared α) (i : Nat) : Option (Shared α × Outcome) :=
  match s.readers[i]? with
  | some ⟨payloadBuf, _, .waiting done⟩ =>
    if s.exceeded done then
      some (s.moveReader i (.returned (.returned payloadBuf 0 [] (some .timeout))), .moved)
    else s.blocked
  | _ => s.blocked

/-- One step of one goroutine. -/
def step (sizeHardLimit : Bool) (s : Shared α) : Event α → Option (Shared α × Outcome)
  | .write payload attributes => s.write sizeHardLimit payload attributes
  | .close => s.close
  | .setLimitSize limit => some ({ s with buf := { s.buf with limitSize := limit } }, .moved)
  | .setLimitCount limit => some ({ s with buf := { s.buf with limitCount := limit } }, .moved)
  | .deadline e => (s.deadline.step e).map fun r => ({ s with deadline := r.1 }, .deadline r.2)
  | .call payloadBuf attributes =>
    some ({ s with readers := s.readers ++ [{ payloadBuf, attributes }] }, .moved)
  | .check i => s.check i
  | .inspect i => s.inspect i
  | .park i => s.park i
  | .wake i => s.wake i
  | .timeout i => s.timeout i

/-- The reader has taken a token and not yet looked at the buffer. -/
def Woken (s : Shared α) (i : Nat) : Prop :=
  ∃ payloadBuf attributes, s.readers[i]? = some ⟨payloadBuf, attributes, .woken⟩

/-- The invariant: next to a packet in an open buffer there is a token, in the channel or with a
reader. -/
structure Alert (s : Shared α) (q : Queue α) : Prop where
  rep : s.buf.Represents q
  wf : Wf s.deadline
  channel : s.notifyClosed = s.buf.closed
  alert : q.packets ≠ [] → q.closed = false → s.buf.notify = true ∨ ∃ i, s.Woken i

section Alert

variable {s : Shared α} {q : Queue α}

theorem alert_new : (newShared : Shared α).Alert Queue.empty where
  rep := newBuffer_represents
  wf := Wf.new
  channel := rfl
  alert h := absurd rfl h

/-- A reader that holds no token moves. -/
theorem Woken.moveReader {i j : Nat} {r : Reader α} {pos : ReaderAt α} (h : s.Woken j)
    (hi : s.readers[i]? = some r) (hr : r.pos ≠ .woken) : (s.moveReader i pos).Woken j := by
  obtain ⟨payloadBuf, attributes, hj⟩ := h
  refine ⟨payloadBuf, attributes, getElem?_modify_iff.mpr ⟨_, hj, if_neg ?_⟩⟩
  rintro rfl
  rw [hi] at hj
  cases hj
  exact hr rfl

theorem Alert.moveReader (h : s.Alert q) {i : Nat} {r : Reader α} (hi : s.readers[i]? = some r)
    (hr : r.pos ≠ .woken) (pos : ReaderAt α) : (s.moveReader i pos).Alert q where
  rep := h.rep
  wf := h.wf
  channel := h.channel
  alert hne hopen := (h.alert hne hopen).imp_right fun ⟨j, hj⟩ => ⟨j, hj.moveReader hi hr⟩

/-- A step that leaves the queue and the token alone. -/
theorem Alert.frame {s' : Shared α} (h : s.Alert q) (hrep : s'.buf.Represents q)
    (hwf : Wf s'.deadline) (hchannel : s'.notifyClosed = s'.buf.closed)
    (hnotify : s.buf.notify = true → s'.buf.notify = true)
    (hwoken : ∀ i, s.Woken i → s'.Woken i) : s'.Alert q where
  rep := hrep
  wf := hwf
  channel := hchannel
  alert hne hopen := (h.alert hne hopen).imp hnotify fun ⟨i, hi⟩ => ⟨i, hwoken i hi⟩

/-- The buffer is empty exactly if the queue is. -/
theorem empty_iff (h : s.buf.Represents q) : s.buf.head = s.buf.tail ↔ q.packets = [] :=
  h.bytes.head_eq_tail_iff.trans (frames_eq_nil_iff q.packets)

/-- A reader that looks at the buffer takes a packet and notifies the next reader, or leaves, or
finds nothing to wait next to. -/
theorem Alert.look (h : s.Alert q) {i : Nat} (payloadBuf : List UInt8) (attributes : List α) :
    ∃ s' q', s.look i payloadBuf attributes = some (s', .moved) ∧ s'.Alert q' := by
  unfold Shared.look
  obtain ⟨packets, closed⟩ := q
  cases packets with
  | nil =>
    have hempty : s.buf.head = s.buf.tail := (empty_iff h.rep).mpr rfl
    rw [if_neg (not_not.mpr hempty)]
    split
    · exact ⟨_, ⟨[], closed⟩, rfl, h.rep, h.wf, h.channel, fun hne => absurd rfl hne⟩
    · exact ⟨_, ⟨[], closed⟩, rfl, h.rep, h.wf, h.channel, fun hne => absurd rfl hne⟩
  | cons p ps =>
    have hne : s.buf.head ≠ s.buf.tail := fun he => by cases (empty_iff h.rep).mp he
    obtain ⟨b, buf, n, attrs, err, hconsume, -, hrep, hnotify⟩ :=
      h.rep.consumePacket_spec payloadBuf attributes
    rw [if_pos hne, hconsume]
    refine ⟨_, ⟨ps, closed⟩, rfl, hrep, h.wf, ?_, fun hps hopen => .inl (hnotify hps hopen)⟩
    exact h.channel.trans (h.rep.closed.trans hrep.closed.symm)

theorem Alert.write (h : s.Alert q) (sizeHardLimit : Bool) (payload : List UInt8)
    (attributes : List α) :
    ∃ s' o q', s.write sizeHardLimit payload attributes = some (s', o) ∧ s'.Alert q' := by
  obtain ⟨b, n, err, q', hwrite, hstep, hrep, hnotify⟩ :=
    s.buf.write_spec sizeHardLimit h.rep payload attributes
  refine ⟨{ s with buf := b }, .wrote n err, q', by rw [Shared.write, hwrite]; rfl, ?_⟩
  have hchannel : s.notifyClosed = b.closed := by
    rw [h.channel, h.rep.closed, hrep.closed]
    cases hstep <;> rfl
  refine ⟨hrep, h.wf, hchannel, fun hne hopen => ?_⟩
  cases hstep with
  | wrote => exact .inl hnotify
  | refused =>
    obtain hn | hw := h.alert hne hopen
    · exact .inl (by rw [hnotify, hn]; rfl)
    · exact .inr hw

theorem Alert.close (h : s.Alert q) : ∃ s' q', s.close = some (s', .moved) ∧ s'.Alert q' := by
  unfold Shared.close
  split
  · exact ⟨s, q, rfl, h⟩
  next hclosed =>
    have hopen : s.notifyClosed = false := h.channel.trans (eq_false_of_ne_true hclosed)
    have hbuf : s.buf.close = { s.buf with closed := true, notify := false } := if_neg hclosed
    rw [hopen, hbuf]
    refine ⟨_, ⟨q.packets, true⟩, rfl, ?_, h.wf, rfl, fun _ hopen => by cases hopen⟩
    exact ⟨h.rep.bytes, h.rep.slots, h.rep.slot_lt, h.rep.count, rfl, h.rep.small, h.rep.deadline⟩

/-- A token that leaves the channel is with the reader that takes it. -/
theorem Alert.wake (h : s.Alert q) (i : Nat) :
    ∃ s' o, s.wake i = some (s', o) ∧ s'.Alert q := by
  unfold Shared.wake
  split
  next payloadBuf attributes done hi =>
    split
    · exact ⟨_, _, rfl, h.moveReader hi (by simp) _⟩
    · split
      · refine ⟨_, _, rfl, ?_, h.wf, h.channel, fun _ _ => .inr ⟨i, payloadBuf, attributes, ?_⟩⟩
        · exact ⟨h.rep.bytes, h.rep.slots, h.rep.slot_lt, h.rep.count, h.rep.closed, h.rep.small,
            h.rep.deadline⟩
        · exact getElem?_modify_self hi _
      · exact ⟨_, _, rfl, h⟩
  · exact ⟨_, _, rfl, h⟩

/-- No step panics, and each keeps the invariant. -/
theorem Alert.step (h : s.Alert q) (sizeHardLimit : Bool) (e : Event α) :
    ∃ s' o q', s.step sizeHardLimit e = some (s', o) ∧ s'.Alert q' := by
  cases e with
  | write payload attributes => exact h.write sizeHardLimit payload attributes
  | close =>
    obtain ⟨s', q', hclose, h'⟩ := h.close
    exact ⟨s', .moved, q', hclose, h'⟩
  | setLimitSize | setLimitCount =>
    refine ⟨_, _, q, rfl, h.frame ?_ h.wf h.channel id fun _ => id⟩
    exact ⟨h.rep.bytes, h.rep.slots, h.rep.slot_lt, h.rep.count, h.rep.closed, h.rep.small,
      h.rep.deadline⟩
  | deadline e =>
    obtain ⟨d, o, hstep⟩ := h.wf.progress e
    refine ⟨{ s with deadline := d }, .deadline o, q, by rw [Shared.step, hstep]; rfl, ?_⟩
    exact h.frame h.rep (h.wf.step (step_transition hstep)) h.channel id fun _ => id
  | call payloadBuf attributes =>
    refine ⟨_, _, q, rfl, h.frame h.rep h.wf h.channel id fun i ⟨buf, attrs, hi⟩ => ?_⟩
    exact ⟨buf, attrs, getElem?_snoc_iff.mpr (.inr hi)⟩
  | check i =>
    simp only [Shared.step, Shared.check]
    split
    next payloadBuf attributes hi =>
      split <;> exact ⟨_, _, q, rfl, h.moveReader hi (by simp) _⟩
    · exact ⟨_, _, q, rfl, h⟩
  | inspect i =>
    simp only [Shared.step, Shared.inspect]
    split
    next payloadBuf attributes hi =>
      obtain ⟨s', q', hlook, h'⟩ := h.look payloadBuf attributes
      exact ⟨s', .moved, q', hlook, h'⟩
    next payloadBuf attributes hi =>
      obtain ⟨s', q', hlook, h'⟩ := h.look payloadBuf attributes
      exact ⟨s', .moved, q', hlook, h'⟩
    · exact ⟨_, _, q, rfl, h⟩
  | park i =>
    simp only [Shared.step, Shared.park]
    split
    next payloadBuf attributes hi => exact ⟨_, _, q, rfl, h.moveReader hi (by simp) _⟩
    · exact ⟨_, _, q, rfl, h⟩
  | wake i =>
    obtain ⟨s', o, hwake, h'⟩ := h.wake i
    exact ⟨s', o, q, hwake, h'⟩
  | timeout i =>
    simp only [Shared.step, Shared.timeout]
    split
    next payloadBuf attributes done hi =>
      split
      · exact ⟨_, _, q, rfl, h.moveReader hi (by simp) _⟩
      · exact ⟨_, _, q, rfl, h⟩
    · exact ⟨_, _, q, rfl, h⟩

/-- A reader that is woken from a closed buffer returns at its next look. -/
theorem Alert.returns (h : s.Alert q) (hclosed : s.buf.closed = true) {i : Nat}
    {payloadBuf : List UInt8} {attributes : List α}
    (hi : s.readers[i]? = some ⟨payloadBuf, attributes, .woken⟩) :
    ∃ s' result, s.inspect i = some (s', .moved) ∧
      s'.readers[i]? = some ⟨payloadBuf, attributes, .returned result⟩ := by
  have hmove : ∀ (s : Shared α) pos, s.readers[i]? = some ⟨payloadBuf, attributes, .woken⟩ →
      (s.moveReader i pos).readers[i]? = some ⟨payloadBuf, attributes, pos⟩ :=
    fun s pos hi => getElem?_modify_self hi _
  simp only [Shared.inspect, hi, Shared.look, hclosed, if_true]
  split
  next hne =>
    obtain ⟨packets, closed⟩ := q
    cases packets with
    | nil => exact absurd ((empty_iff h.rep).mpr rfl) hne
    | cons p ps =>
      obtain ⟨b, buf, n, attrs, err, hconsume, -⟩ := h.rep.consumePacket_spec payloadBuf attributes
      rw [hconsume]
      exact ⟨_, _, rfl, hmove { s with buf := b } _ hi⟩
  · exact ⟨_, _, rfl, hmove s _ hi⟩

/-- Every run ends, without a panic, in a state with the invariant. -/
theorem alert_run (sizeHardLimit : Bool) (es : List (Event α)) :
    ∃ s os, run (step sizeHardLimit) (newShared : Shared α) es = some (s, os) ∧
      ∃ q, s.Alert q :=
  run_keeps
    (fun (s : Shared α) e (h : ∃ q, s.Alert q) => by
      obtain ⟨q, h⟩ := h
      obtain ⟨s', o, q', hstep, h'⟩ := h.step sizeHardLimit e
      exact ⟨s', o, hstep, q', h'⟩) es ⟨Queue.empty, alert_new⟩

end Alert

/-- In every interleaving: an open buffer with a packet has a token in `notify` or a reader that
has taken one and not yet looked; and every reader that waits for a closed buffer receives from
`notify` and returns. No step panics, by a send on the closed channel or by closing it again. -/
theorem readers_never_sleep (sizeHardLimit : Bool) (es : List (Event α)) :
    ∃ s os, run (step sizeHardLimit) (newShared : Shared α) es = some (s, os) ∧
      (s.buf.closed = false → s.buf.head ≠ s.buf.tail → s.buf.notify = true ∨ ∃ i, s.Woken i) ∧
      (s.buf.closed = true → ∀ i payloadBuf attributes done,
        s.readers[i]? = some ⟨payloadBuf, attributes, .waiting done⟩ →
        ∃ s₁ s₂ result, s.step sizeHardLimit (.wake i) = some (s₁, .moved) ∧
          s₁.step sizeHardLimit (.inspect i) = some (s₂, .moved) ∧
          s₂.readers[i]? = some ⟨payloadBuf, attributes, .returned result⟩) := by
  obtain ⟨s, os, hrun, q, h⟩ := alert_run sizeHardLimit es
  refine ⟨s, os, hrun, fun hopen hne => ?_, fun hclosed i payloadBuf attributes done hi => ?_⟩
  · refine h.alert (fun he => hne ((empty_iff h.rep).mpr he)) ?_
    rw [← h.rep.closed, hopen]
  · have hchannel : s.notifyClosed = true := h.channel.trans hclosed
    have hwake : s.wake i = some (s.moveReader i .woken, .moved) := by
      simp only [Shared.wake, hi, hchannel, if_true]
    have h₁ : (s.moveReader i .woken).Alert q := h.moveReader hi (by simp) _
    have hi₁ : (s.moveReader i .woken).readers[i]? = some ⟨payloadBuf, attributes, .woken⟩ :=
      getElem?_modify_self hi _
    obtain ⟨s₂, result, hlook, hreturned⟩ := h₁.returns hclosed hi₁
    exact ⟨_, s₂, result, hwake, hlook, hreturned⟩

end Shared

end PionTransport.PacketIO
