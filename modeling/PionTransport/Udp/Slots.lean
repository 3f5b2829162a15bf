import PionTransport.Udp.Batching

/-!
# Recycled message slots

A slot of a batch is filled again and again: the first buffer is re-sliced to its
capacity, a packet that does not fit gets a second buffer, and the address is
only written if there is one. The slots run beside the batcher here, with the
messages that a flush offers to `WriteBatch`. Nothing of an earlier packet is
left over, except the address under a packet without one.
-/

namespace PionTransport.Udp.Batch

open PionTransport.Core

variable {α : Type}

/-- A slot of a batch: the array behind `Buffers[0]`, the length of that slice, the second buffer
and the address. -/
structure Slot (α : Type) where
  array : List UInt8
  len : Nat
  extra : Option (List UInt8)
  addr : Option α
  deriving DecidableEq, Repr

namespace Slot

/-- A slot as `init` makes it. -/
def new : Slot α := ⟨List.replicate sendMTU 0, sendMTU, none, none⟩

/-- The message that `WriteBatch` sees. -/
def message (s : Slot α) : Message α := ⟨s.array.take s.len :: s.extra.toList, s.addr⟩

/-- `EnqueueMessage` on the slot: both slices are reset to the first buffer at its capacity, then
the packet is copied. -/
def reuse (s : Slot α) (buf : List UInt8) (raddr : Option α) : Slot α :=
  let n := min s.array.length buf.length
  { array := buf.take n ++ s.array.drop n
    len := if n < buf.length then s.array.length else n
    extra := if n < buf.length then some (buf.drop n) else none
    addr := if raddr.isSome then raddr else s.addr }

theorem length_array_reuse (s : Slot α) (buf : List UInt8) (raddr : Option α) :
    (s.reuse buf raddr).array.length = s.array.length := by
  simp only [reuse, List.length_append, List.length_take, List.length_drop]
  omega

/-- A slot of the usual capacity shows exactly the new packet, over its old address if the packet
has none. -/
theorem message_reuse {s : Slot α} (h : s.array.length = sendMTU) (buf : List UInt8)
    (raddr : Option α) : (s.reuse buf raddr).message = s.message.fill buf raddr := by
  have haddr : (if raddr.isSome then raddr else s.addr) = (raddr <|> s.addr) := by
    cases raddr <;> rfl
  simp only [message, reuse, Message.fill, haddr, Message.mk.injEq, and_true]
  by_cases hlong : sendMTU < buf.length
  · have hn : min s.array.length buf.length = sendMTU := by omega
    have htake : (buf.take sendMTU).length = sendMTU := by
      rw [List.length_take]
      omega
    rw [hn, if_pos hlong, if_pos hlong, if_pos hlong, h, Option.toList_some]
    rw [List.take_append_of_le_length (by omega), List.take_of_length_le (by omega)]
  · have hn : min s.array.length buf.length = buf.length := by omega
    rw [hn, if_neg (Nat.lt_irrefl _), if_neg (Nat.lt_irrefl _), if_neg hlong, List.take_length,
      List.take_left, Option.toList_none]

end Slot

/-- What is kept beside the batcher: the slots of both batches, whether the batch being flushed is
still to be offered, and everything offered to `WriteBatch`. -/
structure Wire (α : Type) where
  slots : Bool → List (Slot α)
  fresh : Bool := false
  offered : List (Message α) := []

namespace Wire

/-- The slots of a new batcher. -/
def new (size : Nat) : Wire α where
  slots := fun _ => List.replicate size Slot.new

/-- The messages in a batch, as its slots show them. -/
def shown (g : Wire α) (p : PingPong α) (b : Bool) : List (Message α) :=
  ((g.slots b).take (p.batches b).writePos).map Slot.message

/-- A packet goes to the slot at the write position. -/
def store (g : Wire α) (p : PingPong α) (buf : List UInt8) (raddr : Option α) : Wire α :=
  { g with
    slots := Function.update g.slots p.writeBatchIdx
      ((g.slots p.writeBatchIdx).modify p.current.writePos fun s => s.reuse buf raddr) }

/-- The first `WriteBatch` of a flush offers the whole batch; the later ones offer its rest. -/
def offer (g : Wire α) (p : PingPong α) : Wire α :=
  match p.flusher with
  | .flushing i _ =>
    if g.fresh then { g with fresh := false, offered := g.offered ++ g.shown p i } else g
  | _ => g

/-- What a step does to the slots. -/
def record (p : PingPong α) (g : Wire α) (e : Event α) : Wire α :=
  match p.step e, e with
  | some (_, .accepted _ buf raddr), _ => g.store p buf raddr
  | some (_, .moved), .swap => { g with fresh := true }
  | some (_, .moved), .writeBatch _ => g.offer p
  | _, _ => g

/-- The batch being flushed, as long as it is still to be offered. -/
def awaiting (g : Wire α) (p : PingPong α) : List (Message α) :=
  match p.flusher with
  | .flushing i _ => if g.fresh then g.shown p i else []
  | _ => []

/-- Everything accepted, oldest first: offered, to be offered by this flush, in the write batch. -/
def datagrams (g : Wire α) (p : PingPong α) : List (Message α) :=
  g.offered ++ g.awaiting p ++ g.shown p p.writeBatchIdx

end Wire

/-- No call is made with an empty packet, a packet without an address goes to a slot without one,
and nobody calls `Close`. -/
def PingPong.plain (p : PingPong α) : Event α → Bool
  | .call buf _ => buf ≠ []
  | .closeStore => false
  | .enqueue i =>
    match p.writers[i]? with
    | some ⟨_, none, .trying⟩ =>
      ((p.current.messages[p.current.writePos]?).bind Message.addr).isNone
    | _ => true
  | _ => true

/-- The slots show the messages of the batcher. A flush that has offered its batch still shows
it, so that its later calls of `WriteBatch` offer the rest of the same messages. -/
structure Wire.Shows (g : Wire α) (p : PingPong α) : Prop where
  slots : ∀ b, (p.batches b).messages = (g.slots b).map Slot.message
  arrays : ∀ b, ∀ s ∈ g.slots b, s.array.length = sendMTU
  first : ∀ {i txN}, p.flusher = .flushing i txN → g.fresh = true → txN = 0
  rest : ∀ {i txN}, p.flusher = .flushing i txN → g.fresh = false →
    ∃ before, g.offered = before ++ g.shown p i

section Wire

variable {size : Nat} {p p' : PingPong α} {g : Wire α} {e : Event α} {o : Outcome α}

theorem shows_new : (Wire.new size : Wire α).Shows (newPingPong size) where
  slots _ := by
    simp [newPingPong, newMessageBatch, Wire.new, Slot.new, Slot.message]
  arrays _ s hs := by
    rw [List.eq_of_mem_replicate hs]
    exact List.length_replicate
  first hf := by cases hf
  rest hf := by cases hf

variable {g' : Wire α}

/-- Slots are only looked at while a batch is being flushed. -/
theorem Wire.Shows.idle (h : g.Shows p) (hslots : g'.slots = g.slots)
    (hmessages : ∀ b, (p'.batches b).messages = (p.batches b).messages)
    (hidle : ∀ i txN, p'.flusher ≠ .flushing i txN) : g'.Shows p' where
  slots b := by rw [hslots, hmessages, h.slots]
  arrays b := by
    rw [hslots]
    exact h.arrays b
  first hf := absurd hf (hidle _ _)
  rest hf := absurd hf (hidle _ _)

theorem messages_reset (i b : Bool) :
    ((p.setBatch i (p.batches i).reset).batches b).messages = (p.batches b).messages := by
  by_cases hb : b = i
  · subst hb
    simp [PingPong.setBatch, MessageBatch.reset]
  · simp [PingPong.setBatch, Function.update_of_ne hb]

/-- Changing one slot changes one message. -/
theorem map_modify_slot {slots : List (Slot α)} {k : Nat} {s : Slot α} {f : Slot α → Slot α}
    (hs : slots[k]? = some s) :
    (slots.modify k f).map Slot.message = (slots.map Slot.message).set k (f s).message := by
  ext1 j
  rw [List.getElem?_map, List.getElem?_modify, List.getElem?_set, List.getElem?_map]
  by_cases hj : k = j
  · subst hj
    obtain ⟨hlt, rfl⟩ := List.getElem?_eq_some_iff.mp hs
    simp [hlt]
  · simp [hj]

variable {buf : List UInt8} {raddr : Option α} {msg : Message α}

/-- A stored packet is shown by its slot, in place of what the slot held. -/
theorem Wire.Shows.store (h : g.Shows p) (hwf : Wf size p) {i : Nat} (pos : WriterAt)
    (hmsg : p.current.messages[p.current.writePos]? = some msg) :
    (g.store p buf raddr).Shows
      ((p.setBatch p.writeBatchIdx (p.current.store (msg.fill buf raddr))).moveWriter i pos) := by
  have hslots := h.slots p.writeBatchIdx
  obtain ⟨s, hs, rfl⟩ : ∃ s, (g.slots p.writeBatchIdx)[p.current.writePos]? = some s ∧
      s.message = msg := by
    rw [PingPong.current, hslots, List.getElem?_map] at hmsg
    exact Option.map_eq_some_iff.mp hmsg
  have hother : ∀ b, b ≠ p.writeBatchIdx →
      (p.setBatch p.writeBatchIdx (p.current.store (s.message.fill buf raddr))).batches b =
        p.batches b ∧ (g.store p buf raddr).slots b = g.slots b := fun b hb =>
    ⟨Function.update_of_ne hb _ _, Function.update_of_ne hb _ _⟩
  have hself : (g.store p buf raddr).slots p.writeBatchIdx =
      (g.slots p.writeBatchIdx).modify p.current.writePos fun s => s.reuse buf raddr :=
    Function.update_self ..
  refine ⟨fun b => ?_, fun b => ?_, h.first, fun {j txN} hf hfresh => ?_⟩
  · by_cases hb : b = p.writeBatchIdx
    · subst hb
      have harray := h.arrays p.writeBatchIdx s (List.mem_of_getElem? hs)
      rw [hself, map_modify_slot hs, Slot.message_reuse harray, ← hslots]
      simp [PingPong.moveWriter, PingPong.setBatch, MessageBatch.store, PingPong.current]
    · obtain ⟨hbatch, hslot⟩ := hother b hb
      rw [hslot, ← h.slots b, ← hbatch]
      rfl
  · by_cases hb : b = p.writeBatchIdx
    · subst hb
      rw [hself]
      intro r hr
      obtain ⟨k, hk⟩ := List.mem_iff_getElem?.mp hr
      obtain ⟨r₀, hr₀, hr⟩ := getElem?_modify_iff.mp hk
      have harray := h.arrays p.writeBatchIdx r₀ (List.mem_of_getElem? hr₀)
      rw [← hr]
      split
      · rw [Slot.length_array_reuse, harray]
      · exact harray
    · rw [(hother b hb).2]
      exact h.arrays b
  · obtain ⟨before, hbefore⟩ := h.rest hf hfresh
    obtain ⟨hbatch, hslot⟩ := hother j (hwf.flushing_ne hf)
    refine ⟨before, ?_⟩
    simp only [Wire.shown, hslot]
    simp only [PingPong.moveWriter, hbatch]
    exact hbefore

variable {i : Bool} {txN : Nat}

/-- What a `WriteBatch` of a flush does to the history. -/
theorem offer_of_flushing (hf : p.flusher = .flushing i txN) :
    g.offer p =
      if g.fresh then { g with fresh := false, offered := g.offered ++ g.shown p i } else g := by
  simp only [Wire.offer, hf]

theorem offer_slots : (g.offer p).slots = g.slots := by
  unfold Wire.offer
  split
  · split <;> rfl
  · rfl

theorem Wire.Shows.step (h : g.Shows p) (hwf : Wf size p) (hstep : p.step e = some (p', o)) :
    (g.record p e).Shows p' := by
  have ht := step_transition hstep
  unfold Wire.record
  rw [hstep]
  cases ht with
  | stutter => exact h
  | accept hw hbuf hfree hroom hmsg => exact h.store hwf _ hmsg
  | call | skip | wait | wake | check | signal | closeStore | closeSignal | closeReturn =>
    exact ⟨h.slots, h.arrays, h.first, h.rest⟩
  | exit | park | ready | unswapped | updateRead | unread | release | finish =>
    exact h.idle rfl (fun _ => rfl) (by simp)
  | @tick elapsed =>
    refine h.idle rfl (fun _ => rfl) ?_
    cases elapsed <;> simp
  | swap =>
    refine ⟨h.slots, h.arrays, fun hf _ => ?_, fun _ hfresh => ?_⟩
    · cases hf
      rfl
    · cases hfresh
  | writeError => exact h.idle offer_slots (fun b => messages_reset _ b) (by simp)
  | flushed => exact h.idle rfl (fun b => messages_reset _ b) (by simp)
  | writeBatch hf hlt =>
    change (g.offer p).Shows _
    rw [offer_of_flushing hf]
    cases hfresh : g.fresh with
    | true =>
      refine ⟨h.slots, h.arrays, fun _ hfresh' => (by cases hfresh'),
        fun {j k} hf' _ => ?_⟩
      cases hf'
      exact ⟨g.offered, rfl⟩
    | false =>
      refine ⟨h.slots, h.arrays, fun _ hfresh' => ?_, fun {j k} hf' _ => ?_⟩
      · exact absurd (hfresh.symm.trans hfresh') Bool.false_ne_true
      · cases hf'
        exact h.rest hf hfresh

theorem awaiting_idle (hidle : ∀ i txN, p.flusher ≠ .flushing i txN) : g.awaiting p = [] := by
  unfold Wire.awaiting
  split
  next i txN hf => exact absurd hf (hidle i txN)
  · rfl

theorem awaiting_flushing (hf : p.flusher = .flushing i txN) :
    g.awaiting p = if g.fresh then g.shown p i else [] := by
  simp only [Wire.awaiting, hf]

/-- A move of the flusher between places without a batch keeps the packets. -/
theorem datagrams_idle (hoffered : g'.offered = g.offered)
    (hshown : g'.shown p' p'.writeBatchIdx = g.shown p p.writeBatchIdx) (h : g.awaiting p = [])
    (h' : g'.awaiting p' = []) : g'.datagrams p' = g.datagrams p := by
  rw [Wire.datagrams, Wire.datagrams, hoffered, hshown, h, h']

/-- A `WriteBatch` of a flush offers what was to be offered. -/
theorem offered_offer (hf : p.flusher = .flushing i txN) :
    (g.offer p).offered = g.offered ++ g.awaiting p := by
  rw [offer_of_flushing hf, awaiting_flushing hf]
  cases g.fresh
  · exact (List.append_nil _).symm
  · rfl

/-- A `WriteBatch` of a flush leaves nothing to be offered. -/
theorem awaiting_offer (hf : p.flusher = .flushing i txN) :
    (g.offer p).awaiting p' = [] := by
  have hfresh : (g.offer p).fresh = false := by
    rw [offer_of_flushing hf]
    cases hg : g.fresh
    · exact hg
    · rfl
  unfold Wire.awaiting
  split
  · rw [hfresh]
    rfl
  · rfl

/-- Offering moves the batch that is to be offered behind the offered ones. -/
theorem datagrams_offer (hf : p.flusher = .flushing i txN)
    (hshown : g.shown p' p'.writeBatchIdx = g.shown p p.writeBatchIdx) :
    (g.offer p).datagrams p' = g.datagrams p := by
  have hslots : (g.offer p).shown p' p'.writeBatchIdx = g.shown p' p'.writeBatchIdx := by
    rw [Wire.shown, Wire.shown, offer_slots]
  rw [Wire.datagrams, Wire.datagrams, offered_offer hf, awaiting_offer hf, hslots, hshown,
    List.append_nil]

/-- A flush that ends has nothing left to offer. -/
theorem awaiting_flushed (h : g.Shows p) (hf : p.flusher = .flushing i txN)
    (hle : (p.batches i).writePos ≤ txN) : g.awaiting p = [] := by
  rw [awaiting_flushing hf]
  split
  next hfresh =>
    rw [h.first hf hfresh] at hle
    rw [Wire.shown, Nat.le_zero.mp hle]
    rfl
  · rfl

/-- At the end of a flush the write batch is as it was. -/
theorem shown_reset (hwf : Wf size p) (hf : p.flusher = .flushing i txN) :
    g.shown { p.setBatch i (p.batches i).reset with flusher := .flushed } p.writeBatchIdx =
      g.shown p p.writeBatchIdx := by
  unfold Wire.shown
  simp only [PingPong.setBatch, Function.update_of_ne (hwf.flushing_ne hf).symm]

/-- The slots show what the batcher has written. -/
theorem Wire.Shows.shown_eq (h : g.Shows p) (b : Bool) : g.shown p b = (p.batches b).written := by
  rw [Wire.shown, MessageBatch.written, h.slots b, List.map_take]

/-- A packet is not stored to the batch that is being flushed. -/
theorem awaiting_store (h : g.Shows p) (hwf : Wf size p) {i : Nat} (pos : WriterAt)
    (hmsg : p.current.messages[p.current.writePos]? = some msg) :
    (g.store p buf raddr).awaiting
        ((p.setBatch p.writeBatchIdx (p.current.store (msg.fill buf raddr))).moveWriter i pos) =
      g.awaiting p := by
  set p₁ := (p.setBatch p.writeBatchIdx (p.current.store (msg.fill buf raddr))).moveWriter i pos
  have h' : (g.store p buf raddr).Shows p₁ := h.store hwf pos hmsg
  have hfresh : (g.store p buf raddr).fresh = g.fresh := rfl
  have hbatch : ∀ j ≠ p.writeBatchIdx, p₁.batches j = p.batches j := fun j hj =>
    Function.update_of_ne hj _ _
  rcases hf : p.flusher with _ | _ | _ | ⟨j, txN⟩ | _ | _ | _ | _
  case flushing =>
    rw [awaiting_flushing (i := j) (g := g.store p buf raddr) (p := p₁) hf, awaiting_flushing hf,
      hfresh, h'.shown_eq, h.shown_eq, hbatch j (hwf.flushing_ne hf)]
  all_goals rw [awaiting_idle (p := p₁) (by rw [show p₁.flusher = _ from hf]; simp),
    awaiting_idle (by simp [hf])]

/-- A stored packet is the newest one. -/
theorem datagrams_store (h : g.Shows p) (hwf : Wf size p) {i : Nat} (pos : WriterAt)
    (hroom : p.current.isFull = false) (hmsg : p.current.messages[p.current.writePos]? = some msg) :
    (g.store p buf raddr).datagrams
        ((p.setBatch p.writeBatchIdx (p.current.store (msg.fill buf raddr))).moveWriter i pos) =
      g.datagrams p ++ [msg.fill buf raddr] := by
  set p₁ := (p.setBatch p.writeBatchIdx (p.current.store (msg.fill buf raddr))).moveWriter i pos
  have h' : (g.store p buf raddr).Shows p₁ := h.store hwf pos hmsg
  have hbatch : p₁.batches p.writeBatchIdx = p.current.store (msg.fill buf raddr) :=
    Function.update_self ..
  have hshown : (g.store p buf raddr).shown p₁ p₁.writeBatchIdx =
      g.shown p p.writeBatchIdx ++ [msg.fill buf raddr] := by
    calc
      _ = (p₁.batches p.writeBatchIdx).written := h'.shown_eq _
      _ = p.current.written ++ [msg.fill buf raddr] := by
        rw [hbatch]
        exact written_store _ ((hwf.sized p.writeBatchIdx).writePos_lt hroom)
      _ = _ := by rw [h.shown_eq, PingPong.current]
  have hawaiting : (g.store p buf raddr).awaiting p₁ = g.awaiting p := awaiting_store h hwf pos hmsg
  calc
    _ = g.offered ++ g.awaiting p ++ (g.shown p p.writeBatchIdx ++ [msg.fill buf raddr]) := by
      rw [Wire.datagrams, hawaiting, hshown]
      rfl
    _ = _ := by rw [Wire.datagrams, List.append_assoc _ _ [_]]

/-- A plain packet in its slot is the packet that was given. -/
theorem datagram_fill {i : Nat} (hplain : p.plain (.enqueue i) = true)
    (hw : p.writers[i]? = some ⟨buf, raddr, .trying⟩)
    (hmsg : p.current.messages[p.current.writePos]? = some msg) :
    (msg.fill buf raddr).datagram = (buf, raddr) := by
  have haddr : (msg.fill buf raddr).addr = raddr := by
    cases raddr with
    | some a => rfl
    | none =>
      simp only [PingPong.plain, hw, hmsg, Option.bind_some, Option.isNone_iff_eq_none] at hplain
      exact hplain
  rw [Message.datagram, payload_fill, haddr]

/-- A plain step appends the packet that it accepts, and loses, doubles or moves nothing. -/
theorem datagrams_step (h : g.Shows p) (hwf : Wf size p) (hplain : p.plain e = true)
    (hstep : p.step e = some (p', o)) :
    ((g.record p e).datagrams p').map Message.datagram =
      (g.datagrams p).map Message.datagram ++ o.message := by
  have hkeep : ∀ g' : Wire α, o.message = [] → g'.datagrams p' = g.datagrams p →
      (g'.datagrams p').map Message.datagram =
        (g.datagrams p).map Message.datagram ++ o.message := by
    intro g' ho he
    rw [ho, he, List.append_nil]
  have ht := step_transition hstep
  unfold Wire.record
  rw [hstep]
  cases ht with
  | stutter | call | skip | wait | wake | check | signal | closeStore | closeSignal | closeReturn =>
    exact hkeep g rfl rfl
  | @accept i buf raddr msg hw hbuf hfree hroom hmsg =>
    change ((g.store p buf raddr).datagrams _).map _ = _
    rw [datagrams_store h hwf _ hroom hmsg, List.map_append, List.map_singleton,
      datagram_fill hplain hw hmsg]
    rfl
  | exit hf | park hf | ready hf | unswapped hf | updateRead hf | unread hf | release hf
  | finish hf =>
    apply hkeep _ rfl
    exact datagrams_idle rfl rfl (awaiting_idle (by simp [hf])) (awaiting_idle (by simp))
  | @tick elapsed hf =>
    apply hkeep g rfl
    refine datagrams_idle rfl rfl (awaiting_idle (by simp [hf])) (awaiting_idle ?_)
    cases elapsed <;> simp
  | swap hf hi hp =>
    apply hkeep { g with fresh := true } rfl
    -- the write batch becomes the batch to offer, and an empty one takes its place
    have hspare : (p.batches (!p.writeBatchIdx)).writePos = 0 :=
      hwf.spare _ (by simp) (by simp [hf])
    simp only [Wire.datagrams, awaiting_idle (g := g) (p := p) (by simp [hf])]
    simp only [Wire.awaiting, Wire.shown, if_true, hspare, ← hi, List.take_zero, List.map_nil,
      List.append_nil]
  | writeError hf hlt => exact hkeep (g.offer p) rfl (datagrams_offer hf (shown_reset hwf hf))
  | writeBatch hf hlt => exact hkeep (g.offer p) rfl (datagrams_offer hf rfl)
  | flushed hf hle =>
    apply hkeep g rfl
    exact datagrams_idle rfl (shown_reset hwf hf) (awaiting_flushed h hf hle)
      (awaiting_idle (by simp))

/-- The batcher with its slots. -/
abbrev slotStep : PingPong α × Wire α → Event α → Option ((PingPong α × Wire α) × Outcome α) :=
  observe PingPong.step Wire.record

/-- In a plain run the packets offered, to be offered and in the write batch are the accepted ones,
in their order. -/
theorem datagrams_run {es : List (Event α)} {os : List (Outcome α)} (h : g.Shows p)
    (hwf : Wf size p) (hplain : Along PingPong.step (fun p e => p.plain e = true) p es)
    (hrun : run slotStep (p, g) es = some ((p', g'), os)) :
    g'.Shows p' ∧ (g'.datagrams p').map Message.datagram =
      (g.datagrams p).map Message.datagram ++ acceptances os := by
  induction es generalizing p g os with
  | nil =>
    cases hrun
    exact ⟨h, (List.append_nil _).symm⟩
  | cons e es ih =>
    obtain ⟨⟨p₁, g₁⟩, o, os', hobs, hrest, rfl⟩ := run_cons_inv hrun
    obtain ⟨⟨p₂, o'⟩, hstep, he⟩ := Option.map_eq_some_iff.mp hobs
    cases he
    obtain ⟨hplain₁, hplain⟩ := along_cons hplain hstep
    obtain ⟨hshows, hpackets⟩ :=
      ih (h.step hwf hstep) (hwf.step (step_transition hstep)) hplain hrest
    refine ⟨hshows, ?_⟩
    rw [hpackets, datagrams_step h hwf hplain₁ hstep, List.append_assoc]
    rfl

end Wire

end PionTransport.Udp.Batch
