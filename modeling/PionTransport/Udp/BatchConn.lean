import PionTransport.Core.Potential
import PionTransport.Udp.Slots

/-!
# Writing through a batch connection

`WriteTo` of a `BatchConn` passes a packet on at once, or leaves it to the batcher.
As long as nobody calls `Close`, a batching connection offers to its socket what one
that does not batch passes on: every packet is offered, in the order of acceptance,
after a bounded number of steps of the flusher.
-/

namespace PionTransport.Udp.Batch

open PionTransport.Core

variable {α : Type}

/-- `BatchConn`: without a `batchConn`, with the packets passed to `PacketConn.WriteTo`, or with the
batcher and its slots. -/
inductive BatchConn (α : Type)
  | single (passed : List (List UInt8 × Option α))
  | batching (p : PingPong α) (g : Wire α)

/-- `NewBatchConn`, with whether the platform writes batches. -/
def newBatchConn (linux : Bool) (size : Nat) : BatchConn α :=
  if linux then .batching (newPingPong size) (Wire.new size) else .single []

namespace BatchConn

/-- `WriteTo`; on the batching path up to the lock of `EnqueueMessage`. -/
def writeTo : BatchConn α → List UInt8 → Option α → Option (BatchConn α × Outcome α)
  | .single passed, b, addr => some (.single (passed ++ [(b, addr)]), .moved)
  | .batching p g, b, addr => (p.call b addr).map fun r => (.batching r.1 g, r.2)

/-- A call of `WriteTo`, or a step of a call or of the flusher. -/
def step : BatchConn α → Event α → Option (BatchConn α × Outcome α)
  | c, .call b addr => c.writeTo b addr
  | .single passed, _ => some (.single passed, .blocked)
  | .batching p g, e => (slotStep (p, g) e).map fun r => (.batching r.1.1 r.1.2, r.2)

/-- The packets that the socket was given, by `PacketConn.WriteTo` or by `WriteBatch`. -/
def datagrams : BatchConn α → List (List UInt8 × Option α)
  | .single passed => passed
  | .batching _ g => g.offered.map Message.datagram

end BatchConn

/-- Calls of `WriteTo` for some packets. -/
def writes (packets : List (List UInt8 × Option α)) : List (Event α) :=
  packets.map fun packet => .call packet.1 packet.2

section Writing

variable {size : Nat} {p p' : PingPong α} {g g' : Wire α} {e : Event α} {o : Outcome α}

/-- The call has returned, or returns after its send to `writeReady`, with the length of its
packet. -/
def Succeeded (p : PingPong α) (i : Nat) (buf : List UInt8) (raddr : Option α) : Prop :=
  ∃ pos, p.writers[i]? = some ⟨buf, raddr, pos⟩ ∧ pos.answers buf.length = true

/-- Nobody has called `Close`, no call has an empty packet, and a call that has its result has the
length of its packet. -/
structure Settled (p : PingPong α) : Prop where
  opened : p.closed = false
  results : ∀ w ∈ p.writers, w.buf ≠ [] ∧ ∀ n, w.pos.answers n = true → n = w.buf.length

variable {i n : Nat}

theorem Settled.moveWriter (h : Settled p) {w : Writer α} {pos : WriterAt}
    (hw : p.writers[i]? = some w) (hpos : ∀ n, pos.answers n = true → n = w.buf.length)
    (hclosed : p'.closed = p.closed) (hwriters : p'.writers = (p.moveWriter i pos).writers) :
    Settled p' := by
  refine ⟨hclosed.trans h.opened, fun w' hw' => ?_⟩
  rw [hwriters] at hw'
  obtain ⟨k, hk⟩ := List.mem_iff_getElem?.mp hw'
  obtain ⟨w₀, hw₀, rfl⟩ := getElem?_modify_iff.mp hk
  split
  next hik =>
    subst hik
    obtain rfl : w = w₀ := Option.some.inj (hw.symm.trans hw₀)
    exact ⟨(h.results w (List.mem_of_getElem? hw)).1, hpos⟩
  · exact h.results w₀ (List.mem_of_getElem? hw₀)

/-- A plain step settles at most the call that it moves, with the length of its packet. -/
theorem Settled.step (h : Settled p) (hplain : p.plain e = true) (ht : Transition p e p' o) :
    Settled p' := by
  cases ht with
  | call =>
    refine ⟨h.opened, fun w hw => ?_⟩
    rcases List.mem_append.mp hw with hw | hw
    · exact h.results w hw
    · rw [List.mem_singleton.mp hw]
      exact ⟨by simpa [PingPong.plain] using hplain, fun n hn => by cases hn⟩
  | accept hw =>
    refine h.moveWriter hw (fun n hn => ?_) rfl rfl
    unfold PingPong.leave at hn
    split at hn <;> exact (of_decide_eq_true hn).symm
  | skip hw => exact absurd rfl (h.results _ (List.mem_of_getElem? hw)).1
  | wait hw | wake hw => exact h.moveWriter hw (fun n hn => by cases hn) rfl rfl
  | check hw =>
    rw [h.opened]
    exact h.moveWriter hw (fun n hn => by cases hn) rfl rfl
  | signal hw =>
    refine h.moveWriter hw (fun n hn => ?_) rfl rfl
    exact (h.results _ (List.mem_of_getElem? hw)).2 n hn
  | closeStore => cases hplain
  | _ => exact ⟨h.opened, h.results⟩

variable {es : List (Event α)} {os : List (Outcome α)}

theorem Settled.run (h : Settled p)
    (hplain : Along PingPong.step (fun p e => p.plain e = true) p es)
    (hrun : run PingPong.step p es = some (p', os)) : Settled p' :=
  keeps_along (fun h hplain hstep => h.step hplain (step_transition hstep)) h hplain hrun

/-- The call whose packet a step accepts. -/
def Outcome.call? : Outcome α → Option Nat
  | .accepted i _ _ => some i
  | .blocked | .moved => none

/-- A call that has its answer is not accepted again. -/
theorem Answered.call_ne {buf : List UInt8} {raddr : Option α} (h : Answered p i buf raddr)
    (ht : Transition p e p' o) : o.call? ≠ some i := by
  obtain ⟨-, pos, hpos, hans⟩ := h
  cases ht with
  | accept hw =>
    rintro he
    cases he
    rw [hpos] at hw
    cases hw
    cases hans
  | _ => exact fun he => by cases he

/-- No packet is accepted twice, or after its call has its answer. -/
theorem accepted_once (hrun : run PingPong.step p es = some (p', os)) :
    (os.filterMap Outcome.call?).Nodup ∧
      ∀ i ∈ os.filterMap Outcome.call?, ∀ buf raddr, ¬ Answered p i buf raddr := by
  induction hrun using run_induct with
  | nil => exact ⟨List.nodup_nil, by simp⟩
  | @cons p _ p₁ o _ os' hstep _ ih =>
    obtain ⟨hnodup, hfresh⟩ := ih
    have ht := step_transition hstep
    have hlater : ∀ i ∈ os'.filterMap Outcome.call?, ∀ buf raddr, ¬ Answered p i buf raddr :=
      fun i hi buf raddr hans => hfresh i hi buf raddr ((answered_step ht).mpr (.inl hans))
    cases o with
    | blocked | moved => exact ⟨hnodup, hlater⟩
    | accepted j b a =>
      have hans : Answered p₁ j b a := (answered_step ht).mpr (.inr rfl)
      refine ⟨List.nodup_cons.mpr ⟨fun hj => hfresh j hj b a hans, hnodup⟩, ?_⟩
      intro i hi buf raddr hp
      rcases List.mem_cons.mp hi with rfl | hi
      · exact hp.call_ne ht rfl
      · exact hlater i hi buf raddr hp

/-- The steps by which the flusher gets on with a batch: a receive that ends its wait, the swap, a
`WriteBatch` that fails or takes messages, and the end of a flush. -/
def Event.advances : Event α → Bool
  | .tick elapsed => elapsed
  | .writeBatch r => r ≠ some 0
  | .ready | .swap | .flushed | .updateRead => true
  | _ => false

/-- The flusher got on with a batch. -/
def advanced (e : Event α) : Outcome α → Bool
  | .moved => e.advances
  | .blocked | .accepted .. => false

/-- How many steps the flusher is away from having offered the first `n` packets. -/
def distance (n : Nat) (pg : PingPong α × Wire α) : Nat :=
  match pg.1.flusher with
  | .flushing i txN =>
    if n ≤ (pg.2.offered ++ pg.2.awaiting pg.1).length then 1
    else 5 + ((pg.1.batches i).writePos - txN)
  | .flushed => 4
  | .looping | .selecting => 3
  | .awake => 2
  | .exiting | .released | .ended => 0

/-- Nobody has called `Close`, and at least `n` packets were accepted. -/
structure Draining (size n : Nat) (pg : PingPong α × Wire α) : Prop where
  wf : Wf size pg.1
  shows : pg.2.Shows pg.1
  opened : pg.1.closed = false
  accepted : n ≤ (pg.2.datagrams pg.1).length

theorem distance_le (h : Wf size p) : distance n (p, g) ≤ size + 5 := by
  unfold distance
  split
  next i txN hf =>
    have hfits := (h.sized i).fits
    dsimp only
    split <;> omega
  all_goals omega

/-- What is offered stays offered. -/
theorem offered_record (hstep : p.step e = some (p', o)) :
    g.offered <+: (g.record p e).offered := by
  have ht := step_transition hstep
  unfold Wire.record
  rw [hstep]
  cases ht with
  | writeError hf | writeBatch hf =>
    change _ <+: (g.offer p).offered
    rw [offered_offer hf]
    exact List.prefix_append ..
  | _ => exact List.prefix_rfl

theorem distance_flushing {i : Bool} {txN : Nat} (hf : p.flusher = .flushing i txN) :
    distance n (p, g) = if n ≤ (g.offered ++ g.awaiting p).length then 1
      else 5 + ((p.batches i).writePos - txN) := by
  simp only [distance, hf]

/-- A packet goes to a batch that is not being flushed. -/
theorem distance_store (h : g.Shows p) (hwf : Wf size p) {buf : List UInt8} {raddr : Option α}
    {msg : Message α} (pos : WriterAt) (hmsg : p.current.messages[p.current.writePos]? = some msg) :
    distance n
        ((p.setBatch p.writeBatchIdx (p.current.store (msg.fill buf raddr))).moveWriter i pos,
          g.store p buf raddr) = distance n (p, g) := by
  set p₁ := (p.setBatch p.writeBatchIdx (p.current.store (msg.fill buf raddr))).moveWriter i pos
  have hflusher : p₁.flusher = p.flusher := rfl
  rcases hf : p.flusher with _ | _ | _ | ⟨j, txN⟩ | _ | _ | _ | _
  case flushing =>
    have hbatch : p₁.batches j = p.batches j := Function.update_of_ne (hwf.flushing_ne hf) _ _
    rw [distance_flushing (hflusher.trans hf), distance_flushing hf, awaiting_store h hwf pos hmsg,
      hbatch]
    rfl
  all_goals simp only [distance, hflusher, hf]

/-- As long as nobody calls `Close`, every step of the flusher that gets on with a batch brings it
nearer to having offered the first `n` packets, and no other step takes it away. -/
theorem Draining.step (h : Draining size n (p, g)) (hplain : p.plain e = true)
    (hstep : p.step e = some (p', o)) :
    Draining size n (p', g.record p e) ∧ (n ≤ (g.record p e).offered.length ∨
      (if advanced e o then 1 else 0) + distance n (p', g.record p e) ≤ distance n (p, g)) := by
  obtain ⟨hwf, hshows, hopened, haccepted⟩ := h
  dsimp only at hwf hshows hopened haccepted
  have ht := step_transition hstep
  have hopened' : p'.closed = false := by
    cases ht with
    | closeStore => cases hplain
    | _ => exact hopened
  have haccepted' : n ≤ ((g.record p e).datagrams p').length := by
    have hlen := congrArg List.length (datagrams_step hshows hwf hplain hstep)
    rw [List.length_map, List.length_append, List.length_map] at hlen
    omega
  refine ⟨⟨hwf.step ht, hshows.step hwf hstep, hopened', haccepted'⟩, ?_⟩
  unfold Wire.record at haccepted' ⊢
  rw [hstep] at haccepted' ⊢
  cases ht with
  | stutter | call | skip | wait | wake | check | signal | closeStore | closeSignal | closeReturn =>
    exact .inr (Nat.le_of_eq (Nat.zero_add (distance n (p, g))))
  | accept hw hbuf hfree hroom hmsg =>
    refine .inr ?_
    rw [distance_store hshows hwf _ hmsg]
    simp [advanced]
  | exit hf hclosed => simp [hopened] at hclosed
  | unswapped hf hswapped => simp [hwf.awake hf] at hswapped
  | @tick elapsed hf =>
    cases elapsed <;> exact .inr (by simp [advanced, Event.advances, distance, hf])
  | park hf | ready hf | updateRead hf | unread hf | release hf | finish hf =>
    exact .inr (by simp [advanced, Event.advances, distance, hf])
  | swap hf hidx hpending =>
    -- the batch that takes the place of the write batch is empty
    have hspare : (p.batches (!p.writeBatchIdx)).writePos = 0 :=
      hwf.spare _ (by simp) (by simp [hf])
    simp only [Wire.datagrams, Wire.shown, hspare, List.take_zero, List.map_nil,
      List.append_nil] at haccepted'
    refine .inr ?_
    rw [distance_flushing rfl, if_pos haccepted']
    simp [advanced, Event.advances, distance, hf]
  | @writeError i txN hf hlt =>
    change n ≤ (g.offer p).offered.length ∨ _
    rw [offered_offer hf, distance_flushing hf]
    by_cases hcovered : n ≤ (g.offered ++ g.awaiting p).length
    · exact .inl hcovered
    · refine .inr ?_
      rw [if_neg hcovered]
      exact (by omega : 1 + 4 ≤ 5 + ((p.batches i).writePos - txN))
  | @writeBatch i txN k hf hlt =>
    change n ≤ (g.offer p).offered.length ∨ _ + distance n (_, g.offer p) ≤ _
    rw [offered_offer hf, distance_flushing hf, distance_flushing rfl, offered_offer hf,
      awaiting_offer hf, List.append_nil]
    by_cases hcovered : n ≤ (g.offered ++ g.awaiting p).length
    · exact .inl hcovered
    · refine .inr ?_
      rw [if_neg hcovered, if_neg hcovered]
      cases k with
      | zero => exact Nat.le_of_eq (Nat.zero_add _)
      | succ k =>
        exact (by omega : 1 + (5 + ((p.batches i).writePos - (txN + (k + 1)))) ≤
          5 + ((p.batches i).writePos - txN))
  | @flushed i txN hf hle =>
    rw [distance_flushing hf, awaiting_flushed hshows hf hle, List.append_nil]
    by_cases hcovered : n ≤ g.offered.length
    · exact .inl hcovered
    · refine .inr ?_
      rw [if_neg hcovered]
      exact (by omega : 1 + 4 ≤ 5 + ((p.batches i).writePos - txN))

/-- As long as nobody calls `Close`, the flusher has a step to take. -/
theorem flusher_proceeds (h : Wf size p) (hopened : p.closed = false) :
    ∃ e, (p.step e).map Prod.snd = some .moved ∧ (e.advances = true ∨ e = .loop) := by
  have hleft := h.opened hopened
  rcases hf : p.flusher with _ | _ | _ | ⟨i, txN⟩ | _ | _ | _ | _
  · exact ⟨.loop, by simp [PingPong.step, PingPong.loop, hf], .inr rfl⟩
  · exact ⟨.tick true, by simp [PingPong.step, PingPong.tick, hf], .inl rfl⟩
  · obtain ⟨hindex, hpending⟩ := h.awake hf
    have hswapped : p.swappedClosed = false :=
      eq_false_of_ne_true fun hs => by simpa [hf] using h.swapped hs
    refine ⟨.swap, ?_, .inl rfl⟩
    simp [PingPong.step, PingPong.swap, hf, hindex, hpending, hswapped]
  · by_cases hlt : txN < (p.batches i).writePos
    · exact ⟨.writeBatch none, by simp [PingPong.step, PingPong.writeBatch, hf, hlt], .inl rfl⟩
    · exact ⟨.flushed, by simp [PingPong.step, PingPong.finishFlush, hf, hlt], .inl rfl⟩
  · have hpending : p.flushPending = true := by
      rw [h.pending, hf]
      rfl
    refine ⟨.updateRead, ?_, .inl rfl⟩
    simp [PingPong.step, PingPong.updateReadBatch, hf, hpending]
  all_goals simp [hf, Flusher.left] at hleft

/-- As long as nobody calls `Close`, the first `n` packets have been offered by the time that the
flusher has taken enough of the steps that get on with a batch. -/
theorem Draining.run (h : Draining size n (p, g))
    (hplain : Along PingPong.step (fun p e => p.plain e = true) p es)
    (hrun : run slotStep (p, g) es = some ((p', g'), os))
    (henough : size + 6 ≤ counted advanced es os) : n ≤ g'.offered.length := by
  have hle : distance n (p, g) ≤ size + 5 := distance_le h.wf
  have hreach := reaches_of_potential (I := Draining size n)
    (G := fun pg => n ≤ pg.2.offered.length) (P := fun pg e => pg.1.plain e = true) advanced
    (distance n) (fun {pg e pg' o} h hplain hobs => ?_) h (hplain.observe Wire.record g) hrun
  · exact hreach.2.2.resolve_right (by omega)
  obtain ⟨⟨p₁, o₁⟩, hstep, he⟩ := Option.map_eq_some_iff.mp hobs
  cases he
  obtain ⟨h', hnear⟩ := h.step hplain hstep
  exact ⟨h', fun hG => Nat.le_trans hG (offered_record hstep).length_le, hnear⟩

end Writing

section Connections

variable {p : PingPong α} {g : Wire α}

/-- A batching connection does what the batcher does. -/
theorem step_batching (p : PingPong α) (g : Wire α) (e : Event α) :
    (BatchConn.batching p g).step e =
      (slotStep (p, g) e).map fun r => (.batching r.1.1 r.1.2, r.2) := by
  cases e <;> rfl

theorem run_batching (pg : PingPong α × Wire α) (es : List (Event α)) :
    run BatchConn.step (.batching pg.1 pg.2) es =
      (run slotStep pg es).map fun r => (.batching r.1.1 r.1.2, r.2) := by
  have hmap : run BatchConn.step (.batching pg.1 pg.2) (es.map id) =
      (run slotStep pg es).map (Prod.map (fun pg => .batching pg.1 pg.2) (List.map id)) :=
    run_map (f := fun pg => BatchConn.batching pg.1 pg.2) (P := fun _ _ => True)
      (fun pg e _ => step_batching pg.1 pg.2 e) (along_of_forall (fun _ _ => trivial) pg es)
  rw [List.map_id, List.map_id_fun] at hmap
  exact hmap

/-- What a connection that does not batch passes on for some calls of `WriteTo`, one after the
other. -/
def plainPath (size : Nat) (packets : List (List UInt8 × Option α)) :
    List (List UInt8 × Option α) :=
  ((run BatchConn.step (newBatchConn false size) (writes packets)).map
    fun r => r.1.datagrams).getD []

theorem plainPath_eq (size : Nat) (packets : List (List UInt8 × Option α)) :
    plainPath size packets = packets := by
  have hrun : ∀ passed, ∃ os, run BatchConn.step (.single passed) (writes packets) =
      some (.single (passed ++ packets), os) := by
    induction packets with
    | nil => exact fun passed => ⟨[], by simp [writes]⟩
    | cons packet packets ih =>
      intro passed
      obtain ⟨os, hrest⟩ := ih (passed ++ [packet])
      refine ⟨.moved :: os, ?_⟩
      have hstep : (BatchConn.single passed).step (.call packet.1 packet.2) =
        some (.single (passed ++ [packet]), .moved) := rfl
      rw [writes, List.map_cons, run_cons hstep, ← writes, hrest, List.append_assoc]
      rfl
  obtain ⟨os, hrun⟩ := hrun []
  rw [plainPath, newBatchConn, if_neg Bool.false_ne_true, hrun]
  rfl

/-- In every run without empty packets in which a packet without an address goes to a slot without
one and nobody calls `Close`: what a batching connection offered to `WriteBatch`, is about to offer
and still holds are the packets of the calls that report success, each once, in the order of
acceptance, with exactly the bytes and the address given; every call that returns reports success;
as long as a flush lasts it offers the rest of what it offered first; and the flusher has a step to
take. However such a run goes on, what is offered is what a connection that does not batch passes
on for the same calls, from the first one on, and after a number of steps of the flusher that
depends on the size of a batch only, it includes every packet accepted so far. -/
theorem batched_as_plain (size : Nat) (es : List (Event α))
    (hplain : Along PingPong.step (fun p e => p.plain e = true) (newPingPong size) es) :
    ∃ p g os, run BatchConn.step (newBatchConn true size) es = some (.batching p g, os) ∧
      (g.offered ++ g.awaiting p ++ g.shown p p.writeBatchIdx).map Message.datagram =
        acceptances os ∧
      (os.filterMap Outcome.call?).Nodup ∧
      (∀ i buf raddr, .accepted i buf raddr ∈ os ↔ Succeeded p i buf raddr) ∧
      (∀ w ∈ p.writers, ∀ n, w.pos.answers n = true → n = w.buf.length) ∧
      (∀ i txN, p.flusher = .flushing i txN → g.fresh = false →
        ∃ before, g.offered = before ++ g.shown p i ∧
          (p.batches i).offered txN = (g.shown p i).drop txN) ∧
      (∃ e, (p.step e).map Prod.snd = some .moved ∧ (e.advances = true ∨ e = .loop)) ∧
      ∀ es', Along PingPong.step (fun p e => p.plain e = true) p es' →
        ∃ c os', run BatchConn.step (.batching p g) es' = some (c, os') ∧
          c.datagrams <+: plainPath size (acceptances (os ++ os')) ∧
          (size + 6 ≤ counted advanced es' os' →
            plainPath size (acceptances os) <+: c.datagrams) := by
  have hnew : Wf size (newPingPong size : PingPong α) := Wf.new
  obtain ⟨p, os, hrun, hwf⟩ := hnew.run es
  obtain ⟨g, hslots⟩ := observe_of_run Wire.record hrun (Wire.new size)
  obtain ⟨hshows, hpackets⟩ := datagrams_run shows_new hnew hplain hslots
  replace hpackets : (g.datagrams p).map Message.datagram = acceptances os := hpackets
  have hsettled : Settled p := Settled.run ⟨rfl, by simp [newPingPong]⟩ hplain hrun
  have hconn : run BatchConn.step (newBatchConn true size) es = some (.batching p g, os) := by
    rw [newBatchConn, if_pos rfl, run_batching (newPingPong size, Wire.new size), hslots]
    rfl
  refine ⟨p, g, os, hconn, hpackets, (accepted_once hrun).1, fun i buf raddr => ?_,
    fun w hw => (hsettled.results w hw).2, fun i txN hf hfresh => ?_,
    flusher_proceeds hwf hsettled.opened, fun es' hplain' => ?_⟩
  · rw [accepted_iff_answered hrun]
    constructor
    · rintro ⟨-, hreturns⟩
      exact hreturns
    · rintro ⟨pos, hw, hans⟩
      exact ⟨(hsettled.results _ (List.mem_of_getElem? hw)).1, pos, hw, hans⟩
  · obtain ⟨before, hbefore⟩ := hshows.rest hf hfresh
    refine ⟨before, hbefore, ?_⟩
    rw [hshows.shown_eq]
    rfl
  · obtain ⟨p', os', hrun', -⟩ := hwf.run es'
    obtain ⟨g', hslots'⟩ := observe_of_run Wire.record hrun' g
    obtain ⟨-, hpackets'⟩ := datagrams_run hshows hwf hplain' hslots'
    rw [hpackets] at hpackets'
    have hacceptances : acceptances (os ++ os') = acceptances os ++ acceptances os' :=
      List.flatMap_append
    have hoffered : g'.offered.map Message.datagram <+: acceptances (os ++ os') := by
      rw [hacceptances, ← hpackets', Wire.datagrams, List.append_assoc, List.map_append]
      exact List.prefix_append ..
    refine ⟨.batching p' g', os', ?_, ?_, fun henough => ?_⟩
    · rw [run_batching (p, g), hslots']
      rfl
    · rwa [plainPath_eq]
    · rw [plainPath_eq]
      have hlen : (acceptances os).length = (g.datagrams p).length := by
        rw [← hpackets, List.length_map]
      have hdrained := Draining.run (n := (acceptances os).length)
        ⟨hwf, hshows, hsettled.opened, Nat.le_of_eq hlen⟩ hplain' hslots' henough
      have hfirst : acceptances os <+: acceptances (os ++ os') := by
        rw [hacceptances]
        exact List.prefix_append ..
      refine List.prefix_of_prefix_length_le hfirst hoffered ?_
      rw [BatchConn.datagrams, List.length_map]
      exact hdrained

/-- One packet is written and flushed by itself. -/
def writeAndFlush (i : Nat) (buf : List UInt8) (raddr : Option Nat) : List (Event Nat) :=
  [.call buf raddr, .enqueue i, .signal i, .loop, .ready, .swap, .writeBatch (some 1), .flushed,
    .updateRead]

/-- Three packets through batches of one slot: the third reuses the slot of the first, which held
more bytes, and is offered by the time that the flusher has taken seven steps. -/
theorem batched_as_plain_reused : ∃ p g os, run BatchConn.step (newBatchConn true 1)
      (writeAndFlush 0 [1, 2, 3] (some 7) ++ writeAndFlush 1 [4] (some 8) ++
        [.call [5] (some 9), .enqueue 2]) = some (.batching p g, os) ∧
    (g.offered ++ g.awaiting p ++ g.shown p p.writeBatchIdx).map Message.datagram =
      acceptances os ∧
    ∀ es', Along PingPong.step (fun p e => p.plain e = true) p es' →
      ∃ c os', run BatchConn.step (.batching p g) es' = some (c, os') ∧
        (7 ≤ counted advanced es' os' → plainPath 1 (acceptances os) <+: c.datagrams) := by
  obtain ⟨p, g, os, hrun, hpackets, -, -, -, -, -, hdrain⟩ := batched_as_plain 1
    (writeAndFlush 0 [1, 2, 3] (some 7) ++ writeAndFlush 1 [4] (some 8) ++
      [.call [5] (some 9), .enqueue 2]) (by decide +kernel)
  refine ⟨p, g, os, hrun, hpackets, fun es' hplain => ?_⟩
  obtain ⟨c, os', hrun', -, hoffered⟩ := hdrain es' hplain
  exact ⟨c, os', hrun', hoffered⟩

/-- A packet without an address is offered with the address that its slot had before; an empty
packet is not offered at all, and its call returns zero, its length. -/
theorem slot_keeps_address :
    (run slotStep (newPingPong 1, Wire.new 1)
      (writeAndFlush 0 [1, 2, 3] (some 7) ++ writeAndFlush 1 [4] (some 8) ++
        writeAndFlush 2 [5] none ++ [.call [] (some 9), .enqueue 3])).map
      (fun r => (r.1.2.datagrams r.1.1).map Message.datagram) =
        some [([1, 2, 3], some 7), ([4], some 8), ([5], some 7)] ∧
    (run slotStep (newPingPong 1, Wire.new 1)
      (writeAndFlush 0 [1, 2, 3] (some 7) ++ writeAndFlush 1 [4] (some 8) ++
        writeAndFlush 2 [5] none ++ [.call [] (some 9), .enqueue 3])).map
      (fun r => r.1.1.writers) =
        some [⟨[1, 2, 3], some 7, .returned 3⟩, ⟨[4], some 8, .returned 1⟩,
          ⟨[5], none, .returned 1⟩, ⟨[], some 9, .returned 0⟩] := by
  decide +kernel

end Connections

end PionTransport.Udp.Batch
