import Mathlib.Data.List.Forall2
import PionTransport.Deadlines.Invariant
import PionTransport.Dpipe.Pipe

/-!
# What becomes of a datagram

Every datagram whose `Write` has succeeded leaves the channel in its turn: a `Read` at
the other end receives it, cut to the buffer of the reader, or a `Write` at its own end
that finds the deadline exceeded throws it away. So the datagrams received and those
still in the channel are the ones written if and only if none was thrown away. A `Write`
that returns an error has sent nothing, and one that finds its end closed has thrown
nothing away.
-/

namespace PionTransport.Dpipe

open PionTransport.Core Deadlines

/-- A buffer of which so many bytes were filled holds what fits of a datagram. -/
def Truncated (d data : List UInt8) (n : Nat) : Prop :=
  n = min d.length data.length ∧ data.take n = d.take data.length

/-- A reader gets the datagram, cut to the length of its buffer. -/
theorem fill_truncated (data d : List UInt8) :
    ∃ data' n, fill data d = some (data', n) ∧ data'.length = data.length ∧
      Truncated d data' n := by
  unfold fill
  by_cases hfits : d.length ≤ data.length
  · rw [if_pos hfits, copyRange?_fits data d 0 data.length (by omega) (Nat.le_refl _)]
    have hlength : (data.take 0 ++ d ++ data.drop (0 + d.length)).length = data.length := by
      rw [List.take_zero, List.nil_append, List.length_append, List.length_drop]
      omega
    refine ⟨_, _, rfl, hlength, ?_, ?_⟩
    · rw [hlength, Nat.min_eq_left hfits]
    · rw [hlength, List.take_of_length_le hfits, List.take_zero, List.nil_append, List.take_left]
  · have hfront : (d.take data.length).length = data.length := by
      rw [List.length_take]
      omega
    rw [if_neg hfits, slice?_take (by omega), Option.bind_eq_bind, Option.bind_some,
      copyRange?_fits data _ 0 data.length (by omega) (Nat.le_refl _)]
    have hall : data.take 0 ++ d.take data.length ++ data.drop (0 + (d.take data.length).length) =
        d.take data.length := by
      rw [hfront, Nat.zero_add, List.drop_length, List.append_nil, List.take_zero, List.nil_append]
    refine ⟨_, _, rfl, ?_, ?_, ?_⟩
    · rw [hall, hfront]
    · rw [hall, hfront, Nat.min_eq_right (by omega)]
    · rw [hall, hfront, List.take_of_length_le (Nat.le_of_eq hfront)]

theorem Side.other_other (r : Side) : r.other.other = r := by
  cases r <;> rfl

/-- The datagrams written to an end with success. -/
def written (r : Side) : List Outcome → List (List UInt8) :=
  List.filterMap fun
    | .sent _ side data => if side = r.other then some data else none
    | _ => none

/-- The buffers that calls of `Read` have filled at an end. -/
def received (r : Side) : List Outcome → List (List UInt8 × Nat) :=
  List.filterMap fun
    | .received _ side data n => if side = r then some (data, n) else none
    | _ => none

/-- The datagrams to an end that were thrown away. -/
def discarded (r : Side) : List Outcome → List (List UInt8) :=
  List.filterMap fun
    | .discarded _ side d => if side = r.other then some d else none
    | _ => none

/-- The call that has put a datagram into a channel or has taken one out. -/
def Outcome.actor : Outcome → Option Nat
  | sent i _ _ | received i _ _ _ | discarded i _ _ => some i
  | _ => none

/-- What a call has done to the channels. -/
def doings (i : Nat) (os : List Outcome) : List Outcome := os.filter (·.actor = some i)

/-- A datagram that has left its channel, and the buffer it was received in, if it was. -/
structure Taken where
  datagram : List UInt8
  buffer : Option (List UInt8 × Nat)

/-- The datagrams written to an end are those that have left the channel, received or thrown away,
and then those still in it. -/
def Accounted (r : Side) (ch : List (List UInt8)) (os : List Outcome) : Prop :=
  ∃ taken : List Taken, written r os = taken.map (·.datagram) ++ ch ∧
    received r os = taken.filterMap (·.buffer) ∧
    discarded r os = (taken.filter (·.buffer.isNone)).map (·.datagram) ∧
    ∀ t ∈ taken, ∀ b, t.buffer = some b → Truncated t.datagram b.1 b.2

/-- The datagrams written to an end are those received, each cut to its buffer, and then those still
in the channel. -/
def Delivered (r : Side) (ch : List (List UInt8)) (os : List Outcome) : Prop :=
  ∃ front, written r os = front ++ ch ∧
    List.Forall₂ (fun d b => Truncated d b.1 b.2) front (received r os)

section Flow

variable {r : Side} {o : Outcome} {ch ch' : List (List UInt8)} {os : List Outcome}
  {taken : List Taken}

/-- What an outcome says of the channel to an end. -/
inductive Flow (r : Side) : List (List UInt8) → Outcome → List (List UInt8) → Prop
  | idle {ch : List (List UInt8)} {o : Outcome} (hw : written r [o] = []) (hr : received r [o] = [])
      (hd : discarded r [o] = []) : Flow r ch o ch
  | sent {ch : List (List UInt8)} {i : Nat} {data : List UInt8} :
      Flow r ch (.sent i r.other data) (ch ++ [data])
  | received {ch : List (List UInt8)} {i n : Nat} {d data : List UInt8} (h : Truncated d data n) :
      Flow r (d :: ch) (.received i r data n) ch
  | discarded {ch : List (List UInt8)} {i : Nat} {d : List UInt8} :
      Flow r (d :: ch) (.discarded i r.other d) ch

theorem written_snoc (os : List Outcome) (o : Outcome) :
    written r (os ++ [o]) = written r os ++ written r [o] := List.filterMap_append

theorem received_snoc (os : List Outcome) (o : Outcome) :
    received r (os ++ [o]) = received r os ++ received r [o] := List.filterMap_append

theorem discarded_snoc (os : List Outcome) (o : Outcome) :
    discarded r (os ++ [o]) = discarded r os ++ discarded r [o] := List.filterMap_append

/-- One more datagram is taken. -/
theorem Accounted.take {t : Taken} (h : Accounted r (t.datagram :: ch) os)
    (hw : written r [o] = []) (hr : received r [o] = t.buffer.toList)
    (hd : discarded r [o] = if t.buffer.isNone then [t.datagram] else [])
    (ht : ∀ b, t.buffer = some b → Truncated t.datagram b.1 b.2) :
    Accounted r ch (os ++ [o]) := by
  obtain ⟨taken, hwritten, hreceived, hdiscarded, htruncated⟩ := h
  refine ⟨taken ++ [t], ?_, ?_, ?_, ?_⟩
  · rw [written_snoc, hwritten, hw, List.append_nil, List.map_append, List.append_assoc]
    rfl
  · rw [received_snoc, hreceived, hr, List.filterMap_append]
    cases hbuffer : t.buffer <;> simp [hbuffer]
  · rw [discarded_snoc, hdiscarded, hd, List.filter_append, List.map_append]
    cases hbuffer : t.buffer <;> simp [hbuffer]
  · intro t' ht'
    rcases List.mem_append.mp ht' with hold | hnew
    · exact htruncated t' hold
    · rw [List.mem_singleton.mp hnew]
      exact ht

/-- One change of the channel keeps the account. -/
theorem Accounted.step (h : Accounted r ch os) (hflow : Flow r ch o ch') :
    Accounted r ch' (os ++ [o]) := by
  cases hflow with
  | idle hw hr hd =>
    obtain ⟨taken, hwritten, hreceived, hdiscarded, htruncated⟩ := h
    refine ⟨taken, ?_, ?_, ?_, htruncated⟩
    · rw [written_snoc, hw, List.append_nil, hwritten]
    · rw [received_snoc, hr, List.append_nil, hreceived]
    · rw [discarded_snoc, hd, List.append_nil, hdiscarded]
  | @sent _ i data =>
    obtain ⟨taken, hwritten, hreceived, hdiscarded, htruncated⟩ := h
    have hw : written r [.sent i r.other data] = [data] := by simp [written]
    refine ⟨taken, ?_, ?_, ?_, htruncated⟩
    · rw [written_snoc, hw, hwritten, List.append_assoc]
    · rw [received_snoc, hreceived]
      exact List.append_nil _
    · rw [discarded_snoc, hdiscarded]
      exact List.append_nil _
  | @received _ i n d data htruncated =>
    apply h.take (t := ⟨d, some (data, n)⟩) rfl
    · simp [received]
    · rfl
    · rintro b ⟨⟩
      exact htruncated
  | @discarded _ i d =>
    apply h.take (t := ⟨d, none⟩) rfl rfl
    · simp [discarded]
    · nofun

/-- Datagrams taken are received or discarded. -/
theorem length_split (taken : List Taken) :
    (taken.filterMap (·.buffer)).length + (taken.filter (·.buffer.isNone)).length =
      taken.length := by
  induction taken with
  | nil => rfl
  | cons t taken ih =>
    cases hbuffer : t.buffer <;> simp [hbuffer] <;> omega

/-- If none is discarded, the buffers hold the datagrams taken, in order. -/
theorem forall₂_taken (hnone : taken.filter (·.buffer.isNone) = [])
    (htruncated : ∀ t ∈ taken, ∀ b, t.buffer = some b → Truncated t.datagram b.1 b.2) :
    List.Forall₂ (fun d b => Truncated d b.1 b.2) (taken.map (·.datagram))
      (taken.filterMap (·.buffer)) := by
  induction taken with
  | nil => exact .nil
  | cons t taken ih =>
    cases hbuffer : t.buffer with
    | none => simp [hbuffer] at hnone
    | some b =>
      rw [List.map_cons, List.filterMap_cons_some hbuffer]
      refine .cons (htruncated t List.mem_cons_self b hbuffer) ?_
      apply ih
      · simpa [List.filter_cons, hbuffer] using hnone
      · exact fun t' ht' => htruncated t' (List.mem_cons_of_mem _ ht')

/-- Nothing is missing if and only if nothing was thrown away. -/
theorem Accounted.delivered_iff (h : Accounted r ch os) :
    Delivered r ch os ↔ discarded r os = [] := by
  obtain ⟨taken, hwritten, hreceived, hdiscarded, htruncated⟩ := h
  constructor
  · rintro ⟨front, hfront, hforall⟩
    have hlength : front.length = taken.length := by
      have := congrArg List.length (hfront.symm.trans hwritten)
      simp only [List.length_append, List.length_map] at this
      omega
    have hsplit := length_split taken
    rw [← hreceived, ← hforall.length_eq] at hsplit
    rw [hdiscarded, List.map_eq_nil_iff]
    apply List.eq_nil_of_length_eq_zero
    omega
  · intro hnone
    rw [hdiscarded, List.map_eq_nil_iff] at hnone
    refine ⟨_, hwritten, ?_⟩
    rw [hreceived]
    exact forall₂_taken hnone htruncated

end Flow

namespace Pipe

/-- The errors that a call may return from where it is. -/
inductive Fails : Call → Error → Prop
  | closedRead {side : Side} {data : List UInt8} {stage : Stage} {done : Nat} :
      Fails ⟨side, .read data, .selecting stage done⟩ .eof
  | deadlineRead {side : Side} {data : List UInt8} {stage : Stage} {done : Nat} :
      Fails ⟨side, .read data, .selecting stage done⟩ .deadlineExceeded
  | closedWrite {side : Side} {data : List UInt8} {stage : Stage} {done : Nat} :
      Fails ⟨side, .write data, .selecting stage done⟩ .closedPipe
  | cleaned {side : Side} {kind : Kind} : Fails ⟨side, kind, .cleaning⟩ .deadlineExceeded

/-- What a step of a call does. -/
inductive Moves (p : Pipe) (i : Nat) : Call → Pipe → Outcome → Prop
  | blocked {c : Call} : Moves p i c p .blocked
  | enter {side : Side} {kind : Kind} {stage : Stage} {done : Nat} :
      Moves p i ⟨side, kind, .entering stage⟩ (p.move i (.selecting stage done)) .moved
  | next {side : Side} {kind : Kind} {stage : Stage} {done : Nat} :
      Moves p i ⟨side, kind, .selecting stage done⟩ (p.move i (.entering .wait)) .moved
  | fail {c : Call} {err : Error} (h : Fails c err) :
      Moves p i c (p.move i (.returned (.error err))) (.failed i err)
  | giveUp {side : Side} {data : List UInt8} {stage : Stage} {done : Nat} :
      Moves p i ⟨side, .write data, .selecting stage done⟩ (p.move i .cleaning) .moved
  | receive {side : Side} {data data' d : List UInt8} {stage : Stage} {done n : Nat}
      {ch : List (List UInt8)} (hch : p.rCh side = d :: ch) (h : Truncated d data' n) :
      Moves p i ⟨side, .read data, .selecting stage done⟩
        ((p.setRCh side ch).move i (.returned (.ok n))) (.received i side data' n)
  | send {side : Side} {data : List UInt8} {stage : Stage} {done : Nat} :
      Moves p i ⟨side, .write data, .selecting stage done⟩
        ((p.setRCh side.other (p.rCh side.other ++ [data])).move i (.returned (.ok data.length)))
        (.sent i side data)
  | discard {side : Side} {kind : Kind} {d : List UInt8} {ch : List (List UInt8)}
      (hch : p.rCh side.other = d :: ch) :
      Moves p i ⟨side, kind, .cleaning⟩ (p.setRCh side.other ch) (.discarded i side d)

/-- What a step does. -/
inductive Transition (p : Pipe) : Event → Pipe → Outcome → Prop
  | blocked {e : Event} : Transition p e p .blocked
  | call {e : Event} {side : Side} {kind : Kind} :
      Transition p e { p with calls := p.calls ++ [⟨side, kind, .entering .check⟩] }
        (.called p.calls.length)
  | moves {e : Event} {i : Nat} {c : Call} {p' : Pipe} {o : Outcome} (hc : p.calls[i]? = some c)
      (h : Moves p i c p' o) : Transition p e p' o
  | close {side : Side} : Transition p (.close side) (p.close side) .closed
  | read {side : Side} {d : Deadline} {e : Deadlines.Event} {o : Deadlines.Outcome}
      (h : (p.conn side).readDeadline.step e = some (d, o)) :
      Transition p (.deadline side .read e)
        (p.setConn side { p.conn side with readDeadline := d }) (.deadline o)
  | write {side : Side} {d : Deadline} {e : Deadlines.Event} {o : Deadlines.Outcome}
      (h : (p.conn side).writeDeadline.step e = some (d, o)) :
      Transition p (.deadline side .write e)
        (p.setConn side { p.conn side with writeDeadline := d }) (.deadline o)

variable {p p' : Pipe} {i : Nat} {c : Call} {o : Outcome} {e : Event} {r side : Side}
  {ch : List (List UInt8)} {os : List Outcome}

section Fields

@[simp] theorem calls_setRCh : (p.setRCh side ch).calls = p.calls := by
  cases side <;> rfl

@[simp] theorem calls_setConn {conn : Conn} : (p.setConn side conn).calls = p.calls := by
  cases side <;> rfl

@[simp] theorem rCh_move {pos : CallAt} : (p.move i pos).rCh r = p.rCh r := by
  cases r <;> rfl

@[simp] theorem rCh_setConn {conn : Conn} : (p.setConn side conn).rCh r = p.rCh r := by
  cases side <;> cases r <;> rfl

@[simp] theorem rCh_setRCh : (p.setRCh side ch).rCh side = ch := by
  cases side <;> rfl

/-- The other channel is left alone. -/
theorem rCh_setRCh_ne (h : r ≠ side) : (p.setRCh side ch).rCh r = p.rCh r := by
  cases side <;> cases r
  · exact (h rfl).elim
  · rfl
  · rfl
  · exact (h rfl).elim

@[simp] theorem conn_move {pos : CallAt} : (p.move i pos).conn r = p.conn r := by
  cases r <;> rfl

@[simp] theorem conn_setRCh : (p.setRCh side ch).conn r = p.conn r := by
  cases side <;> cases r <;> rfl

/-- The ends after one is replaced. -/
theorem conn_setConn {conn : Conn} :
    (p.setConn side conn).conn r = if r = side then conn else p.conn r := by
  cases side <;> cases r <;> rfl

end Fields

section Total

/-- A choice in a `select` is one of the listed moves. -/
theorem select_moves (p : Pipe) (i : Nat) (side : Side) (kind : Kind) (stage : Stage) (done : Nat)
    (choice : Choice) :
    ∃ p' o, p.select i ⟨side, kind, .selecting stage done⟩ stage done choice = some (p', o) ∧
      Moves p i ⟨side, kind, .selecting stage done⟩ p' o := by
  cases choice with
  | closed =>
    unfold select
    dsimp only
    split
    · cases kind with
      | read data => exact ⟨_, _, rfl, .fail .closedRead⟩
      | write data => exact ⟨_, _, rfl, .fail .closedWrite⟩
    · exact ⟨_, _, rfl, .blocked⟩
  | closing =>
    unfold select
    dsimp only
    split
    next hclosing =>
      cases kind with
      | read data =>
        split
        · exact ⟨_, _, rfl, .fail .closedRead⟩
        · exact ⟨_, _, rfl, .next⟩
      | write data => exact Bool.noConfusion hclosing
    · exact ⟨_, _, rfl, .blocked⟩
  | deadline =>
    unfold select
    dsimp only
    split
    · cases kind with
      | read data => exact ⟨_, _, rfl, .fail .deadlineRead⟩
      | write data => exact ⟨_, _, rfl, .giveUp⟩
    · exact ⟨_, _, rfl, .blocked⟩
  | channel =>
    cases stage with
    | check => exact ⟨_, _, rfl, .blocked⟩
    | wait =>
      cases kind with
      | read data =>
        cases hch : p.rCh side with
        | nil =>
          refine ⟨p, .blocked, ?_, .blocked⟩
          simp only [select, hch]
          rfl
        | cons d ch =>
          obtain ⟨data', n, hfill, -, htruncated⟩ := fill_truncated data d
          refine ⟨_, _, ?_, .receive hch htruncated⟩
          simp only [select, hch, hfill, Option.map_some]
      | write data =>
        by_cases hroom : (p.rCh side.other).length < capacity
        · refine ⟨_, _, ?_, .send⟩
          simp only [select, if_pos hroom]
        · refine ⟨p, .blocked, ?_, .blocked⟩
          simp only [select, if_neg hroom]
          rfl
  | default =>
    cases stage with
    | check =>
      unfold select
      dsimp only
      split
      · exact ⟨_, _, rfl, .blocked⟩
      · exact ⟨_, _, rfl, .next⟩
    | wait => exact ⟨_, _, rfl, .blocked⟩

/-- A receive of `cleanWriteBuffer` is one of the listed moves. -/
theorem clean_moves (p : Pipe) (i : Nat) (side : Side) (kind : Kind) :
    ∃ p' o, p.clean i ⟨side, kind, .cleaning⟩ = some (p', o) ∧
      Moves p i ⟨side, kind, .cleaning⟩ p' o := by
  unfold clean
  split
  next d ch hch => exact ⟨_, _, rfl, .discard hch⟩
  · exact ⟨_, _, rfl, .fail .cleaned⟩

/-- The deadlines of both ends are well formed. -/
def Wf (p : Pipe) : Prop :=
  ∀ side, Deadlines.Wf (p.conn side).readDeadline ∧ Deadlines.Wf (p.conn side).writeDeadline

/-- No step panics. -/
theorem step_transition (h : p.Wf) (e : Event) :
    ∃ p' o, p.step e = some (p', o) ∧ Transition p e p' o := by
  cases e with
  | read | write => exact ⟨_, _, rfl, .call⟩
  | enter i =>
    unfold step
    dsimp only
    split
    next hc => exact ⟨_, _, rfl, .moves hc .enter⟩
    · exact ⟨_, _, rfl, .blocked⟩
  | select i choice =>
    unfold step
    dsimp only
    split
    next side kind stage done hc =>
      obtain ⟨p', o, hselect, hmoves⟩ := select_moves p i side kind stage done choice
      exact ⟨p', o, hselect, .moves hc hmoves⟩
    · exact ⟨_, _, rfl, .blocked⟩
  | clean i =>
    unfold step
    dsimp only
    split
    next side kind hc =>
      obtain ⟨p', o, hclean, hmoves⟩ := clean_moves p i side kind
      exact ⟨p', o, hclean, .moves hc hmoves⟩
    · exact ⟨_, _, rfl, .blocked⟩
  | close side => exact ⟨_, _, rfl, .close⟩
  | deadline side which e =>
    cases which with
    | read =>
      obtain ⟨d, o, hstep⟩ := (h side).1.progress e
      refine ⟨_, _, ?_, .read hstep⟩
      simp only [step, deadlineStep, hstep, Option.map_some]
    | write =>
      obtain ⟨d, o, hstep⟩ := (h side).2.progress e
      refine ⟨_, _, ?_, .write hstep⟩
      simp only [step, deadlineStep, hstep, Option.map_some]

/-- The invariant is about the ends only. -/
theorem Wf.of_conn (h : p.Wf) (hconn : ∀ side, p'.conn side = p.conn side) : p'.Wf := by
  intro side
  rw [hconn side]
  exact h side

/-- A well-formed end may replace another. -/
theorem Wf.setConn (h : p.Wf) {conn : Conn}
    (hconn : Deadlines.Wf conn.readDeadline ∧ Deadlines.Wf conn.writeDeadline) :
    (p.setConn side conn).Wf := by
  intro side'
  rw [conn_setConn]
  split
  · exact hconn
  · exact h side'

/-- A step keeps the deadlines well-formed. -/
theorem Wf.step (h : p.Wf) (ht : Transition p e p' o) : p'.Wf := by
  cases ht with
  | blocked => exact h
  | call =>
    apply h.of_conn
    intro side
    cases side <;> rfl
  | moves hc hmoves =>
    apply h.of_conn
    intro side
    cases hmoves <;> simp
  | close => exact h.setConn (h _)
  | read hstep => exact h.setConn ⟨(h _).1.step (Deadlines.step_transition hstep), (h _).2⟩
  | write hstep => exact h.setConn ⟨(h _).1, (h _).2.step (Deadlines.step_transition hstep)⟩

end Total

section Channels

/-- An outcome of no call leaves the channels. -/
theorem idle_of_actor (h : o.actor = none) : Flow r ch o ch := by
  cases o with
  | sent | received | discarded => cases h
  | blocked | called | moved | failed | closed | deadline => exact .idle rfl rfl rfl

/-- What a move of a call does to a channel. -/
theorem Moves.flow (h : Moves p i c p' o) (r : Side) : Flow r (p.rCh r) o (p'.rCh r) := by
  cases h with
  | blocked => exact idle_of_actor rfl
  | enter | next | fail | giveUp =>
    rw [rCh_move]
    exact idle_of_actor rfl
  | @receive side _ _ _ _ _ _ _ hch htruncated =>
    rw [rCh_move]
    by_cases hr : r = side
    · subst hr
      rw [rCh_setRCh, hch]
      exact .received htruncated
    · rw [rCh_setRCh_ne hr]
      exact .idle rfl (by simp [received, Ne.symm hr]) rfl
  | @send side =>
    rw [rCh_move]
    by_cases hr : r = side.other
    · subst hr
      rw [rCh_setRCh]
      nth_rewrite 3 [← side.other_other]
      exact .sent
    · rw [rCh_setRCh_ne hr]
      have hside : ¬ side = r.other := fun h => hr (by rw [h, Side.other_other])
      exact .idle (by simp [written, hside]) rfl rfl
  | @discard side _ _ _ hch =>
    by_cases hr : r = side.other
    · subst hr
      rw [rCh_setRCh, hch]
      nth_rewrite 2 [← side.other_other]
      exact .discarded
    · rw [rCh_setRCh_ne hr]
      have hside : ¬ side = r.other := fun h => hr (by rw [h, Side.other_other])
      exact .idle rfl rfl (by simp [discarded, hside])

/-- What a step does to a channel. -/
theorem Transition.flow (h : Transition p e p' o) (r : Side) : Flow r (p.rCh r) o (p'.rCh r) := by
  cases h with
  | blocked => exact idle_of_actor rfl
  | call => cases r <;> exact idle_of_actor rfl
  | moves hc hmoves => exact hmoves.flow r
  | close =>
    rw [Pipe.close, rCh_setConn]
    exact idle_of_actor rfl
  | read | write =>
    rw [rCh_setConn]
    exact idle_of_actor rfl

end Channels

section Calls

/-- What the position of a call tells about its doings. -/
def Accords (i : Nat) (c : Call) (acts : List Outcome) : Prop :=
  match c.kind, c.pos with
  | _, .entering _ => acts = []
  | _, .selecting _ _ => acts = []
  | .read _, .cleaning => False
  | .read _, .returned (.ok n) => ∃ data, acts = [.received i c.side data n]
  | .read _, .returned (.error _) => acts = []
  | .write _, .cleaning => ∀ o ∈ acts, ∃ d, o = .discarded i c.side d
  | .write data, .returned (.ok n) => n = data.length ∧ acts = [.sent i c.side data]
  | .write _, .returned (.error err) =>
    err = .closedPipe ∧ acts = [] ∨
      err = .deadlineExceeded ∧ ∀ o ∈ acts, ∃ d, o = .discarded i c.side d

/-- What another call does is not counted. -/
theorem doings_of_ne {j : Nat} (h : o.actor ≠ some j) : doings j (os ++ [o]) = doings j os := by
  rw [doings, List.filter_append]
  simp [doings, h]

/-- What a call does comes last. -/
theorem doings_of_eq {j : Nat} (h : o.actor = some j) :
    doings j (os ++ [o]) = doings j os ++ [o] := by
  rw [doings, List.filter_append]
  simp [doings, h]

/-- A call that fails returns in accord with what it did. -/
theorem Fails.accords {err : Error} {acts : List Outcome} (h : Fails c err)
    (hacts : Accords i c acts) : Accords i { c with pos := .returned (.error err) } acts := by
  cases h with
  | closedRead | deadlineRead => exact hacts
  | closedWrite => exact .inl ⟨rfl, hacts⟩
  | @cleaned _ kind =>
    cases kind with
    | read => exact hacts.elim
    | write => exact .inr ⟨rfl, hacts⟩

theorem calls_move (hc : p.calls[i]? = some c) (pos : CallAt) :
    (p.move i pos).calls[i]? = some { c with pos } :=
  getElem?_modify_self hc _

theorem calls_setRCh_move (hc : p.calls[i]? = some c) (pos : CallAt) :
    ((p.setRCh r ch).move i pos).calls[i]? = some { c with pos } := by
  apply calls_move
  rw [calls_setRCh, hc]

/-- A move leaves the other calls. -/
theorem Moves.others (h : Moves p i c p' o) {j : Nat} (hj : j ≠ i) :
    p'.calls[j]? = p.calls[j]? := by
  cases h with
  | blocked => rfl
  | enter | next | fail | giveUp | receive | send => simp [move, Ne.symm hj]
  | discard => rw [calls_setRCh]

/-- A move makes no call. -/
theorem Moves.length_calls (h : Moves p i c p' o) : p'.calls.length = p.calls.length := by
  cases h with
  | blocked => rfl
  | enter | next | fail | giveUp | receive | send => simp [move]
  | discard => rw [calls_setRCh]

/-- A move is not that of another call. -/
theorem Moves.actor_ne (h : Moves p i c p' o) {j : Nat} (hj : j ≠ i) : o.actor ≠ some j := by
  cases h with
  | blocked | enter | next | fail | giveUp => simp [Outcome.actor]
  | receive | send | discard => simpa [Outcome.actor] using Ne.symm hj

/-- A step of a call keeps its doings in accord with its position. -/
theorem Moves.accords (h : Moves p i c p' o) (hc : p.calls[i]? = some c)
    (hacts : Accords i c (doings i os)) :
    ∃ c', p'.calls[i]? = some c' ∧ Accords i c' (doings i (os ++ [o])) := by
  cases h with
  | blocked =>
    rw [doings_of_ne (o := .blocked) nofun]
    exact ⟨c, hc, hacts⟩
  | enter | next =>
    rw [doings_of_ne (o := .moved) nofun]
    exact ⟨_, calls_move hc _, hacts⟩
  | @fail _ err hfails =>
    rw [doings_of_ne (o := .failed i err) nofun]
    exact ⟨_, calls_move hc _, hfails.accords hacts⟩
  | giveUp =>
    refine ⟨_, calls_move hc _, ?_⟩
    rw [doings_of_ne (o := .moved) nofun, show doings i os = [] from hacts]
    nofun
  | @receive _ _ data' =>
    refine ⟨_, calls_setRCh_move hc _, data', ?_⟩
    rw [doings_of_eq rfl, show doings i os = [] from hacts]
    rfl
  | send =>
    refine ⟨_, calls_setRCh_move hc _, rfl, ?_⟩
    rw [doings_of_eq rfl, show doings i os = [] from hacts]
    rfl
  | @discard side kind d ch hch =>
    rw [calls_setRCh, doings_of_eq rfl]
    refine ⟨_, hc, ?_⟩
    cases kind with
    | read => exact hacts.elim
    | write data =>
      intro o ho
      rcases List.mem_append.mp ho with hold | hnew
      · exact hacts o hold
      · exact ⟨d, List.mem_singleton.mp hnew⟩

/-- The doings of every call accord with its position. -/
structure Orderly (p : Pipe) (os : List Outcome) : Prop where
  accords : ∀ {i c}, p.calls[i]? = some c → Accords i c (doings i os)
  fresh : ∀ i, p.calls.length ≤ i → doings i os = []

/-- A step that no call makes. -/
theorem Orderly.idle (h : Orderly p os) (hcalls : p'.calls = p.calls) (ho : o.actor = none) :
    Orderly p' (os ++ [o]) := by
  have hdoings : ∀ i, doings i (os ++ [o]) = doings i os := by
    intro i
    apply doings_of_ne
    rw [ho]
    nofun
  constructor
  · intro i c hc
    rw [hcalls] at hc
    rw [hdoings]
    exact h.accords hc
  · intro i hi
    rw [hcalls] at hi
    rw [hdoings]
    exact h.fresh i hi

/-- A new call has done nothing. -/
theorem Orderly.call (h : Orderly p os) (side : Side) (kind : Kind) :
    Orderly { p with calls := p.calls ++ [⟨side, kind, .entering .check⟩] }
      (os ++ [.called p.calls.length]) := by
  constructor
  · intro i c hc
    rw [doings_of_ne (o := .called _) nofun]
    rcases getElem?_snoc_iff.mp hc with ⟨rfl, rfl⟩ | hold
    · cases kind <;> exact h.fresh _ (Nat.le_refl _)
    · exact h.accords hold
  · intro i hi
    rw [List.length_append, List.length_singleton] at hi
    rw [doings_of_ne (o := .called _) nofun]
    exact h.fresh i (by omega)

/-- A move keeps what calls return in accord with what they did. -/
theorem Orderly.moves (h : Orderly p os) (hc : p.calls[i]? = some c) (hmoves : Moves p i c p' o) :
    Orderly p' (os ++ [o]) := by
  obtain ⟨c', hc', haccords⟩ := hmoves.accords hc (h.accords hc)
  constructor
  · intro j cj hj
    by_cases hji : j = i
    · subst hji
      rw [hc'] at hj
      cases hj
      exact haccords
    · rw [hmoves.others hji] at hj
      rw [doings_of_ne (hmoves.actor_ne hji)]
      exact h.accords hj
  · intro j hj
    rw [hmoves.length_calls] at hj
    have hi : i < p.calls.length := (List.getElem?_eq_some_iff.mp hc).1
    rw [doings_of_ne (hmoves.actor_ne (by omega))]
    exact h.fresh j hj

/-- A step keeps it. -/
theorem Orderly.step (h : Orderly p os) (ht : Transition p e p' o) : Orderly p' (os ++ [o]) := by
  cases ht with
  | blocked => exact h.idle rfl rfl
  | call => exact h.call _ _
  | moves hc hmoves => exact h.moves hc hmoves
  | close | read | write => exact h.idle calls_setConn rfl

end Calls

/-- In every run the datagrams written to an end are those received and those thrown away, in order,
and then those still in the channel; nothing is missing if and only if nothing was thrown away. A
`Write` that has succeeded has sent its datagram, one that has found its end closed has done nothing
to the channels, and one that has exceeded its deadline has at most thrown datagrams away. -/
theorem datagrams_accounted (events : List Event) :
    ∃ p os, run step pipe events = some (p, os) ∧
      (∀ r, Accounted r (p.rCh r) os ∧ (Delivered r (p.rCh r) os ↔ discarded r os = [])) ∧
      ∀ i c, p.calls[i]? = some c → Accords i c (doings i os) := by
  have hwf : pipe.Wf := fun side => by cases side <;> exact ⟨Deadlines.Wf.new, Deadlines.Wf.new⟩
  have hnew : pipe.Wf ∧ (∀ r, Accounted r (pipe.rCh r) []) ∧ Orderly pipe [] := by
    refine ⟨hwf, fun r => ⟨[], ?_, rfl, rfl, nofun⟩, ⟨nofun, fun _ _ => rfl⟩⟩
    cases r <;> rfl
  obtain ⟨p, os, hrun, -⟩ := run_keeps (fun p e hwf => by
    obtain ⟨p', o, hstep, ht⟩ := step_transition hwf e
    exact ⟨p', o, hstep, hwf.step ht⟩) events hwf
  have hkeeps : p.Wf ∧ (∀ r, Accounted r (p.rCh r) ([] ++ os)) ∧ Orderly p ([] ++ os) := by
    apply keeps_outputs (P := fun _ _ => True) (I := fun os p => p.Wf ∧
      (∀ r, Accounted r (p.rCh r) os) ∧ Orderly p os) _ [] hnew
      (along_of_forall (fun _ _ => trivial) _ _) hrun
    rintro os p e p' o ⟨hwf, haccounted, horderly⟩ - hstep
    obtain ⟨p₁, o₁, hstep₁, ht⟩ := step_transition hwf e
    rw [hstep] at hstep₁
    obtain ⟨rfl, rfl⟩ := Prod.mk.inj (Option.some.inj hstep₁)
    exact ⟨hwf.step ht, fun r => (haccounted r).step (ht.flow r), horderly.step ht⟩
  rw [List.nil_append] at hkeeps
  obtain ⟨-, haccounted, horderly⟩ := hkeeps
  exact ⟨p, os, hrun, fun r => ⟨haccounted r, (haccounted r).delivered_iff⟩,
    fun i c hc => horderly.accords hc⟩

/-- A `Write` succeeds, the deadline is set to the past, and the next `Write` times out. -/
def timedOut : List Event :=
  [.write .first [1], .enter 0, .select 0 .default, .enter 0, .select 0 .channel,
    .deadline .first .write (.set (some 5) 9),
    .write .first [2], .enter 1, .select 1 .deadline, .clean 1, .clean 1]

/-- The `Write` that times out throws the earlier datagram away. -/
theorem timed_out_write_discards :
    ∃ p os, run step pipe timedOut = some (p, os) ∧ (p.conn .second).closed = false ∧
      written .second os = [[1]] ∧ received .second os = [] ∧ p.rCh .second = [] ∧
      ¬ Delivered .second (p.rCh .second) os := by
  refine ⟨_, _, rfl, rfl, rfl, rfl, rfl, ?_⟩
  rintro ⟨front, hwritten, hforall⟩
  cases hforall
  cases hwritten

end Pipe

end PionTransport.Dpipe
