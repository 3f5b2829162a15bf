import PionTransport.Core.Heap
import PionTransport.Udp.Listener

/-!
# Reachable listeners

`Transition` lists what one step can do. The invariant says which connections
are registered, where each connection is held, and in which order `listener.Close`
and the read loop pass through `connLock`. It makes every panic unreachable.
-/

namespace PionTransport.Udp

open PionTransport.Core

variable {α : Type}

/-- The outcomes of steps that change nothing. -/
def Outcome.silent : Outcome α → Bool
  | .blocked | .failed _ => true
  | _ => false

/-- Why `getConn` returns without a connection. -/
inductive Refuses (l : Listener α) : Event α → Option UdpError → Prop
  | closed {raddr buf} : l.reader = .missed raddr buf → l.accepting = false →
      Refuses l .check (some .closedListener)
  | filtered {raddr buf} : l.reader = .missed raddr buf → l.passes buf = false →
      Refuses l .check none
  | full {raddr buf} : l.reader = .admitted raddr buf → l.backlog ≤ l.acceptCh.length →
      Refuses l .send (some .listenQueueExceeded)

/-- What one step can do. -/
inductive Transition [NetAddr α] (l : Listener α) : Event α → Listener α → Outcome α → Prop
  | stutter {e o} : o.silent = true → Transition l e l o
  | receive {msgs} : l.reader = .idle → Transition l (.receive msgs) { l with batch := msgs } .moved
  | readError : l.reader = .idle →
      Transition l .readError { l with reader := .ended, readDone := true } .moved
  | hit {raddr buf batch id} : l.reader = .idle → l.locked = false →
      l.conns (NetAddr.string raddr) = some id →
      Transition l .lookup { l with batch, reader := .found id buf } (.looked raddr buf)
  | miss {raddr buf batch} : l.reader = .idle → l.locked = false →
      l.conns (NetAddr.string raddr) = none →
      Transition l .lookup { l with batch, reader := .missed raddr buf } (.looked raddr buf)
  | refuse {e err} : Refuses l e err →
      Transition l e { l with reader := .idle } (.refused err)
  | pass {raddr buf} : l.reader = .missed raddr buf → l.accepting = true → l.passes buf = true →
      Transition l .check { l with reader := .admitted raddr buf } .moved
  | send {raddr buf} : l.reader = .admitted raddr buf → l.acceptCh.length < l.backlog →
      Transition l .send { l with
        heap := l.heap ++ [newConn raddr]
        acceptCh := l.acceptCh ++ [l.heap.length]
        reader := .sent raddr l.heap.length buf } (.created l.heap.length raddr buf)
  | register {raddr id buf} : l.reader = .sent raddr id buf →
      Transition l .register { l with
        conns := Function.update l.conns (NetAddr.string raddr) (some id)
        reader := .found id buf } .moved
  | write {id buf} : l.reader = .found id buf →
      Transition l .write { l.modify id fun c => { c with writes := c.writes ++ [buf] } with
        reader := .idle } .moved
  | acceptConn {id rest} : l.acceptCh = id :: rest →
      Transition l .acceptConn { l.advance id .taken with acceptCh := rest } .moved
  | acceptReturn {id} : l.phase id = some .taken →
      Transition l (.acceptReturn id) { l.advance id .accepted with connWG := l.connWG.add }
        (.accepted id)
  | closeStop : l.closing = .uncalled →
      Transition l .closeStop { l with accepting := false, closing := .stopped } .moved
  | closeSignal : l.closing = .stopped →
      Transition l .closeSignal { l with doneClosed := true, closing := .signalled } .moved
  | closeLock : l.closing = .signalled → l.locked = false →
      Transition l .closeLock { l with closing := .draining } .moved
  | closeReceive {id rest} : l.closing = .draining → l.acceptCh = id :: rest →
      Transition l .closeSelect
        { l.advance id .dropping with acceptCh := rest, closing := .dropping id } .moved
  | closeLeave : l.closing = .draining → l.acceptCh = [] →
      Transition l .closeSelect { l with closing := .drained } .moved
  | closeDrop {id c} : l.closing = .dropping id → l.heap[id]? = some c →
      Transition l .closeDrop
        { (l.modify id fun c => { c with doneClosed := true }).remove id c with
          closing := .draining } (.removed c.rAddr)
  | closeRelease {wg} : l.closing = .drained → l.connWG.done = some wg →
      Transition l .closeRelease { l with connWG := wg, closing := .released } .moved
  | connRelease {id wg} : l.phase id = some .accepted → l.connWG.done = some wg →
      Transition l (.connRelease id) { l.advance id .released with connWG := wg } .moved
  | connSignal {id c} : l.heap[id]? = some c → c.phase = .released →
      Transition l (.connSignal id)
        ((l.modify id fun c => { c with doneClosed := true }).advance id .signalled) .moved
  | connRemove {id c} : l.heap[id]? = some c → c.phase = .signalled → l.locked = false →
      Transition l (.connRemove id) (l.remove id c) (.removed c.rAddr)
  | closeSocket : l.connWG.released = true →
      Transition l .closeSocket { l with pConnClosed := true } .moved

section Cases

variable [NetAddr α] {l l' : Listener α} {o : Outcome α}

theorem blocked_transition {e : Event α} (h : l.blocked = some (l', o)) : Transition l e l' o := by
  cases h
  exact .stutter rfl

/-- A step of the listener is one of the listed ones. -/
theorem step_transition {e : Event α} (h : l.step e = some (l', o)) : Transition l e l' o := by
  -- a branch in which the event does not apply is blocked; the others follow in the events' order
  cases e <;> simp only [Listener.step, Listener.receive, Listener.readError, Listener.lookup,
    Listener.check, Listener.send, Listener.register, Listener.write, Listener.acceptConn,
    Listener.acceptReadDone, Listener.acceptDone, Listener.acceptReturn, Listener.closeStop,
    Listener.closeSignal, Listener.closeLock, Listener.closeSelect, Listener.closeDrop,
    Listener.closeRelease, Listener.connRelease, Listener.connSignal, Listener.connRemove,
    Listener.closeSocket, Listener.signal, Option.bind_eq_bind] at h <;>
    (repeat' split at h) <;> try exact blocked_transition h
  all_goals try cases h
  · exact .receive ‹_›
  · exact .readError ‹_›
  · exact .hit ‹_› (eq_false_of_ne_true ‹_›) ‹_›
  · exact .miss ‹_› (eq_false_of_ne_true ‹_›) ‹_›
  next hr ha => exact .refuse (.closed hr (by simpa using ha))
  next hr _ hp => exact .refuse (.filtered hr (by simpa using hp))
  next hr ha hp => exact .pass hr (by simpa using ha) (by simpa using hp)
  · exact .send ‹_› ‹_›
  · exact .refuse (.full ‹_› (Nat.le_of_not_lt ‹_›))
  · exact .register ‹_›
  · exact .write ‹_›
  · exact .acceptConn ‹_›
  · exact .stutter rfl
  · exact .stutter rfl
  · exact .acceptReturn ‹_›
  · exact .closeStop ‹_›
  · exact .closeSignal ‹_›
  next hc => exact .closeLock hc.1 (by simpa using hc.2)
  · exact .closeReceive ‹_› ‹_›
  · exact .closeLeave ‹_› ‹_›
  next hc =>
    simp only [Option.bind_eq_some_iff] at h
    obtain ⟨c, hheap, l₁, hsig, h⟩ := h
    split at hsig <;> cases hsig
    cases h
    exact .closeDrop hc hheap
  next hc =>
    obtain ⟨wg, hwg, h⟩ := Option.bind_eq_some_iff.mp h
    cases h
    exact .closeRelease hc hwg
  next hp =>
    obtain ⟨wg, hwg, h⟩ := Option.bind_eq_some_iff.mp h
    cases h
    exact .connRelease hp hwg
  · exact .connSignal ‹_› ‹_›
  next hheap hp => exact .connRemove hheap hp.1 (by simpa using hp.2)
  · exact .closeSocket ‹_›

end Cases

/-- The address for which `getConn` holds `connLock` after it found no connection. -/
def Reader.target : Reader α → Option α
  | .missed raddr _ | .admitted raddr _ | .sent raddr _ _ => some raddr
  | _ => none

/-- `getConn` has read `accepting` as true. -/
def Reader.creates : Reader α → Bool
  | .admitted .. | .sent .. => true
  | _ => false

/-- `listener.Close` has locked `connLock`. -/
def Closing.entered : Closing → Bool
  | .draining | .dropping _ | .drained | .released => true
  | .uncalled | .stopped | .signalled => false

/-- `conns` holds exactly the connections that are not removed, under their own addresses. -/
structure Table [NetAddr α] (l : Listener α) : Prop where
  conns : ∀ {key id}, l.conns key = some id →
    ∃ c, l.heap[id]? = some c ∧ NetAddr.string c.rAddr = key ∧ c.phase ≠ .removed
  registered : ∀ {id c}, l.heap[id]? = some c → c.phase ≠ .removed →
    l.conns (NetAddr.string c.rAddr) = some id ∨ ∃ buf, l.reader = .sent c.rAddr id buf
  target : ∀ {raddr}, l.reader.target = some raddr → l.conns (NetAddr.string raddr) = none
  sent : ∀ {raddr id buf}, l.reader = .sent raddr id buf →
    ∃ c, l.heap[id]? = some c ∧ c.rAddr = raddr ∧ c.phase ≠ .removed

/-- The phase of a connection is where it is held. -/
structure Held (l : Listener α) : Prop where
  nodup : l.acceptCh.Nodup
  queued : ∀ id, id ∈ l.acceptCh ↔ l.phase id = some .backlog
  dropping : ∀ id, l.closing = .dropping id ↔ l.phase id = some .dropping
  signalled : ∀ {id : Nat} {c : Conn α}, l.heap[id]? = some c → c.doneClosed = true →
    c.phase = .signalled ∨ c.phase = .removed

/-- `listener.Close` and the read loop exclude each other, and nothing is created after it. -/
structure Ordered (l : Listener α) : Prop where
  exclusive : l.reader.locks = true → l.closing.locks = false
  stopped : l.closing ≠ .uncalled → l.accepting = false
  undone : l.closing = .uncalled ∨ l.closing = .stopped → l.doneClosed = false
  barred : l.closing.entered = true → l.reader.creates = false
  empty : l.closing = .drained ∨ l.closing = .released → l.acceptCh = []

/-- The number of connections that callers of `Accept` have not closed. -/
def Listener.unclosed (l : Listener α) : Nat := l.heap.countP fun c => decide (c.phase = .accepted)

/-- `connWG` counts the listener and the accepted connections until their `Done`. -/
def Counted (l : Listener α) : Prop :=
  l.connWG.count = (if l.closing = .released then 0 else 1) + l.unclosed

section Updates

variable {l : Listener α}

/-- The phases after one connection has moved. -/
@[simp] theorem phase_advance (id j : Nat) (p : Phase) :
    (l.advance id p).phase j = (l.phase j).map fun q => if id = j then p else q := by
  simp only [Listener.phase, Listener.advance, Listener.modify, List.getElem?_modify,
    Option.map_eq_map, Option.map_map]
  congr 1
  funext c
  simp only [Function.comp_apply]
  split <;> rfl

variable {id : Nat} {c : Conn α}

theorem phase_of_getElem? (h : l.heap[id]? = some c) :
    l.phase id = some c.phase := by
  rw [Listener.phase, h, Option.map_some]

variable {f : Conn α → Conn α}

/-- A change that keeps every phase keeps where the connections are held. -/
theorem phase_modify (id j : Nat) (hf : ∀ c, (f c).phase = c.phase) :
    (l.modify id f).phase j = l.phase j := by
  simp only [Listener.phase, Listener.modify, List.getElem?_modify, Option.map_eq_map,
    Option.map_map]
  congr 1
  funext c
  simp only [Function.comp_apply]
  split
  · exact hf c
  · rfl

/-- A change that keeps the address and the removal of a connection keeps the table. -/
theorem Table.modify [NetAddr α] (h : Table l) (id : Nat) (haddr : ∀ c, (f c).rAddr = c.rAddr)
    (hphase : ∀ c, l.heap[id]? = some c → ((f c).phase = .removed ↔ c.phase = .removed)) :
    Table (l.modify id f) := by
  have hkeep : ∀ {j c}, l.heap[j]? = some c → (if id = j then f c else c).rAddr = c.rAddr ∧
      ((if id = j then f c else c).phase = .removed ↔ c.phase = .removed) := by
    intro j c hc
    split
    next he =>
      subst he
      exact ⟨haddr c, hphase c hc⟩
    · exact ⟨rfl, Iff.rfl⟩
  refine ⟨?_, ?_, h.target, ?_⟩
  · intro key j hkey
    obtain ⟨c, hc, hk, hp⟩ := h.conns hkey
    obtain ⟨ha, hr⟩ := hkeep hc
    exact ⟨_, getElem?_modify_iff.mpr ⟨c, hc, rfl⟩, by rw [ha, hk], mt hr.mp hp⟩
  · intro j c hc hp
    obtain ⟨c₀, hc₀, rfl⟩ := getElem?_modify_iff.mp hc
    obtain ⟨ha, hr⟩ := hkeep hc₀
    rw [ha]
    exact h.registered hc₀ (mt hr.mpr hp)
  · intro raddr j buf hr
    obtain ⟨c, hc, hraddr, hp⟩ := h.sent hr
    obtain ⟨ha, hr⟩ := hkeep hc
    exact ⟨_, getElem?_modify_iff.mpr ⟨c, hc, rfl⟩, by rw [ha, hraddr], mt hr.mp hp⟩

variable {p q : Phase}

/-- Moving a connection between phases before its removal keeps the table. -/
theorem Table.advance [NetAddr α] (h : Table l) (hid : l.phase id = some q) (hq : q ≠ .removed)
    (hp : p ≠ .removed) :
    Table (l.advance id p) := by
  refine h.modify id (fun _ => rfl) fun c hc => ?_
  rw [phase_of_getElem? hc, Option.some.injEq] at hid
  simp only [hp, hid, hq]

/-- Removing a registered connection deletes its key and no other. -/
theorem Table.remove [NetAddr α] (h : Table l) (hc : l.heap[id]? = some c) (hp : c.phase ≠ .removed)
    (hr : l.reader.locks = false) :
    Table (l.remove id c) := by
  have hsent : ∀ raddr j buf, l.reader ≠ .sent raddr j buf := by
    intro raddr j buf he
    rw [he] at hr
    cases hr
  have hown : l.conns (NetAddr.string c.rAddr) = some id := by
    obtain hown | ⟨buf, he⟩ := h.registered hc hp
    · exact hown
    · exact absurd he (hsent _ _ _)
  refine ⟨?_, ?_, ?_, fun he => absurd he (hsent _ _ _)⟩
  · intro key j hkey
    change Function.update l.conns _ none key = some j at hkey
    have hne : key ≠ NetAddr.string c.rAddr := by
      rintro rfl
      simp at hkey
    rw [Function.update_of_ne hne] at hkey
    obtain ⟨c', hc', hk, hp'⟩ := h.conns hkey
    have hj : id ≠ j := by
      rintro rfl
      rw [hc] at hc'
      cases hc'
      exact hne hk.symm
    exact ⟨c', getElem?_modify_iff.mpr ⟨c', hc', if_neg hj⟩, hk, hp'⟩
  · intro j c' hc' hp'
    obtain ⟨c₀, hc₀, rfl⟩ := getElem?_modify_iff.mp hc'
    have hj : id ≠ j := by
      rintro rfl
      simp at hp'
    rw [if_neg hj] at hp' ⊢
    obtain hreg | ⟨buf, he⟩ := h.registered hc₀ hp'
    · left
      have hne : NetAddr.string c₀.rAddr ≠ NetAddr.string c.rAddr := by
        intro he
        rw [he, hown] at hreg
        exact hj (Option.some.inj hreg)
      change Function.update l.conns _ none _ = some j
      rw [Function.update_of_ne hne, hreg]
    · exact absurd he (hsent _ _ _)
  · intro raddr ht
    change l.reader.target = some raddr at ht
    cases hreader : l.reader <;> simp_all [Reader.locks, Reader.target]

/-- A connection whose channel is closed stays past that point. -/
theorem Held.signalled_advance (h : Held l) (hid : l.phase id = some q)
    (hsig : q = .signalled ∨ q = .removed → p = .signalled ∨ p = .removed) {j : Nat}
    (hc : (l.advance id p).heap[j]? = some c) (hd : c.doneClosed = true) :
    c.phase = .signalled ∨ c.phase = .removed := by
  obtain ⟨c₀, hc₀, rfl⟩ := getElem?_modify_iff.mp hc
  by_cases hj : id = j
  · subst hj
    rw [if_pos rfl] at hd ⊢
    rw [phase_of_getElem? hc₀, Option.some.injEq] at hid
    exact hsig (hid ▸ h.signalled hc₀ hd)
  · rw [if_neg hj] at hd ⊢
    exact h.signalled hc₀ hd

/-- Moving a connection that neither `acceptCh` nor `listener.Close` holds. -/
theorem Held.advance (h : Held l) (hid : l.phase id = some q) (hq : q ≠ .backlog ∧ q ≠ .dropping)
    (hp : p ≠ .backlog ∧ p ≠ .dropping)
    (hsig : q = .signalled ∨ q = .removed → p = .signalled ∨ p = .removed) :
    Held (l.advance id p) where
  nodup := h.nodup
  queued j := by
    rw [phase_advance]
    refine (h.queued j).trans ?_
    by_cases hj : id = j
    · subst hj
      simp [hid, hq.1, hp.1]
    · simp [hj]
  dropping j := by
    rw [phase_advance]
    refine (h.dropping j).trans ?_
    by_cases hj : id = j
    · subst hj
      simp [hid, hq.2, hp.2]
    · simp [hj]
  signalled hc hd := h.signalled_advance hid hsig hc hd

/-- The head of `acceptCh` is received. -/
theorem Held.queued_tail (h : Held l) {rest : List Nat} (hch : l.acceptCh = id :: rest)
    (hp : p ≠ .backlog) (j : Nat) :
    j ∈ rest ↔ (l.advance id p).phase j = some .backlog := by
  have hnodup := h.nodup
  have hj := h.queued j
  rw [hch] at hnodup hj
  rw [phase_advance]
  by_cases he : id = j
  · subst he
    simp [(List.nodup_cons.mp hnodup).1, hp]
  · have hne : j ≠ id := fun h => he h.symm
    simpa [he, hne] using hj

theorem phase_write (id j : Nat) (buf : List UInt8) (r : Reader α) :
    Listener.phase
      { l.modify id fun c => { c with writes := c.writes ++ [buf] } with reader := r } j =
        l.phase j := by
  apply phase_modify (f := fun c => { c with writes := c.writes ++ [buf] })
  intro c
  rfl

theorem phase_signal (id j : Nat) :
    (l.modify id fun c => { c with doneClosed := true }).phase j = l.phase j := by
  apply phase_modify
  intro c
  rfl

/-- Closing `doneCh` while moving to a phase that allows it. -/
theorem Held.signalled_signal (h : Held l) (hp : p = .signalled ∨ p = .removed) {j : Nat}
    (hc : ((l.modify id fun c => { c with doneClosed := true }).advance id p).heap[j]? = some c)
    (hd : c.doneClosed = true) : c.phase = .signalled ∨ c.phase = .removed := by
  obtain ⟨c₁, hc₁, rfl⟩ := getElem?_modify_iff.mp hc
  obtain ⟨c₀, hc₀, rfl⟩ := getElem?_modify_iff.mp hc₁
  by_cases hj : id = j
  · simpa [hj] using hp
  · rw [if_neg hj, if_neg hj] at hd ⊢
    exact h.signalled hc₀ hd

/-- `Done` takes one from the counter. -/
theorem done_eq_some {wg wg' : WaitGroup} (h : wg.done = some wg') :
    wg.count = wg'.count + 1 ∧ wg'.released = (wg.released || wg'.count == 0) := by
  unfold WaitGroup.done at h
  split at h
  · cases h
  next n hn =>
    cases h
    exact ⟨hn, rfl⟩

/-- Connections that are accepted or released change the number of unclosed ones. -/
theorem unclosed_advance (hid : l.phase id = some q) :
    (l.advance id p).unclosed + (if q = .accepted then 1 else 0) =
      l.unclosed + (if p = .accepted then 1 else 0) := by
  obtain ⟨c, hc, rfl⟩ := Option.map_eq_some_iff.mp hid
  have := countP_modify (p := fun c : Conn α => decide (c.phase = .accepted))
    (f := fun c => { c with phase := p }) hc
  simp only [decide_eq_true_eq] at this
  exact this

theorem unclosed_pos (h : l.phase id = some .accepted) : 0 < l.unclosed := by
  obtain ⟨c, hc, hp⟩ := Option.map_eq_some_iff.mp h
  exact List.countP_pos_iff.mpr ⟨c, List.mem_of_getElem? hc, by simp [hp]⟩

theorem unclosed_modify (id : Nat) (hf : ∀ c, (f c).phase = c.phase) :
    (l.modify id f).unclosed = l.unclosed := by
  cases hc : l.heap[id]? with
  | none =>
    have hlen := List.getElem?_eq_none_iff.mp hc
    simp only [Listener.unclosed, Listener.modify, List.modify_eq_self hlen]
  | some c =>
    have := countP_modify (p := fun c : Conn α => decide (c.phase = .accepted)) (f := f) hc
    rw [hf] at this
    exact Nat.add_right_cancel this

/-- A connection moves and `connWG` with it. -/
theorem Counted.move {l' : Listener α} (h : Counted l) (a b : Nat)
    (hclosing : l'.closing = .released ↔ l.closing = .released)
    (hunclosed : l'.unclosed + a = l.unclosed + b)
    (hcount : l'.connWG.count + a = l.connWG.count + b) : Counted l' := by
  unfold Counted at h ⊢
  simp only [hclosing]
  omega

/-- What `Listen` returns. -/
theorem listen_eq {lc : ListenConfig} (h : listen lc = some (.ok l)) :
    ∃ readBatchSize backlog acceptFilter, l = { readBatchSize, backlog, acceptFilter } := by
  unfold listen at h
  split at h
  · cases h
  · split at h
    · cases h
    · cases h
      exact ⟨_, _, _, rfl⟩

theorem unlocked (h : l.locked = false) : l.reader.locks = false ∧ l.closing.locks = false :=
  Bool.or_eq_false_iff.mp h

/-- A dropped connection is in its phase. -/
theorem Held.phase_dropping (h : Held l) (hclosing : l.closing = .dropping id)
    (hc : l.heap[id]? = some c) : c.phase = .dropping := by
  have hphase := (h.dropping id).mp hclosing
  rwa [phase_of_getElem? hc, Option.some.injEq] at hphase

/-- While `listener.Close` holds `connLock`, `getConn` does not. -/
theorem Ordered.reader_free (h : Ordered l) (hc : l.closing.locks = true) :
    l.reader.locks = false := by
  cases hr : l.reader.locks with
  | false => rfl
  | true =>
    rw [h.exclusive hr] at hc
    cases hc

/-- A refusal is that of `getConn`, before it sends. -/
theorem Refuses.reader {e : Event α} {err : Option UdpError} (h : Refuses l e err) :
    l.reader.locks = true ∧ ∀ raddr id buf, l.reader ≠ .sent raddr id buf := by
  cases h with
  | closed hr | filtered hr | full hr => simp [hr, Reader.locks]

end Updates

section Steps

variable [NetAddr α] {l l' : Listener α} {e : Event α} {o : Outcome α}

/-- Another place of the read loop keeps the table if it holds no new connection. -/
theorem Table.setReader (h : Table l) (hconns : l'.conns = l.conns) (hheap : l'.heap = l.heap)
    (hsent : ∀ raddr id buf, l.reader ≠ .sent raddr id buf)
    (hsent' : ∀ raddr id buf, l'.reader ≠ .sent raddr id buf)
    (htarget : ∀ raddr, l'.reader.target = some raddr → l.conns (NetAddr.string raddr) = none) :
    Table l' where
  conns hkey := by
    rw [hconns] at hkey
    rw [hheap]
    exact h.conns hkey
  registered hc hp := by
    rw [hheap] at hc
    rw [hconns]
    obtain hreg | ⟨buf, he⟩ := h.registered hc hp
    · exact .inl hreg
    · exact absurd he (hsent _ _ _)
  target hraddr := by
    rw [hconns]
    exact htarget _ hraddr
  sent he := absurd he (hsent' _ _ _)

/-- A step keeps the table. -/
theorem Table.step (h : Table l) (hheld : Held l) (hord : Ordered l) (ht : Transition l e l' o) :
    Table l' := by
  cases ht with
  | stutter => exact h
  | receive | closeStop | closeSignal | closeLock | closeLeave | closeRelease | closeSocket =>
    exact ⟨h.conns, h.registered, h.target, h.sent⟩
  | readError hr | hit hr =>
    exact h.setReader rfl rfl (by simp [hr]) (by simp) (by simp [Reader.target])
  | miss hr hl hc =>
    refine h.setReader rfl rfl (by simp [hr]) (by simp) fun raddr hraddr => ?_
    cases hraddr
    exact hc
  | refuse href => exact h.setReader rfl rfl href.reader.2 (by simp) (by simp [Reader.target])
  | pass hr =>
    refine h.setReader rfl rfl (by simp [hr]) (by simp) fun raddr hraddr => ?_
    cases hraddr
    exact h.target (by rw [hr]; rfl)
  | @send raddr buf hr hroom =>
    have hnone : l.conns (NetAddr.string raddr) = none := h.target (by rw [hr]; rfl)
    refine ⟨?_, ?_, ?_, ?_⟩
    · intro key j hkey
      obtain ⟨c, hc, hrest⟩ := h.conns hkey
      exact ⟨c, getElem?_snoc_iff.mpr (.inr hc), hrest⟩
    · intro j c hc hp
      obtain ⟨rfl, rfl⟩ | hc := getElem?_snoc_iff.mp hc
      · exact .inr ⟨buf, rfl⟩
      · obtain hreg | ⟨buf', he⟩ := h.registered hc hp
        · exact .inl hreg
        · rw [hr] at he
          cases he
    · intro raddr' hraddr
      cases hraddr
      exact hnone
    · intro raddr' j buf' he
      cases he
      exact ⟨newConn raddr, by simp, rfl, by simp [newConn]⟩
  | @register raddr id buf hr =>
    have hnone : l.conns (NetAddr.string raddr) = none := h.target (by rw [hr]; rfl)
    refine ⟨?_, ?_, by simp [Reader.target], by simp⟩
    · intro key j hkey
      by_cases hk : key = NetAddr.string raddr
      · subst hk
        obtain rfl : id = j := by simpa using hkey
        obtain ⟨c, hc, rfl, hp⟩ := h.sent hr
        exact ⟨c, hc, rfl, hp⟩
      · exact h.conns (by simpa [Function.update_of_ne hk] using hkey)
    · intro j c hc hp
      left
      obtain hreg | ⟨buf', he⟩ := h.registered hc hp
      · have hne : NetAddr.string c.rAddr ≠ NetAddr.string raddr := by
          intro he
          rw [he, hnone] at hreg
          cases hreg
        exact (Function.update_of_ne hne _ _).trans hreg
      · rw [hr] at he
        cases he
        exact Function.update_self ..
  | @write id buf hr =>
    have hm := h.modify id (f := fun c => { c with writes := c.writes ++ [buf] }) (fun _ => rfl)
      fun c _ => Iff.rfl
    exact hm.setReader rfl rfl (by simp [Listener.modify, hr]) (by simp) (by simp [Reader.target])
  | acceptConn hch =>
    have hm := h.advance ((hheld.queued _).mp (by rw [hch]; exact List.mem_cons_self)) (p := .taken)
      (by decide) (by decide)
    exact ⟨hm.conns, hm.registered, hm.target, hm.sent⟩
  | acceptReturn hp =>
    have hm := h.advance hp (p := .accepted) (by decide) (by decide)
    exact ⟨hm.conns, hm.registered, hm.target, hm.sent⟩
  | closeReceive hc hch =>
    have hm := h.advance ((hheld.queued _).mp (by rw [hch]; exact List.mem_cons_self))
      (p := .dropping) (by decide) (by decide)
    exact ⟨hm.conns, hm.registered, hm.target, hm.sent⟩
  | @closeDrop id c hc hheap =>
    have hp := hheld.phase_dropping hc hheap
    have hr := hord.reader_free (by rw [hc]; rfl)
    have hcell : (l.modify id fun c => { c with doneClosed := true }).heap[id]? =
        some { c with doneClosed := true } := getElem?_modify_self hheap _
    have hm := (h.modify id (f := fun c => { c with doneClosed := true }) (fun _ => rfl)
      fun c _ => Iff.rfl).remove hcell (by simp [hp]) hr
    exact ⟨hm.conns, hm.registered, hm.target, hm.sent⟩
  | connRelease hp hwg =>
    have hm := h.advance hp (p := .released) (by decide) (by decide)
    exact ⟨hm.conns, hm.registered, hm.target, hm.sent⟩
  | @connSignal id c hheap hp =>
    have hm := h.modify id (f := fun c => { c with doneClosed := true }) (fun _ => rfl)
      fun c _ => Iff.rfl
    refine hm.advance (q := .released) ?_ (by decide) (by decide)
    rw [phase_of_getElem? (getElem?_modify_self hheap _), hp]
  | connRemove hheap hp hl => exact h.remove hheap (by rw [hp]; decide) (unlocked hl).1

/-- A step keeps who holds which connection. -/
theorem Held.step (h : Held l) (ht : Transition l e l' o) : Held l' := by
  cases ht with
  | stutter => exact h
  | receive | readError | hit | miss | refuse | pass | register | closeSocket =>
    exact ⟨h.nodup, h.queued, h.dropping, h.signalled⟩
  | closeStop hc | closeSignal hc | closeLock hc | closeLeave hc | closeRelease hc =>
    refine ⟨h.nodup, h.queued, fun id => ?_, h.signalled⟩
    refine Iff.trans ?_ (h.dropping id)
    simp [hc]
  | @send raddr buf hr hroom =>
    have hnone : l.heap.length ∉ l.acceptCh := by simp [h.queued, Listener.phase]
    have hphase : ∀ (p : Phase) (id : Nat),
        ((l.heap ++ [newConn raddr])[id]?.map Conn.phase = some p ↔
          (id = l.heap.length ∧ p = .backlog) ∨ l.phase id = some p) := by
      intro p id
      simp only [Option.map_eq_some_iff, getElem?_snoc_iff, Listener.phase]
      grind [newConn]
    refine ⟨?_, fun id => ?_, fun id => ?_, ?_⟩
    · exact List.nodup_append.mpr ⟨h.nodup, by simp, by grind⟩
    · refine Iff.trans ?_ (hphase .backlog id).symm
      simp [h.queued, or_comm]
    · refine Iff.trans ?_ (hphase .dropping id).symm
      simp [h.dropping]
    · intro id c hc hd
      obtain ⟨rfl, rfl⟩ | hc := getElem?_snoc_iff.mp hc
      · cases hd
      · exact h.signalled hc hd
  | write hr =>
    refine ⟨h.nodup, fun j => ?_, fun j => ?_, ?_⟩
    · rw [phase_write]
      exact h.queued j
    · rw [phase_write]
      exact h.dropping j
    · intro j c hc hd
      obtain ⟨c₀, hc₀, rfl⟩ := getElem?_modify_iff.mp hc
      split at hd <;> simp_all [h.signalled hc₀]
  | @acceptConn id rest hch =>
    have hid : l.phase id = some .backlog := (h.queued id).mp (by simp [hch])
    have hnodup := h.nodup
    rw [hch] at hnodup
    refine ⟨(List.nodup_cons.mp hnodup).2, h.queued_tail hch (by decide), fun j => ?_, ?_⟩
    · refine (h.dropping j).trans ?_
      change _ ↔ (l.advance id .taken).phase j = some .dropping
      rw [phase_advance]
      by_cases hj : id = j
      · subst hj
        simp [hid]
      · simp [hj]
    · exact fun hc hd => h.signalled_advance hid (by simp) hc hd
  | acceptReturn hp =>
    have hm := h.advance hp (p := .accepted) (by decide) (by decide) (by simp)
    exact ⟨hm.nodup, hm.queued, hm.dropping, hm.signalled⟩
  | @closeReceive id rest hc hch =>
    have hid : l.phase id = some .backlog := (h.queued id).mp (by simp [hch])
    have hnodup := h.nodup
    rw [hch] at hnodup
    refine ⟨(List.nodup_cons.mp hnodup).2, h.queued_tail hch (by decide), fun j => ?_, ?_⟩
    · have hold := h.dropping j
      change _ ↔ (l.advance id .dropping).phase j = some .dropping
      rw [phase_advance]
      by_cases hj : id = j
      · subst hj
        simp [hid]
      · simpa [hj, hc] using hold
    · exact fun hcell hd => h.signalled_advance hid (by simp) hcell hd
  | @closeDrop id c hc hheap =>
    have hid : l.phase id = some .dropping := (h.dropping id).mp hc
    refine ⟨h.nodup, fun j => ?_, fun j => ?_, h.signalled_signal (.inr rfl)⟩
    · refine (h.queued j).trans ?_
      change _ ↔ ((l.modify id fun c => { c with doneClosed := true }).advance id .removed).phase j
        = some .backlog
      rw [phase_advance, phase_signal]
      by_cases hj : id = j
      · subst hj
        simp [hid]
      · simp [hj]
    · have hold := h.dropping j
      change _ ↔ ((l.modify id fun c => { c with doneClosed := true }).advance id .removed).phase j
        = some .dropping
      rw [phase_advance, phase_signal]
      by_cases hj : id = j
      · simp [hj]
      · simpa [hj, hc] using hold
  | connRelease hp hwg =>
    have hm := h.advance hp (p := .released) (by decide) (by decide) (by simp)
    exact ⟨hm.nodup, hm.queued, hm.dropping, hm.signalled⟩
  | connSignal hheap hp =>
    have hid := phase_of_getElem? hheap
    have hm := h.advance (hp ▸ hid) (p := .signalled) (by decide) (by decide) (by simp)
    refine ⟨hm.nodup, fun j => ?_, fun j => ?_, h.signalled_signal (.inl rfl)⟩
    · rw [phase_advance, phase_signal, ← phase_advance]
      exact hm.queued j
    · rw [phase_advance, phase_signal, ← phase_advance]
      exact hm.dropping j
  | connRemove hheap hp hl =>
    have hid := phase_of_getElem? hheap
    have hm := h.advance (hp ▸ hid) (p := .removed) (by decide) (by decide) (by simp)
    exact ⟨hm.nodup, hm.queued, hm.dropping, hm.signalled⟩

/-- A step keeps the order in which `Close` proceeds. -/
theorem Ordered.step (h : Ordered l) (ht : Transition l e l' o) : Ordered l' := by
  cases ht with
  | stutter => exact h
  | receive | closeSocket | acceptReturn | connRelease | connSignal | connRemove =>
    exact ⟨h.exclusive, h.stopped, h.undone, h.barred, h.empty⟩
  | readError | hit | refuse | register | write =>
    exact ⟨by simp [Reader.locks], h.stopped, h.undone, by simp [Reader.creates], h.empty⟩
  | miss hr hl =>
    exact ⟨fun _ => (unlocked hl).2, h.stopped, h.undone, by simp [Reader.creates], h.empty⟩
  | pass hr ha =>
    refine ⟨fun _ => h.exclusive (by rw [hr]; rfl), h.stopped, h.undone, fun hent => ?_, h.empty⟩
    -- once `listener.Close` has the lock, `accepting` is false
    have huncalled : l.closing ≠ .uncalled := by
      intro hc
      simp [hc, Closing.entered] at hent
    rw [h.stopped huncalled] at ha
    cases ha
  | send hr =>
    have hbar : ¬ l.closing.entered = true := by
      intro hent
      have := h.barred hent
      rw [hr] at this
      cases this
    refine ⟨fun _ => h.exclusive (by rw [hr]; rfl), h.stopped, h.undone,
      fun hent => absurd hent hbar, ?_⟩
    rintro (hc | hc) <;> exact absurd (by rw [hc]; rfl) hbar
  | acceptConn hch =>
    refine ⟨h.exclusive, h.stopped, h.undone, h.barred, fun hc => ?_⟩
    rw [h.empty hc] at hch
    cases hch
  | closeStop hc =>
    exact ⟨by simp [Closing.locks], fun _ => rfl, fun _ => h.undone (.inl hc),
      by simp [Closing.entered], by simp⟩
  | closeSignal hc =>
    exact ⟨by simp [Closing.locks], fun _ => h.stopped (by simp [hc]), by simp,
      by simp [Closing.entered], by simp⟩
  | closeLock hc hl =>
    have hr := (unlocked hl).1
    refine ⟨fun hlock => ?_, fun _ => h.stopped (by simp [hc]), by simp, fun _ => ?_, by simp⟩
    · rw [hr] at hlock
      cases hlock
    · cases hreader : l.reader <;> simp_all [Reader.locks, Reader.creates]
  | closeReceive hc | closeDrop hc =>
    refine ⟨fun hlock => ?_, fun _ => h.stopped (by simp [hc]), by simp, fun _ => ?_, by simp⟩
    · have := h.exclusive hlock
      rw [hc] at this
      cases this
    · exact h.barred (by rw [hc]; rfl)
  | closeLeave hc hch =>
    exact ⟨by simp [Closing.locks], fun _ => h.stopped (by simp [hc]), by simp,
      fun _ => h.barred (by rw [hc]; rfl), fun _ => hch⟩
  | closeRelease hc =>
    exact ⟨by simp [Closing.locks], fun _ => h.stopped (by simp [hc]), by simp,
      fun _ => h.barred (by rw [hc]; rfl), fun _ => h.empty (.inl hc)⟩

/-- A step keeps the counter. -/
theorem Counted.step (h : Counted l) (hheld : Held l) (ht : Transition l e l' o) : Counted l' := by
  cases ht with
  | stutter | receive | readError | hit | miss | refuse | pass | register | closeSocket => exact h
  | send => exact h.move 0 0 Iff.rfl (by simp [Listener.unclosed, newConn]) rfl
  | @write id buf hr => exact h.move 0 0 Iff.rfl (unclosed_modify id fun _ => rfl) rfl
  | acceptConn hch =>
    have hid := (hheld.queued _).mp (by rw [hch]; exact List.mem_cons_self)
    exact h.move 0 0 Iff.rfl (unclosed_advance hid) rfl
  | acceptReturn hp => exact h.move 0 1 Iff.rfl (unclosed_advance hp) rfl
  | closeStop hc | closeSignal hc | closeLock hc | closeLeave hc =>
    exact h.move 0 0 (by simp [hc]) rfl rfl
  | closeReceive hc hch =>
    have hid := (hheld.queued _).mp (by rw [hch]; exact List.mem_cons_self)
    exact h.move 0 0 (by simp [hc]) (unclosed_advance hid) rfl
  | @closeDrop id c hc hheap =>
    have hid : (l.modify id fun c => { c with doneClosed := true }).phase id = some .dropping :=
      (phase_signal id id).trans ((hheld.dropping id).mp hc)
    exact h.move 0 0 (by simp [hc])
      ((unclosed_advance hid).trans (unclosed_modify id fun _ => rfl)) rfl
  | closeRelease hc hwg =>
    have hcount := (done_eq_some hwg).1
    unfold Counted at h ⊢
    simp only [hc, reduceCtorEq, if_false, if_true] at h ⊢
    change _ = 0 + l.unclosed
    omega
  | connRelease hp hwg =>
    exact h.move 1 0 Iff.rfl (unclosed_advance hp) (done_eq_some hwg).1.symm
  | @connSignal id c hheap hp =>
    have hid : (l.modify id fun c => { c with doneClosed := true }).phase id = some .released :=
      (phase_signal id id).trans (hp ▸ phase_of_getElem? hheap)
    exact h.move 0 0 Iff.rfl ((unclosed_advance hid).trans (unclosed_modify id fun _ => rfl)) rfl
  | connRemove hheap hp =>
    have hid := phase_of_getElem? hheap
    rw [hp] at hid
    exact h.move 0 0 Iff.rfl (unclosed_advance hid) rfl

/-- The invariant of reachable listeners. -/
structure Wf (l : Listener α) : Prop where
  table : Table l
  held : Held l
  ordered : Ordered l
  counted : Counted l

/-- A step keeps the invariant. -/
theorem Wf.step (h : Wf l) (ht : Transition l e l' o) : Wf l' :=
  ⟨h.table.step h.held h.ordered ht, h.held.step ht, h.ordered.step ht, h.counted.step h.held ht⟩

/-- `Listen` returns a listener that meets the invariant. -/
theorem Wf.listen {lc : ListenConfig} (h : Udp.listen lc = some (.ok l)) : Wf l := by
  obtain ⟨_, _, _, rfl⟩ := listen_eq h
  refine ⟨⟨by simp, by simp, by simp [Reader.target], by simp⟩,
    ⟨by simp, by simp [Listener.phase], by simp [Listener.phase], by simp⟩,
    ⟨by simp [Reader.locks], by simp, by simp, by simp [Closing.entered], by simp⟩, ?_⟩
  simp [Counted, Listener.unclosed]

/-- `connWG` is positive whenever `Done` is called. -/
theorem Wf.done (h : Wf l) (hpos : l.closing ≠ .released ∨ 0 < l.unclosed) :
    ∃ wg, l.connWG.done = some wg := by
  have hcount := h.counted
  unfold Counted at hcount
  unfold WaitGroup.done
  split
  next hzero =>
    obtain hc | hpos := hpos
    · simp [hc] at hcount
      omega
    · omega
  · exact ⟨_, rfl⟩

/-- No step of a reachable listener panics. -/
theorem Wf.progress (h : Wf l) (e : Event α) : ∃ l' o, l.step e = some (l', o) := by
  cases e with
  | closeSignal =>
    simp only [Listener.step, Listener.closeSignal]
    split
    next hc => simp [h.ordered.undone (.inr hc)]
    · exact ⟨_, _, rfl⟩
  | closeDrop =>
    simp only [Listener.step, Listener.closeDrop]
    split
    next id hc =>
      obtain ⟨c, hheap, hp⟩ := Option.map_eq_some_iff.mp ((h.held.dropping id).mp hc)
      have hopen : c.doneClosed = false := by
        cases hd : c.doneClosed with
        | false => rfl
        | true => simpa [hp] using h.held.signalled hheap hd
      simp [hheap, Listener.signal, hopen]
    · exact ⟨_, _, rfl⟩
  | closeRelease =>
    simp only [Listener.step, Listener.closeRelease]
    split
    next hc =>
      obtain ⟨wg, hwg⟩ := h.done (.inl (by simp [hc]))
      simp [hwg]
    · exact ⟨_, _, rfl⟩
  | connRelease id =>
    simp only [Listener.step, Listener.connRelease]
    split
    next hp =>
      obtain ⟨wg, hwg⟩ := h.done (.inr (unclosed_pos hp))
      simp [hwg]
    · exact ⟨_, _, rfl⟩
  | connSignal id =>
    simp only [Listener.step, Listener.connSignal]
    split
    next c hheap =>
      split
      next hp =>
        have hopen : c.doneClosed = false := by
          cases hd : c.doneClosed with
          | false => rfl
          | true => simpa [hp] using h.held.signalled hheap hd
        simp [Listener.signal, hopen]
      · exact ⟨_, _, rfl⟩
    · exact ⟨_, _, rfl⟩
  | _ =>
    simp only [Listener.step, Listener.receive, Listener.readError, Listener.lookup,
      Listener.check, Listener.send, Listener.register, Listener.write, Listener.acceptConn,
      Listener.acceptReadDone, Listener.acceptDone, Listener.acceptReturn, Listener.closeStop,
      Listener.closeLock, Listener.closeSelect, Listener.connRemove, Listener.closeSocket]
    (repeat' split) <;> exact ⟨_, _, rfl⟩

/-- No interleaving panics, and the invariant holds after each. -/
theorem Wf.run (h : Wf l) (es : List (Event α)) :
    ∃ l' os, run Listener.step l es = some (l', os) ∧ Wf l' :=
  run_keeps (fun _ e hwf => by
    obtain ⟨l₁, o, hstep⟩ := hwf.progress e
    exact ⟨l₁, o, hstep, hwf.step (step_transition hstep)⟩) es h

end Steps

end PionTransport.Udp
