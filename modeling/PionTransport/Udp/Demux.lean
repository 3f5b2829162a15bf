import PionTransport.Udp.Invariant

/-!
# Demultiplexing

The outcomes of a run say which packets `getConn` has looked up and which keys
were removed. The writes to a connection are the packets of its address from
the one that created it until the removal of its key.
-/

namespace PionTransport.Udp

open PionTransport.Core

variable {α : Type}

/-- The packets of one address that are looked up before its key is removed. -/
def packets [NetAddr α] (key : String) : List (Outcome α) → List (List UInt8)
  | [] => []
  | .looked raddr buf :: os =>
    if NetAddr.string raddr = key then buf :: packets key os else packets key os
  | .removed raddr :: os => if NetAddr.string raddr = key then [] else packets key os
  | _ :: os => packets key os

/-- The outcome concerns `conns`: a lookup or a removal. -/
def Outcome.keyed : Outcome α → Bool
  | .looked .. | .removed _ => true
  | _ => false

/-- The packet that `getConn` has found for a connection and `dispatchMsg` has not yet written. -/
def Reader.pending (id : Nat) : Reader α → List (List UInt8)
  | .sent _ j buf | .found j buf => if j = id then [buf] else []
  | _ => []

/-- The packet for which `getConn` has found no connection and has made none yet. -/
def Reader.dispatching : Reader α → Option (α × List UInt8)
  | .missed raddr buf | .admitted raddr buf => some (raddr, buf)
  | _ => none

theorem locks_of_dispatching {r : Reader α} {msg : α × List UInt8}
    (h : r.dispatching = some msg) : r.locks = true := by
  cases r <;> first | rfl | cases h

/-- In the backlog, with an `Accept` call, or accepted before the removal of its key. -/
def Listener.Holds (l : Listener α) (id : Nat) (c : Conn α) : Prop :=
  id ∈ l.acceptCh ∨ c.phase = .taken ∨ c.phase = .accepted ∨ c.phase = .released ∨
    c.phase = .signalled

section Registry

variable [NetAddr α] {l : Listener α}

variable {id : Nat}

theorem Wf.holds_iff (h : Wf l) {c : Conn α} (hc : l.heap[id]? = some c) :
    l.Holds id c ↔ c.phase ≠ .removed ∧ l.closing ≠ .dropping id := by
  have hp := phase_of_getElem? hc
  have hdrop : l.closing = .dropping id ↔ c.phase = .dropping := by simp [h.held.dropping, hp]
  simp only [Listener.Holds, h.held.queued, hp, Ne, hdrop]
  cases c.phase <;> simp

/-- A registered connection has the address of its key and is held, if only by `listener.Close`. -/
theorem Wf.conns_held (h : Wf l) {key : String} (hkey : l.conns key = some id) :
    ∃ c, l.heap[id]? = some c ∧ NetAddr.string c.rAddr = key ∧
      (l.Holds id c ∨ l.closing = .dropping id) := by
  obtain ⟨c, hc, hk, hp⟩ := h.table.conns hkey
  refine ⟨c, hc, hk, ?_⟩
  rw [h.holds_iff hc]
  tauto

/-- A held connection is registered, if not by the `getConn` that has just sent it. -/
theorem Wf.held_registered (h : Wf l) {c : Conn α} (hc : l.heap[id]? = some c)
    (hheld : l.Holds id c) :
    l.conns (NetAddr.string c.rAddr) = some id ∨ ∃ buf, l.reader = .sent c.rAddr id buf :=
  h.table.registered hc ((h.holds_iff hc).mp hheld).1

/-- While `connLock` is free, `conns` holds exactly the held connections. -/
theorem Wf.conns_iff (h : Wf l) (hl : l.locked = false) (key : String) (id : Nat) :
    l.conns key = some id ↔
      ∃ c, l.heap[id]? = some c ∧ NetAddr.string c.rAddr = key ∧ l.Holds id c := by
  obtain ⟨hreader, hclosing⟩ := unlocked hl
  constructor
  · intro hkey
    obtain ⟨c, hc, hk, hheld | hdrop⟩ := h.conns_held hkey
    · exact ⟨c, hc, hk, hheld⟩
    · simp [hdrop, Closing.locks] at hclosing
  · rintro ⟨c, hc, rfl, hheld⟩
    obtain hreg | ⟨buf, hr⟩ := h.held_registered hc hheld
    · exact hreg
    · simp [hr, Reader.locks] at hreader

end Registry

section Deliveries

variable [NetAddr α] {l l' : Listener α} {e : Event α} {o : Outcome α} {id : Nat} {c : Conn α}

/-- The writes to a connection, with the one that is still to come. -/
def Listener.inbox (l : Listener α) (id : Nat) (c : Conn α) : List (List UInt8) :=
  c.writes ++ l.reader.pending id

/-- What one step does to a connection. -/
structure Delivers (l l' : Listener α) (o : Outcome α) (id : Nat) (c c' : Conn α) : Prop where
  rAddr : c'.rAddr = c.rAddr
  removed : c'.phase = .removed ↔ c.phase = .removed ∨
    ∃ raddr, o = .removed raddr ∧ NetAddr.string raddr = NetAddr.string c.rAddr
  inbox : l'.inbox id c' = l.inbox id c ++
    if c.phase = .removed then [] else packets (NetAddr.string c.rAddr) [o]

theorem packets_of_not_keyed {key : String} (h : o.keyed = false) (os : List (Outcome α)) :
    packets key (o :: os) = packets key os := by
  cases o <;> first | rfl | cases h

/-- A step that neither looks up nor removes a key delivers nothing. -/
theorem Delivers.quiet {c' : Conn α} (hrAddr : c'.rAddr = c.rAddr) (hwrites : c'.writes = c.writes)
    (hphase : c'.phase = .removed ↔ c.phase = .removed)
    (hpending : l'.reader.pending id = l.reader.pending id) (ho : o.keyed = false) :
    Delivers l l' o id c c' where
  rAddr := hrAddr
  removed := by
    rw [hphase]
    refine (or_iff_left ?_).symm
    rintro ⟨raddr, rfl, -⟩
    cases ho
  inbox := by
    rw [packets_of_not_keyed ho]
    simp [Listener.inbox, packets, hwrites, hpending]

variable {j : Nat}

/-- A change of one connection that keeps its address, its writes and its removal. -/
theorem delivers_modify {f : Conn α → Conn α} (hc : l.heap[id]? = some c)
    (hheap : l'.heap = l.heap.modify j f) (hrAddr : (f c).rAddr = c.rAddr)
    (hwrites : (f c).writes = c.writes)
    (hphase : j = id → ((f c).phase = .removed ↔ c.phase = .removed))
    (hpending : l'.reader.pending id = l.reader.pending id) (ho : o.keyed = false) :
    ∃ c', l'.heap[id]? = some c' ∧ Delivers l l' o id c c' := by
  refine ⟨_, by rw [hheap]; exact getElem?_modify_iff.mpr ⟨c, hc, rfl⟩, ?_⟩
  split
  next hj => exact .quiet hrAddr hwrites (hphase hj) hpending ho
  · exact .quiet rfl rfl Iff.rfl hpending ho

/-- Moving a connection between phases before its removal. -/
theorem delivers_advance {p q : Phase} (hc : l.heap[id]? = some c)
    (hheap : l'.heap = (l.advance j p).heap) (hj : l.phase j = some q) (hq : q ≠ .removed)
    (hp : p ≠ .removed) (hreader : l'.reader = l.reader) (ho : o.keyed = false) :
    ∃ c', l'.heap[id]? = some c' ∧ Delivers l l' o id c c' := by
  refine delivers_modify hc hheap rfl rfl ?_ (by rw [hreader]) ho
  rintro rfl
  rw [phase_of_getElem? hc, Option.some.injEq] at hj
  simp only [hp, hj, hq]

/-- Outside of `getConn` a connection that is not removed is registered. -/
theorem Table.own (h : Table l) (hr : l.reader.locks = false) (hc : l.heap[id]? = some c)
    (hp : c.phase ≠ .removed) : l.conns (NetAddr.string c.rAddr) = some id := by
  obtain hreg | ⟨buf, he⟩ := h.registered hc hp
  · exact hreg
  · simp [he, Reader.locks] at hr

/-- A lookup delivers its packet to the connection of its address. -/
theorem delivers_lookup {raddr : α} {buf : List UInt8} (h : Table l) (hc : l.heap[id]? = some c)
    (hr : l.reader = .idle) (hheap : l'.heap = l.heap)
    (hpending : l'.reader.pending id =
      if l.conns (NetAddr.string raddr) = some id then [buf] else []) :
    ∃ c', l'.heap[id]? = some c' ∧ Delivers l l' (.looked raddr buf) id c c' := by
  refine ⟨c, by rw [hheap, hc], rfl, by simp, ?_⟩
  have hidle : l.reader.pending id = [] := by rw [hr]; rfl
  rw [Listener.inbox, Listener.inbox, hpending, hidle, List.append_nil]
  congr 1
  by_cases hp : c.phase = .removed
  · have hne : l.conns (NetAddr.string raddr) ≠ some id := by
      intro hkey
      obtain ⟨c', hc', -, hp'⟩ := h.conns hkey
      rw [hc] at hc'
      cases hc'
      exact hp' hp
    rw [if_neg hne, if_pos hp]
  · have hown := h.own (by rw [hr]; rfl) hc hp
    have hiff : l.conns (NetAddr.string raddr) = some id ↔
        NetAddr.string raddr = NetAddr.string c.rAddr := by
      constructor
      · intro hkey
        obtain ⟨c', hc', hk, -⟩ := h.conns hkey
        rw [hc] at hc'
        cases hc'
        exact hk.symm
      · intro he
        rw [he, hown]
    simp only [hp, if_false, hiff, packets]

/-- A removal ends the deliveries to one connection and touches no other. -/
theorem delivers_remove {d : Conn α} {f : Conn α → Conn α} (h : Table l)
    (hr : l.reader.locks = false) (hd : l.heap[j]? = some d) (hlive : d.phase ≠ .removed)
    (hc : l.heap[id]? = some c) (hheap : l'.heap = l.heap.modify j f)
    (hf : (f c).rAddr = c.rAddr ∧ (f c).writes = c.writes ∧ (f c).phase = .removed)
    (hreader : l'.reader = l.reader) :
    ∃ c', l'.heap[id]? = some c' ∧ Delivers l l' (.removed d.rAddr) id c c' := by
  have hnone : packets (NetAddr.string c.rAddr) [.removed d.rAddr] = [] := by simp [packets]
  refine ⟨_, by rw [hheap]; exact getElem?_modify_iff.mpr ⟨c, hc, rfl⟩, ?_⟩
  split
  next hj =>
    subst hj
    rw [hc] at hd
    cases hd
    refine ⟨hf.1, by simp [hf.2.2], ?_⟩
    simp [hnone, Listener.inbox, hf.2.1, hreader]
  next hj =>
    refine ⟨rfl, ⟨.inl, ?_⟩, by simp [hnone, Listener.inbox, hreader]⟩
    rintro (hp | ⟨raddr, he, hk⟩)
    · exact hp
    · cases he
      by_contra hp
      have hown := h.own hr hd hlive
      rw [hk, h.own hr hc hp] at hown
      exact hj (Option.some.inj hown).symm

theorem Wf.delivers (h : Wf l) (ht : Transition l e l' o) (hc : l.heap[id]? = some c) :
    ∃ c', l'.heap[id]? = some c' ∧ Delivers l l' o id c c' := by
  cases ht with
  | stutter ho =>
    refine ⟨c, hc, .quiet rfl rfl Iff.rfl rfl ?_⟩
    cases o <;> first | rfl | cases ho
  | receive | closeStop | closeSignal | closeLock | closeLeave | closeRelease | closeSocket =>
    exact ⟨c, hc, .quiet rfl rfl Iff.rfl rfl rfl⟩
  | readError hr | pass hr | register hr =>
    exact ⟨c, hc, .quiet rfl rfl Iff.rfl (by rw [hr]; rfl) rfl⟩
  | refuse href =>
    refine ⟨c, hc, .quiet rfl rfl Iff.rfl ?_ rfl⟩
    cases href with
    | closed hr | filtered hr | full hr => rw [hr]; rfl
  | hit hr hl hkey | miss hr hl hkey =>
    refine delivers_lookup h.table hc hr rfl ?_
    simp [Reader.pending, hkey]
  | send hr hroom =>
    have hlt := (List.getElem?_eq_some_iff.mp hc).1
    refine ⟨c, getElem?_snoc_iff.mpr (.inr hc), .quiet rfl rfl Iff.rfl ?_ rfl⟩
    rw [hr]
    simp [Reader.pending, Nat.ne_of_gt hlt]
  | write hr =>
    refine ⟨_, getElem?_modify_iff.mpr ⟨c, hc, rfl⟩, ?_⟩
    split
    next hj => exact ⟨rfl, by simp, by simp [Listener.inbox, Reader.pending, hr, hj, packets]⟩
    next hj => exact ⟨rfl, by simp, by simp [Listener.inbox, Reader.pending, hr, hj, packets]⟩
  | acceptConn hch =>
    have hj := (h.held.queued _).mp (by rw [hch]; exact List.mem_cons_self)
    exact delivers_advance hc rfl hj (by decide) (p := .taken) (by decide) rfl rfl
  | acceptReturn hj =>
    exact delivers_advance hc rfl hj (by decide) (p := .accepted) (by decide) rfl rfl
  | closeReceive hclosing hch =>
    have hj := (h.held.queued _).mp (by rw [hch]; exact List.mem_cons_self)
    exact delivers_advance hc rfl hj (by decide) (p := .dropping) (by decide) rfl rfl
  | connRelease hj =>
    exact delivers_advance hc rfl hj (by decide) (p := .released) (by decide) rfl rfl
  | connSignal hd hp =>
    refine delivers_modify hc (List.modify_modify_eq ..) rfl rfl ?_ rfl rfl
    rintro rfl
    rw [hc] at hd
    cases hd
    simp [hp]
  | connRemove hd hp hl =>
    exact delivers_remove h.table (unlocked hl).1 hd (by simp [hp]) hc rfl ⟨rfl, rfl, rfl⟩ rfl
  | closeDrop hclosing hd =>
    have hp := h.held.phase_dropping hclosing hd
    have hfree := h.ordered.reader_free (by rw [hclosing]; rfl)
    exact delivers_remove h.table hfree hd (by simp [hp]) hc (List.modify_modify_eq ..)
      ⟨rfl, rfl, rfl⟩ rfl

/-- A packet sequence splits at its first outcome unless that removes the key. -/
theorem packets_cons {key : String}
    (h : ¬ ∃ raddr, o = .removed raddr ∧ NetAddr.string raddr = key) (os : List (Outcome α)) :
    packets key (o :: os) = packets key [o] ++ packets key os := by
  cases o with
  | looked raddr buf =>
    simp only [packets]
    split <;> rfl
  | removed raddr =>
    have hne : NetAddr.string raddr ≠ key := fun he => h ⟨raddr, rfl, he⟩
    simp [packets, hne]
  | _ => rfl

/-- A run delivers to a connection the packets of its address until the removal of its key. -/
theorem run_delivers (h : Wf l) {es : List (Event α)} {os : List (Outcome α)}
    (hrun : run Listener.step l es = some (l', os)) (hc : l.heap[id]? = some c) :
    ∃ c', l'.heap[id]? = some c' ∧ c'.rAddr = c.rAddr ∧ l'.inbox id c' = l.inbox id c ++
      if c.phase = .removed then [] else packets (NetAddr.string c.rAddr) os := by
  induction hrun using run_induct generalizing c with
  | nil => exact ⟨c, hc, rfl, by simp [packets]⟩
  | @cons _ _ _ o _ os' hstep _ ih =>
    have ht := step_transition hstep
    obtain ⟨c₁, hc₁, hdel⟩ := h.delivers ht hc
    obtain ⟨c', hc', hrAddr, hinbox⟩ := ih (h.step ht) hc₁
    refine ⟨c', hc', hrAddr.trans hdel.rAddr, ?_⟩
    rw [hinbox, hdel.inbox, hdel.rAddr, List.append_assoc]
    congr 1
    by_cases hp : c.phase = .removed
    · simp [hp, hdel.removed.mpr (.inl hp)]
    · by_cases hrem : ∃ raddr, o = .removed raddr ∧
          NetAddr.string raddr = NetAddr.string c.rAddr
      · rw [if_neg hp, if_neg hp, if_pos (hdel.removed.mpr (.inr hrem))]
        obtain ⟨raddr, rfl, hk⟩ := hrem
        simp [packets, hk]
      · have hp₁ : c₁.phase ≠ .removed := by
          rw [Ne, hdel.removed, not_or]
          exact ⟨hp, hrem⟩
        rw [if_neg hp, if_neg hp, if_neg hp₁, packets_cons hrem os']

/-- A new connection comes from a packet that `getConn` is dispatching. -/
theorem created_of_fresh (ht : Transition l e l' o) (hnone : l.heap[id]? = none)
    (hc : l'.heap[id]? = some c) :
    ∃ buf, l.reader = .admitted c.rAddr buf ∧ o = .created id c.rAddr buf ∧
      c.phase ≠ .removed ∧ l'.inbox id c = [buf] := by
  have hmodify : ∀ {j : Nat} {f : Conn α → Conn α} {d : Conn α},
      (l.heap.modify j f)[id]? ≠ some d := by
    intro j f d he
    obtain ⟨c₀, hc₀, -⟩ := getElem?_modify_iff.mp he
    rw [hnone] at hc₀
    cases hc₀
  cases ht with
  | @send raddr buf hr hroom =>
    obtain ⟨rfl, rfl⟩ | hc := getElem?_snoc_iff.mp hc
    · exact ⟨buf, hr, rfl, by simp [newConn], by simp [Listener.inbox, newConn, Reader.pending]⟩
    · rw [hnone] at hc
      cases hc
  | stutter | receive | readError | hit | miss | refuse | pass | register | closeStop | closeSignal
  | closeLock | closeLeave | closeRelease | closeSocket =>
    cases hnone.symm.trans hc
  | write | acceptConn | acceptReturn | closeReceive | connRelease | connRemove =>
    exact absurd hc hmodify
  | closeDrop | connSignal =>
    obtain ⟨d, hd, -⟩ := getElem?_modify_iff.mp hc
    exact absurd hd hmodify

/-- The packet that `getConn` is dispatching is the latest one looked up. -/
theorem Ordered.dispatching (h : Ordered l) (ht : Transition l e l' o) {raddr : α}
    {buf : List UInt8} (hd : l'.reader.dispatching = some (raddr, buf)) :
    l.reader.dispatching = some (raddr, buf) ∧ o.keyed = false ∨ o = .looked raddr buf := by
  cases ht with
  | stutter ho =>
    refine .inl ⟨hd, ?_⟩
    cases o <;> first | rfl | cases ho
  | readError | hit | refuse | send | register | write => cases hd
  | miss =>
    cases hd
    exact .inr rfl
  | pass hr =>
    cases hd
    exact .inl ⟨by rw [hr]; rfl, rfl⟩
  | closeDrop hc =>
    exact absurd (h.reader_free (by rw [hc]; rfl)) (ne_false_of_eq_true (locks_of_dispatching hd))
  | connRemove _ _ hl =>
    exact absurd (unlocked hl).1 (ne_false_of_eq_true (locks_of_dispatching hd))
  | _ => exact .inl ⟨hd, rfl⟩

/-- Every connection was created by a packet of its address, and has since been given exactly the
packets of its address that were looked up before the removal of its key. -/
theorem run_creates (h : Wf l) {es : List (Event α)} {os : List (Outcome α)}
    (hrun : run Listener.step l es = some (l', os)) (hnone : l.heap[id]? = none)
    (hc : l'.heap[id]? = some c) :
    ∃ mid post buf, (∀ o ∈ mid, o.keyed = false) ∧
      l'.inbox id c = buf :: packets (NetAddr.string c.rAddr) post ∧
      (l.reader.dispatching = some (c.rAddr, buf) ∧ os = mid ++ .created id c.rAddr buf :: post ∨
        ∃ pre, os = pre ++ .looked c.rAddr buf :: (mid ++ .created id c.rAddr buf :: post)) := by
  induction hrun using run_induct with
  | nil => cases hnone.symm.trans hc
  | @cons _ _ l₁ o _ os' hstep hrest ih =>
    have ht := step_transition hstep
    cases hc₁ : l₁.heap[id]? with
    | some c₁ =>
      obtain ⟨buf, hr, rfl, hp, hinbox⟩ := created_of_fresh ht hnone hc₁
      obtain ⟨c', hc', hrAddr, hdel⟩ := run_delivers (h.step ht) hrest hc₁
      rw [hc] at hc'
      cases hc'
      rw [if_neg hp, hinbox] at hdel
      refine ⟨[], os', buf, by simp, ?_, .inl ⟨?_, ?_⟩⟩
      · rw [hdel, hrAddr]
        rfl
      · rw [hr, hrAddr]
        rfl
      · rw [hrAddr]
        rfl
    | none =>
      obtain ⟨mid, post, buf, hmid, hinbox, hsplit⟩ := ih (h.step ht) hc₁
      obtain ⟨hd, rfl⟩ | ⟨pre, rfl⟩ := hsplit
      · obtain ⟨hd, ho⟩ | rfl := h.ordered.dispatching ht hd
        · refine ⟨o :: mid, post, buf, ?_, hinbox, .inl ⟨hd, rfl⟩⟩
          simpa [ho] using hmid
        · exact ⟨mid, post, buf, hmid, hinbox, .inr ⟨[], rfl⟩⟩
      · exact ⟨mid, post, buf, hmid, hinbox, .inr ⟨o :: pre, rfl⟩⟩

end Deliveries

section Creation

variable [NetAddr α] {l l' : Listener α} {e : Event α} {o : Outcome α}

variable {raddr : α} {buf : List UInt8}

/-- `getConn` may create a connection only after it has read `accepting` and asked the filter. -/
theorem admitted_of_step (ht : Transition l e l' o) (hr : l'.reader = .admitted raddr buf) :
    l.reader = .admitted raddr buf ∨
      e = .check ∧ l.reader = .missed raddr buf ∧ l.accepting = true ∧ l.passes buf = true := by
  cases ht with
  | pass hmissed ha hp =>
    cases hr
    exact .inr ⟨rfl, hmissed, ha, hp⟩
  | readError | hit | miss | refuse | send | register | write => cases hr
  | _ => exact .inl hr

/-- The packet has passed `accepting` and the filter in this run, and `getConn` has held `connLock`
since. -/
def Admitted (l : Listener α) (es : List (Event α)) (raddr : α) (buf : List UInt8) : Prop :=
  ∃ es₁ es₂ l₁ l₂ os₁ o, es = es₁ ++ .check :: es₂ ∧
    run Listener.step l es₁ = some (l₁, os₁) ∧ l₁.step .check = some (l₂, o) ∧
    l₁.reader = .missed raddr buf ∧ l₁.accepting = true ∧ l₁.passes buf = true ∧
    Along Listener.step (fun k _ => k.reader = .admitted raddr buf) l₂ es₂

/-- A packet that may create a connection was admitted in the run, or before it. -/
theorem admitted_of_run {es : List (Event α)} {os : List (Outcome α)}
    (hrun : run Listener.step l es = some (l', os)) (hr : l'.reader = .admitted raddr buf) :
    Admitted l es raddr buf ∨ l.reader = .admitted raddr buf ∧
      Along Listener.step (fun k _ => k.reader = .admitted raddr buf) l es := by
  induction hrun using run_induct with
  | nil => exact .inr ⟨hr, trivial⟩
  | @cons l e l₁ o es _ hstep _ ih =>
    obtain ⟨es₁, es₂, k₁, k₂, os₁, o₁, rfl, hrun₁, hrest₁⟩ | ⟨hr₁, halong⟩ := ih
    · exact .inl ⟨e :: es₁, es₂, k₁, k₂, o :: os₁, o₁, rfl, run_cons_some hstep hrun₁, hrest₁⟩
    · obtain hadm | ⟨rfl, hmissed, ha, hp⟩ := admitted_of_step (step_transition hstep) hr₁
      · refine .inr ⟨hadm, hadm, ?_⟩
        rw [hstep]
        exact halong
      · exact .inl ⟨[], es, l, l₁, [], o, rfl, rfl, hstep, hmissed, ha, hp, halong⟩

/-- Only `send` creates a connection. -/
theorem created_of_step (ht : Transition l e l' o) (hne : l'.heap.length ≠ l.heap.length) :
    ∃ raddr buf, l.reader = .admitted raddr buf ∧ l.acceptCh.length < l.backlog ∧
      l'.heap = l.heap ++ [newConn raddr] ∧ o = .created l.heap.length raddr buf := by
  cases ht with
  | @send raddr buf hr hroom => exact ⟨raddr, buf, hr, hroom, rfl, rfl⟩
  | _ => simp [Listener.advance, Listener.modify, Listener.remove] at hne

/-- A refusal leaves the listener as it is, with the read loop ready for the next message. -/
theorem refused_of_step (ht : Transition l e l' o) {err : Option UdpError} (ho : o = .refused err) :
    Refuses l e err ∧ l' = { l with reader := .idle } := by
  cases ht with
  | refuse href =>
    cases ho
    exact ⟨href, rfl⟩
  | stutter hs =>
    subst ho
    cases hs
  | _ => cases ho

/-- The steps of one `dispatchMsg`; those that do not apply are blocked. -/
def dispatchMsg : List (Event α) := [.lookup, .check, .send, .register, .write]

/-- What `dispatchMsg` does when no other goroutine runs in between. -/
def Listener.dispatched (l : Listener α) (raddr : α) (buf : List UInt8) : Listener α :=
  match l.conns (NetAddr.string raddr) with
  | some id => l.modify id fun c => { c with writes := c.writes ++ [buf] }
  | none =>
    if l.accepting ∧ l.passes buf ∧ l.acceptCh.length < l.backlog then
      { l with
        heap := l.heap ++ [{ newConn raddr with writes := [buf] }]
        acceptCh := l.acceptCh ++ [l.heap.length]
        conns := Function.update l.conns (NetAddr.string raddr) (some l.heap.length) }
    else l

theorem dispatched_new (hkey : l.conns (NetAddr.string raddr) = none)
    (hpass : l.accepting ∧ l.passes buf ∧ l.acceptCh.length < l.backlog) :
    l.dispatched raddr buf = { l with
      heap := l.heap ++ [{ newConn raddr with writes := [buf] }]
      acceptCh := l.acceptCh ++ [l.heap.length]
      conns := Function.update l.conns (NetAddr.string raddr) (some l.heap.length) } := by
  rw [Listener.dispatched, hkey]
  exact if_pos hpass

theorem dispatched_refused (hkey : l.conns (NetAddr.string raddr) = none)
    (hrefuse : ¬ (l.accepting ∧ l.passes buf ∧ l.acceptCh.length < l.backlog)) :
    l.dispatched raddr buf = l := by
  rw [Listener.dispatched, hkey]
  exact if_neg hrefuse

/-- With the read loop between messages, the steps inside `dispatchMsg` are blocked. -/
theorem run_idle (hr : l.reader = .idle) (es : List (Event α))
    (hes : ∀ e ∈ es, e = .check ∨ e = .send ∨ e = .register ∨ e = .write) :
    ∃ os, run Listener.step l es = some (l, os) := by
  induction es with
  | nil => exact ⟨[], rfl⟩
  | cons e es ih =>
    obtain ⟨os, hrun⟩ := ih fun e he => hes e (List.mem_cons_of_mem _ he)
    have hstep : l.step e = some (l, .blocked) := by
      obtain rfl | rfl | rfl | rfl := hes e List.mem_cons_self <;>
        simp [Listener.step, Listener.check, Listener.send, Listener.register, Listener.write,
          Listener.blocked, hr]
    exact ⟨.blocked :: os, run_cons_some hstep hrun⟩

/-- After the message is found to be of a new address, `dispatchMsg` creates or refuses. -/
theorem run_missed (hr : l.reader = .missed raddr buf)
    (hkey : l.conns (NetAddr.string raddr) = none) :
    ∃ os, run Listener.step l [.check, .send, .register, .write] =
      some ({ l.dispatched raddr buf with reader := .idle }, os) := by
  by_cases ha : l.accepting = true
  · by_cases hp : l.passes buf = true
    · have hcheck : l.step .check = some ({ l with reader := .admitted raddr buf }, .moved) := by
        simp [Listener.step, Listener.check, hr, ha, hp]
      rw [run_cons hcheck]
      by_cases hroom : l.acceptCh.length < l.backlog
      · refine ⟨[.moved, .created l.heap.length raddr buf, .moved, .moved], ?_⟩
        rw [dispatched_new hkey ⟨ha, hp, hroom⟩]
        simp [run, Listener.step, Listener.send, Listener.register, Listener.write,
          Listener.modify, hroom, modify_snoc, newConn]
      · have hsend : Listener.step { l with reader := .admitted raddr buf } .send =
            some ({ l with reader := .idle }, .refused (some .listenQueueExceeded)) := by
          simp [Listener.step, Listener.send, hroom]
        obtain ⟨os, hrun⟩ := run_idle (l := { l with reader := .idle }) rfl [.register, .write]
          (by simp)
        refine ⟨.moved :: .refused (some .listenQueueExceeded) :: os, ?_⟩
        rw [run_cons hsend, hrun]
        rw [dispatched_refused hkey (by simp [hroom])]
        rfl
    · have hcheck : l.step .check = some ({ l with reader := .idle }, .refused none) := by
        simp [Listener.step, Listener.check, hr, ha, hp]
      obtain ⟨os, hrun⟩ := run_idle (l := { l with reader := .idle }) rfl
        [.send, .register, .write] (by simp)
      refine ⟨.refused none :: os, ?_⟩
      rw [run_cons hcheck, hrun]
      rw [dispatched_refused hkey (by simp [hp])]
      rfl
  · have hcheck : l.step .check =
        some ({ l with reader := .idle }, .refused (some .closedListener)) := by
      simp [Listener.step, Listener.check, hr, ha]
    obtain ⟨os, hrun⟩ := run_idle (l := { l with reader := .idle }) rfl
      [.send, .register, .write] (by simp)
    refine ⟨.refused (some .closedListener) :: os, ?_⟩
    rw [run_cons hcheck, hrun]
    rw [dispatched_refused hkey (by simp [ha])]
    rfl

theorem run_dispatchMsg {rest : List (α × List UInt8)} (hl : l.locked = false)
    (hr : l.reader = .idle) (hb : l.batch = (raddr, buf) :: rest) :
    ∃ os, run Listener.step l dispatchMsg =
      some ({ l.dispatched raddr buf with batch := rest, reader := .idle }, os) := by
  cases hkey : l.conns (NetAddr.string raddr) with
  | some id =>
    simp [dispatchMsg, run, Listener.step, Listener.lookup, Listener.check, Listener.send,
      Listener.register, Listener.write, Listener.blocked, Listener.dispatched, Listener.modify,
      hr, hb, hl, hkey]
  | none =>
    have hlook : l.step .lookup = some ({ l with batch := rest, reader := .missed raddr buf },
        .looked raddr buf) := by
      simp [Listener.step, Listener.lookup, hr, hb, hl, hkey]
    obtain ⟨os, hrun⟩ := run_missed (l := { l with batch := rest, reader := .missed raddr buf })
      rfl hkey
    refine ⟨.looked raddr buf :: os, ?_⟩
    rw [dispatchMsg, run_cons hlook, hrun]
    -- the message and the place of the reader are not read
    have hsame :
        Listener.dispatched { l with batch := rest, reader := .missed raddr buf } raddr buf =
          { l.dispatched raddr buf with batch := rest, reader := .missed raddr buf } := by
      by_cases hpass : l.accepting ∧ l.passes buf ∧ l.acceptCh.length < l.backlog
      · rw [dispatched_new hkey hpass]
        exact dispatched_new hkey hpass
      · rw [dispatched_refused hkey hpass]
        exact dispatched_refused hkey hpass
    rw [hsame]
    rfl

end Creation

section Demultiplexing

variable [NetAddr α]

/-- The writes to a connection, with the one still to come, are the packets of its address that
were looked up from its creating packet on until its key was removed. -/
def Served (l : Listener α) (os : List (Outcome α)) (id : Nat) (c : Conn α) : Prop :=
  ∃ pre mid post buf, os = pre ++ .looked c.rAddr buf :: (mid ++ .created id c.rAddr buf :: post) ∧
    (∀ o ∈ mid, o.keyed = false) ∧
    c.writes ++ l.reader.pending id = buf :: packets (NetAddr.string c.rAddr) post

/-- In every interleaving: `conns` holds exactly the held connections, each under its own address,
up to the one that the holder of `connLock` is registering or removing; connections are created only
by admitted packets of unregistered addresses while the backlog has room, and a refused packet
changes nothing; and every connection is served the packets of its address. -/
theorem demultiplexes_packets {lc : ListenConfig} {l₀ : Listener α}
    (h : listen lc = some (.ok l₀)) (es : List (Event α)) :
    ∃ l os, run Listener.step l₀ es = some (l, os) ∧
      (l.locked = false → ∀ key id, l.conns key = some id ↔
        ∃ c, l.heap[id]? = some c ∧ NetAddr.string c.rAddr = key ∧ l.Holds id c) ∧
      (∀ key id, l.conns key = some id → ∃ c, l.heap[id]? = some c ∧
        NetAddr.string c.rAddr = key ∧ (l.Holds id c ∨ l.closing = .dropping id)) ∧
      (∀ id c, l.heap[id]? = some c → l.Holds id c →
        l.conns (NetAddr.string c.rAddr) = some id ∨ ∃ buf, l.reader = .sent c.rAddr id buf) ∧
      (∀ e l' o, l.step e = some (l', o) → l'.heap.length ≠ l.heap.length →
        ∃ raddr buf, Admitted l₀ es raddr buf ∧ l.conns (NetAddr.string raddr) = none ∧
          l.acceptCh.length < l.backlog ∧ l'.heap = l.heap ++ [newConn raddr] ∧
          o = .created l.heap.length raddr buf) ∧
      (∀ e l' err, l.step e = some (l', .refused err) →
        Refuses l e err ∧ l' = { l with reader := .idle }) ∧
      (∀ raddr buf rest, l.locked = false → l.reader = .idle → l.batch = (raddr, buf) :: rest →
        ∃ os', run Listener.step l dispatchMsg =
          some ({ l.dispatched raddr buf with batch := rest, reader := .idle }, os')) ∧
      ∀ id c, l.heap[id]? = some c → Served l os id c := by
  have hwf := Wf.listen h
  obtain ⟨l, os, hrun, hwf'⟩ := hwf.run es
  refine ⟨l, os, hrun, fun hl => hwf'.conns_iff hl, fun _ _ => hwf'.conns_held,
    fun _ _ => hwf'.held_registered, ?_, ?_, fun _ _ _ => run_dispatchMsg, ?_⟩
  · intro e l' o hstep hne
    obtain ⟨raddr, buf, hr, hroom, hheap, ho⟩ := created_of_step (step_transition hstep) hne
    refine ⟨raddr, buf, ?_, hwf'.table.target (by rw [hr]; rfl), hroom, hheap, ho⟩
    obtain hadm | ⟨hr₀, -⟩ := admitted_of_run hrun hr
    · exact hadm
    · obtain ⟨_, _, _, rfl⟩ := listen_eq h
      cases hr₀
  · intro e l' err hstep
    exact refused_of_step (step_transition hstep) rfl
  · intro id c hc
    have hnone : l₀.heap[id]? = none := by
      obtain ⟨_, _, _, rfl⟩ := listen_eq h
      rfl
    obtain ⟨mid, post, buf, hmid, hinbox, ⟨hd, -⟩ | ⟨pre, hos⟩⟩ := run_creates hwf hrun hnone hc
    · obtain ⟨_, _, _, rfl⟩ := listen_eq h
      cases hd
    · exact ⟨pre, mid, post, buf, hos, hmid, hinbox⟩

end Demultiplexing

/-- Three packets of two remote addresses, dispatched one after the other. -/
def twoRemotes : List (Event Vnet.Addr) :=
  [.receive [(⟨⟨10, 0, 0, 2⟩, 1234⟩, [7])]] ++ dispatchMsg ++
  [.receive [(⟨⟨10, 0, 0, 3⟩, 1234⟩, [8])]] ++ dispatchMsg ++
  [.receive [(⟨⟨10, 0, 0, 2⟩, 1234⟩, [9])]] ++ dispatchMsg

theorem demultiplexes_two_remotes :
    ∃ l os, run Listener.step defaultListener twoRemotes = some (l, os) ∧
      l.heap.map Conn.writes = [[[7], [9]], [[8]]] ∧
      ∀ id c, l.heap[id]? = some c → Served l os id c := by
  obtain ⟨l, os, hrun, -, -, -, -, -, -, hserved⟩ := demultiplexes_packets listen_default twoRemotes
  exact ⟨l, os, hrun, holds_of_run hrun
    (fun l _ => l.heap.map Conn.writes = [[[7], [9]], [[8]]]) (by decide +kernel), hserved⟩

end PionTransport.Udp
