import PionTransport.Udp.Invariant

/-!
# How long the socket lives

`Accept` adds to `connWG` only after it has received a connection. If the last
`connWG.Done` is called in between, the socket is closed while the connection
is on its way to the caller. Otherwise the socket outlives every accepted
connection.
-/

namespace PionTransport.Udp

open PionTransport.Core

variable {α : Type}

/-- Received by `Accept` and not closed by its caller. -/
def Phase.inUse : Phase → Bool
  | .taken | .accepted => true
  | .backlog | .released | .signalled | .dropping | .removed => false

/-- The step calls `connWG.Done` and takes the counter to zero. -/
def Listener.lastDone (l : Listener α) : Event α → Bool
  | .closeRelease => l.closing = .drained ∧ l.connWG.count = 1
  | .connRelease id => l.phase id = some .accepted ∧ l.connWG.count = 1
  | _ => false

/-- The last `Done` is not called between the receive and the `Add` of an `Accept`. -/
def Claimed (l : Listener α) (e : Event α) : Prop :=
  l.lastDone e = true → ∀ c ∈ l.heap, c.phase ≠ .taken

instance (l : Listener α) (e : Event α) : Decidable (Claimed l e) :=
  inferInstanceAs (Decidable (_ → _))

/-- Once `connWG` has been zero, the listener is closed and no connection is in use. -/
structure Outlives (l : Listener α) : Prop where
  released : l.connWG.released = true →
    l.closing = .released ∧ ∀ id p, l.phase id = some p → p.inUse = false
  socket : l.pConnClosed = true → l.connWG.released = true

section Phases

variable {l : Listener α}

theorem forall_phase {P : Phase → Prop} :
    (∀ id p, l.phase id = some p → P p) ↔ ∀ c ∈ l.heap, P c.phase := by
  constructor
  · intro h c hc
    obtain ⟨id, hid⟩ := List.mem_iff_getElem?.mp hc
    exact h id c.phase (phase_of_getElem? hid)
  · intro h id p hp
    obtain ⟨c, hc, rfl⟩ := Option.map_eq_some_iff.mp hp
    exact h c (List.mem_of_getElem? hc)

/-- Moving one connection out of use. -/
theorem inUse_advance {id : Nat} {p : Phase} (hp : p.inUse = false)
    (h : ∀ j q, j ≠ id → l.phase j = some q → q.inUse = false) :
    ∀ j q, (l.advance id p).phase j = some q → q.inUse = false := by
  intro j q hq
  rw [phase_advance] at hq
  obtain ⟨q₀, hq₀, rfl⟩ := Option.map_eq_some_iff.mp hq
  split
  · exact hp
  next hj => exact h j q₀ (fun he => hj he.symm) hq₀

end Phases

section Runs

variable [NetAddr α] {l l' : Listener α} {e : Event α} {o : Outcome α}

/-- A counter of zero means that the listener is released and nothing is accepted. -/
theorem Wf.count_zero (h : Wf l) (hzero : l.connWG.count = 0) :
    l.closing = .released ∧ ∀ id, l.phase id ≠ some .accepted := by
  have hcount := h.counted
  unfold Counted at hcount
  split at hcount
  next hc =>
    refine ⟨hc, fun id hid => ?_⟩
    have := unclosed_pos hid
    omega
  · omega

/-- After `connWG` was zero, nothing is received any more. -/
theorem Outlives.stays (hwf : Wf l) (h : Outlives l) (hrel : l.connWG.released = true)
    (ht : Transition l e l' o) : Outlives l' := by
  obtain ⟨hclosing, hfree⟩ := h.released hrel
  have hempty := hwf.ordered.empty (.inr hclosing)
  have hbar := hwf.ordered.barred (by rw [hclosing]; rfl)
  have hnot : ∀ {id p}, p.inUse = true → l.phase id ≠ some p := by
    intro id p hp hid
    rw [hfree id p hid] at hp
    cases hp
  cases ht with
  | stutter => exact h
  | receive | readError | hit | miss | refuse | pass | register =>
    exact ⟨fun _ => ⟨hclosing, hfree⟩, h.socket⟩
  | closeSocket => exact ⟨fun _ => ⟨hclosing, hfree⟩, fun _ => hrel⟩
  | send hr => simp [hr, Reader.creates] at hbar
  | write hr =>
    refine ⟨fun _ => ⟨hclosing, fun j p hp => hfree j p ?_⟩, h.socket⟩
    rwa [← phase_write]
  | acceptConn hch => simp [hempty] at hch
  | acceptReturn hp => exact absurd hp (hnot rfl)
  | closeStop hc | closeSignal hc | closeLock hc | closeReceive hc | closeLeave hc | closeDrop hc
  | closeRelease hc => simp [hc] at hclosing
  | connRelease hp => exact absurd hp (hnot rfl)
  | connSignal hheap hp =>
    refine ⟨fun _ => ⟨hclosing, inUse_advance rfl fun j q _ hq => ?_⟩, h.socket⟩
    rw [phase_signal] at hq
    exact hfree j q hq
  | connRemove hheap hp hl =>
    exact ⟨fun _ => ⟨hclosing, inUse_advance rfl fun j q _ hq => hfree j q hq⟩, h.socket⟩

/-- The counter reaches zero with nothing in use. -/
theorem inUse_of_last (hwf : Wf l') (hzero : l'.connWG.count = 0)
    (hfree : ∀ id, l'.phase id ≠ some .taken) :
    l'.closing = .released ∧ ∀ id p, l'.phase id = some p → p.inUse = false := by
  obtain ⟨hclosing, hnone⟩ := hwf.count_zero hzero
  refine ⟨hclosing, fun id p hp => ?_⟩
  cases p with
  | taken => exact absurd hp (hfree id)
  | accepted => exact absurd hp (hnone id)
  | _ => rfl

/-- One step keeps the socket alive if its `Done` finds no `Accept` half way. -/
theorem Outlives.step (hwf : Wf l) (h : Outlives l) (hclaim : Claimed l e)
    (ht : Transition l e l' o) : Outlives l' := by
  cases hrel : l.connWG.released with
  | true => exact h.stays hwf hrel ht
  | false =>
    have hsock : l.pConnClosed = false := by
      cases hs : l.pConnClosed with
      | false => rfl
      | true => rw [← hrel, h.socket hs]
    have hwf' := hwf.step ht
    cases ht with
    | closeSocket hr => simp [hrel] at hr
    | @closeRelease wg hc hwg =>
      obtain ⟨hcount, hwait⟩ := done_eq_some hwg
      refine ⟨fun hr => ?_, fun hs => absurd (hsock.symm.trans hs) Bool.false_ne_true⟩
      have hzero : wg.count = 0 := by simpa [hwait, hrel] using hr
      refine inUse_of_last hwf' hzero fun id hid => ?_
      have hlast : l.lastDone .closeRelease = true := by simp [Listener.lastDone, hc, hcount, hzero]
      exact (forall_phase (P := (· ≠ .taken))).mpr (hclaim hlast) id _ hid rfl
    | @connRelease id wg hp hwg =>
      obtain ⟨hcount, hwait⟩ := done_eq_some hwg
      refine ⟨fun hr => ?_, fun hs => absurd (hsock.symm.trans hs) Bool.false_ne_true⟩
      have hzero : wg.count = 0 := by simpa [hwait, hrel] using hr
      refine inUse_of_last hwf' hzero fun j hj => ?_
      have hlast : l.lastDone (.connRelease id) = true := by
        simp [Listener.lastDone, hp, hcount, hzero]
      change (l.advance id .released).phase j = some .taken at hj
      rw [phase_advance] at hj
      obtain ⟨q, hq, he⟩ := Option.map_eq_some_iff.mp hj
      split at he
      · cases he
      · exact (forall_phase (P := (· ≠ .taken))).mpr (hclaim hlast) j q hq he
    | _ =>
      exact ⟨fun hr => absurd (hrel.symm.trans hr) Bool.false_ne_true,
        fun hs => absurd (hsock.symm.trans hs) Bool.false_ne_true⟩

/-- The socket outlives every accepted connection along runs that keep the last `Done` apart. -/
theorem Outlives.run (es : List (Event α)) {os : List (Outcome α)} (hwf : Wf l) (h : Outlives l)
    (halong : Along Listener.step Claimed l es) (hrun : run Listener.step l es = some (l', os)) :
    Outlives l' := by
  refine (keeps_along (I := fun l => Wf l ∧ Outlives l) ?_ ⟨hwf, h⟩ halong hrun).2
  rintro l e l' o ⟨hwf, h⟩ hclaim hstep
  have ht := step_transition hstep
  exact ⟨hwf.step ht, h.step hwf hclaim ht⟩

theorem done_one {wg : WaitGroup} (h : wg.count = 1) : wg.done = some ⟨0, true⟩ := by
  simp [WaitGroup.done, h]

/-- The last `Done` releases `connWG.Wait` and leaves the other connections where they are. -/
theorem step_lastDone (h : l.lastDone e = true) :
    ∃ l' o, l.step e = some (l', o) ∧ l'.connWG.released = true ∧
      ∀ id, l.phase id = some .taken → l'.phase id = some .taken := by
  cases e with
  | closeRelease =>
    simp only [Listener.lastDone, decide_eq_true_eq] at h
    refine ⟨{ l with connWG := ⟨0, true⟩, closing := .released }, .moved, ?_, rfl,
      fun id hid => hid⟩
    simp [Listener.step, Listener.closeRelease, h.1, done_one h.2]
  | connRelease id =>
    simp only [Listener.lastDone, decide_eq_true_eq] at h
    refine ⟨{ l.advance id .released with connWG := ⟨0, true⟩ }, .moved, ?_, rfl, fun j hj => ?_⟩
    · simp [Listener.step, Listener.connRelease, h.1, done_one h.2]
    · have hne : id ≠ j := by
        rintro rfl
        simp [h.1] at hj
      change (l.advance id .released).phase j = some .taken
      simp [hj, hne]
  | _ => cases h

/-- A last `Done` between the two halves of an `Accept` lets the socket be closed. -/
theorem closes_under_accept (h : ¬ Claimed l e) :
    ∃ l' os, run Listener.step l [e, .closeSocket] = some (l', os) ∧ l'.pConnClosed = true ∧
      ∃ c ∈ l'.heap, c.phase = .taken := by
  simp only [Claimed, not_forall, not_not] at h
  obtain ⟨hlast, c, hc, hp⟩ := h
  obtain ⟨l₁, o, hstep, hrel, hkeep⟩ := step_lastDone hlast
  obtain ⟨id, hid⟩ := List.mem_iff_getElem?.mp hc
  obtain ⟨c₁, hc₁, hp₁⟩ := Option.map_eq_some_iff.mp (hkeep id (hp ▸ phase_of_getElem? hid))
  refine ⟨{ l₁ with pConnClosed := true }, [o, .moved], ?_, rfl, c₁, List.mem_of_getElem? hc₁, hp₁⟩
  rw [run_cons hstep]
  simp [run, Listener.step, Listener.closeSocket, hrel]

/-- In every interleaving whose last `connWG.Done` finds no `Accept` between its receive and its
`Add`, the socket is closed only after the listener and every connection that `Accept` has received;
from any other last `Done` the socket can be closed under such a connection. -/
theorem pConn_outlives_conns {lc : ListenConfig} {l₀ : Listener α}
    (h : listen lc = some (.ok l₀)) (es : List (Event α)) :
    ∃ l os, run Listener.step l₀ es = some (l, os) ∧
      (Along Listener.step Claimed l₀ es → l.pConnClosed = true →
        l.closing = .released ∧ ∀ c ∈ l.heap, c.phase ≠ .taken ∧ c.phase ≠ .accepted) ∧
      ∀ e, ¬ Claimed l e →
        ∃ l' os', run Listener.step l [e, .closeSocket] = some (l', os') ∧ l'.pConnClosed = true ∧
          ∃ c ∈ l'.heap, c.phase = .taken := by
  have hwf := Wf.listen h
  obtain ⟨l, os, hrun, -⟩ := hwf.run es
  refine ⟨l, os, hrun, fun halong hclosed => ?_, fun e he => closes_under_accept he⟩
  have hstart : Outlives l₀ := by
    obtain ⟨_, _, _, rfl⟩ := listen_eq h
    exact ⟨by simp, by simp⟩
  have hout := hstart.run es hwf halong hrun
  obtain ⟨hclosing, hfree⟩ := hout.released (hout.socket hclosed)
  refine ⟨hclosing, (forall_phase (P := fun p => p ≠ .taken ∧ p ≠ .accepted)).mp ?_⟩
  intro id p hp
  have huse := hfree id p hp
  constructor <;> rintro rfl <;> cases huse

end Runs

/-- The read loop dispatches the first packet of a remote address. -/
def firstPacket : List (Event Vnet.Addr) :=
  [.receive [(⟨⟨10, 0, 0, 2⟩, 1234⟩, [7])], .lookup, .check, .send, .register, .write]

/-- `listener.Close` on an empty backlog. -/
def closeListener : List (Event Vnet.Addr) :=
  [.closeStop, .closeSignal, .closeLock, .closeSelect, .closeRelease]

/-- A connection is accepted, the listener and the connection are closed. -/
def wholeLife : List (Event Vnet.Addr) :=
  firstPacket ++ [.acceptConn, .acceptReturn 0] ++ closeListener ++
    [.connRelease 0, .connSignal 0, .connRemove 0, .closeSocket]

theorem pConn_outlives_first_conn :
    ∃ l os, run Listener.step defaultListener wholeLife = some (l, os) ∧ l.pConnClosed = true ∧
      l.closing = .released ∧ ∀ c ∈ l.heap, c.phase ≠ .taken ∧ c.phase ≠ .accepted := by
  obtain ⟨l, os, hrun, houtlives, -⟩ := pConn_outlives_conns listen_default wholeLife
  have hclosed := holds_of_run hrun (fun l _ => l.pConnClosed = true) (by decide +kernel)
  exact ⟨l, os, hrun, hclosed, houtlives (by decide +kernel) hclosed⟩

/-- `listener.Close` runs between the receive and the `Add` of `Accept`, and the socket is
closed. -/
def lostRace : List (Event Vnet.Addr) :=
  firstPacket ++ [.acceptConn] ++ closeListener ++ [.closeSocket, .acceptReturn 0]

/-- `Accept` returns an unclosed connection whose socket is closed already. -/
theorem accept_returns_dead_conn :
    ∃ l os, run Listener.step defaultListener lostRace = some (l, os) ∧
      os.getLast? = some (.accepted 0) ∧ l.pConnClosed = true ∧
        ∃ c ∈ l.heap, c.phase = .accepted := by
  exact exists_run (fun l os => os.getLast? = some (.accepted 0) ∧ l.pConnClosed = true ∧
    ∃ c ∈ l.heap, c.phase = .accepted) (by decide +kernel) fun _ _ _ h => h

end PionTransport.Udp
