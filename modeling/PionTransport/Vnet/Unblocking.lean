import PionTransport.Core.Potential
import PionTransport.Vnet.Mailboxes

/-!
# How reads end without a chunk

The timer of a socket answers one read for each time that it is set. `Close` closes the
channel, which the reads empty before they see that it is closed; since nothing more is
put into it, each of them ends.
-/

namespace PionTransport.Vnet.Hosts

open PionTransport.Core Sockets

/-- A read on the connection timed out. -/
def Reader.timedOut (i : Nat) (reader : Reader) : Bool :=
  reader.conn == i &&
    match reader.result with
    | some (.failed err) => err.err = .timeout
    | _ => false

/-- How many reads on a connection timed out. -/
def timeouts (h : Host) (i : Nat) : Nat := h.readers.countP (Reader.timedOut i)

/-- What the timer still has to send, and how many reads received from it. -/
def expiries (h : Host) (i : Nat) : Nat :=
  timeouts h i + if (h.boxes i).readTimer.isSome then 1 else 0

section Deadlines

variable {h h' : Host} {e : Event} {o : Outcome} {i : Nat}

theorem readers_accept (h : Host) (i : Nat) (d : Datagram) :
    (h.accept i d).readers = h.readers := by
  rcases accept_cases h i d with hsame | ⟨-, -, hput⟩
  · rw [hsame]
  · rw [hput]
    rfl

theorem readTimer_setBox {b : Mailbox} {j : Nat} (hb : b.readTimer = (h.boxes j).readTimer) :
    ((h.setBox j b).boxes i).readTimer = (h.boxes i).readTimer := by
  by_cases hi : i = j
  · subst hi
    simp only [Host.setBox, Function.update_self, hb]
  · simp only [Host.setBox, Function.update_of_ne hi]

theorem readTimer_accept (h : Host) (j : Nat) (d : Datagram) :
    ((h.accept j d).boxes i).readTimer = (h.boxes i).readTimer := by
  rcases accept_cases h j d with hsame | ⟨-, -, hput⟩
  · rw [hsame]
  · rw [hput]
    exact readTimer_setBox rfl

/-- A read returns with something else than the timer's value. -/
theorem timeouts_finish {r j size : Nat} (hr : h.readers[r]? = some ⟨j, size, none⟩)
    (result : ReadResult) (hresult : ∀ err, result = .failed err → err.err ≠ .timeout) :
    timeouts (h.finish r result) i = timeouts h i := by
  have hcount := countP_modify (p := Reader.timedOut i)
    (f := fun reader : Reader => { reader with result := some result }) hr
  have hnone : Reader.timedOut i ⟨j, size, none⟩ = false := by simp [Reader.timedOut]
  have hsome : Reader.timedOut i ⟨j, size, some result⟩ = false := by
    cases result with
    | ok bytes addr short => simp [Reader.timedOut]
    | failed err => simp [Reader.timedOut, hresult err rfl]
  simp only [hnone, hsome, Bool.false_eq_true, if_false, Nat.add_zero] at hcount
  exact hcount

/-- The timer's value is received once, unless it is set again. -/
theorem expiries_step (hvalid : h.net.udpConns.Valid) (he : ∀ t, e ≠ .setReadDeadline i t)
    (hstep : h.step e = some (h', o)) : expiries h' i ≤ expiries h i := by
  cases step_transition hvalid hstep with
  | blocked | refused | unheard | unclaimed | elapse | setRouter | send | call | found =>
    exact Nat.le_refl _
  | @setReadDeadline j t c hc =>
    have hj : i ≠ j := fun hij => he t (by rw [hij])
    unfold expiries
    simp only [Host.setTimer, Host.setBox, Function.update_of_ne hj]
    exact Nat.le_refl _
  | read _ =>
    simp [expiries, timeouts, Reader.timedOut]
  | @take r j size c d rest hr _ _ _ =>
    have hcount := timeouts_finish (h := h.taking j r d rest) (i := i) hr (d.copied size)
      (by simp [Datagram.copied])
    have htimer : ((h.taking j r d rest).boxes i).readTimer = (h.boxes i).readTimer :=
      readTimer_setBox rfl
    unfold expiries
    rw [hcount]
    change _ + (if ((h.taking j r d rest).boxes i).readTimer.isSome then 1 else 0) ≤ _
    rw [htimer]
    exact Nat.le_refl _
  | @discard r j size c d rest _ _ _ _ =>
    have htimer : ((h.taking j r d rest).boxes i).readTimer = (h.boxes i).readTimer :=
      readTimer_setBox rfl
    change timeouts h i +
      (if ((h.taking j r d rest).boxes i).readTimer.isSome then 1 else 0) ≤ _
    rw [htimer]
    exact Nat.le_refl _
  | @readClosed r j size c hr _ _ _ =>
    have hcount := timeouts_finish (i := i) hr (readError c .useClosedNetworkConn)
      (by simp [readError])
    change timeouts (h.finish r (readError c .useClosedNetworkConn)) i + _ ≤ _
    rw [hcount]
    exact Nat.le_refl _
  | @timeout r j size c due hr _ hdue _ =>
    have hcount := countP_modify (p := Reader.timedOut i)
      (f := fun reader : Reader => { reader with result := some (readError c .timeout) }) hr
    have hnone : Reader.timedOut i ⟨j, size, none⟩ = false := by simp [Reader.timedOut]
    simp only [hnone, Bool.false_eq_true, if_false, Nat.add_zero] at hcount
    unfold expiries timeouts
    simp only [Host.finish, Host.setTimer, Host.setBox]
    rw [hcount]
    by_cases hij : i = j
    · subst hij
      simp [Reader.timedOut, readError, hdue]
    · have hji : (j == i) = false := by simp [Ne.symm hij]
      simp [Reader.timedOut, readError, hji, hij]
  | deliver _ | inbound _ =>
    simp only [expiries, timeouts, readers_accept, readTimer_accept]
    exact Nat.le_refl _

end Deadlines

/-- As long as the deadline of a socket is not set again, at most one read times out, and none does
if the timer's value was received before. A read that waits when the value is there can take it. -/
theorem one_timeout_per_deadline {interfaces : List Interface} {es es' : List Event}
    {os os' : List Outcome} {h h' : Host} {i : Nat}
    (hrun : run Host.step { net := { interfaces := interfaces } } es = some (h, os))
    (hrun' : run Host.step h es' = some (h', os'))
    (hes : ∀ t, .setReadDeadline i t ∉ es') :
    timeouts h' i ≤ timeouts h i + 1 ∧
    ((h.boxes i).readTimer = none → timeouts h' i ≤ timeouts h i) ∧
    (∀ r size due, h'.readers[r]? = some ⟨i, size, none⟩ → (h'.boxes i).readTimer = some due →
      due ≤ h'.now → ∃ h'', h'.step (.timeout r) = some (h'', .moved) ∧
        (h''.boxes i).readTimer = none) := by
  have hkeeps : Posted h' ∧ expiries h' i ≤ expiries h i := by
    refine keeps_along (I := fun s => Posted s ∧ expiries s i ≤ expiries h i)
      (P := fun _ e => ∀ t, e ≠ .setReadDeadline i t) (fun hs he hstep => ?_)
      ⟨posted_run hrun, Nat.le_refl _⟩ (along_of_mem (fun e he _ t => ?_) h) hrun'
    · have hle := expiries_step hs.1.tabled.valid he hstep
      exact ⟨hs.1.step hstep, Nat.le_trans hle hs.2⟩
    · rintro rfl
      exact hes t he
  obtain ⟨h₀, hle⟩ := hkeeps
  simp only [expiries] at hle
  refine ⟨?_, fun hnone => ?_, fun r size due hr htimer hdue => ?_⟩
  · split at hle <;> split at hle <;> omega
  · rw [hnone] at hle
    simp only [Option.isSome_none, Bool.false_eq_true, if_false] at hle
    omega
  · obtain ⟨c, hc⟩ := h₀.known _ (List.mem_of_getElem? hr)
    refine ⟨(h'.setTimer i none).finish r (readError c .timeout), ?_, ?_⟩
    · simp only [Host.step, Host.move, Host.timeout, hr, hc, htimer, hdue, if_true]
    · simp only [Host.finish, Host.setTimer, Host.setBox, Function.update_self]

/-- Two reads wait when the deadline passes; the second one goes on waiting. -/
theorem one_timeout_per_deadline_two : ∃ h h' os os',
    run Host.step { net := { interfaces := newNet.interfaces } }
      (served ++ [.read 0 9, .read 0 9, .setReadDeadline 0 (some 5)]) = some (h, os) ∧
    run Host.step h [.elapse 5, .timeout 0, .timeout 1, .elapse 1000, .timeout 1] =
      some (h', os') ∧
    os' = [.moved, .moved, .blocked, .moved, .blocked] ∧ timeouts h' 0 ≤ timeouts h 0 + 1 := by
  have hends : (run Host.step { net := { interfaces := newNet.interfaces } }
      (served ++ [.read 0 9, .read 0 9, .setReadDeadline 0 (some 5)])).bind (fun r =>
        (run Host.step r.1 [.elapse 5, .timeout 0, .timeout 1, .elapse 1000, .timeout 1]).map
          Prod.snd) = some [.moved, .moved, .blocked, .moved, .blocked] := by decide +kernel
  obtain ⟨⟨h, os⟩, hrun, hrest⟩ := Option.bind_eq_some_iff.mp hends
  obtain ⟨⟨h', os'⟩, hrun', hos⟩ := Option.map_eq_some_iff.mp hrest
  have hes : ∀ t, Event.setReadDeadline 0 t ∉
      [.elapse 5, .timeout 0, .timeout 1, .elapse 1000, .timeout 1] := by simp
  exact ⟨h, h', os, os', hrun, hrun', hos, (one_timeout_per_deadline hrun hrun' hes).1⟩

/-- A read received from the channel. -/
def receives (r : Nat) (e : Event) (o : Outcome) : Bool := e = .receive r && o = .moved

/-- How often a read on a closed connection can still receive. -/
def remaining (h : Host) (i r : Nat) : Nat :=
  match h.readers[r]? with
  | some ⟨_, _, none⟩ => (h.boxes i).readCh.length + 1
  | _ => 0

section Closing

variable {h h' : Host} {e : Event} {o : Outcome} {i r size : Nat}

/-- A closed connection accepts nothing. -/
theorem boxes_accept_closed (hclosed : i ∈ h.net.closed) (j : Nat) (d : Datagram) :
    (h.accept j d).boxes i = h.boxes i := by
  rcases accept_cases h j d with hsame | ⟨hopen, -, hput⟩
  · rw [hsame]
  · have hij : i ≠ j := by
      rintro rfl
      exact hopen hclosed
    rw [hput]
    exact Function.update_of_ne hij _ _

variable {j r' : Nat}

theorem remaining_of_result {result : ReadResult}
    (hr : h.readers[r]? = some ⟨j, size, some result⟩) : remaining h i r = 0 := by
  simp [remaining, hr]

theorem remaining_of_waiting (hr : h.readers[r]? = some ⟨j, size, none⟩) :
    remaining h i r = (h.boxes i).readCh.length + 1 := by
  simp [remaining, hr]

/-- A step in which the read takes no part. -/
theorem remaining_le (h h' : Host) (hr : h'.readers[r]? = h.readers[r]?)
    (hbox : (h'.boxes i).readCh.length ≤ (h.boxes i).readCh.length) :
    remaining h' i r ≤ remaining h i r := by
  unfold remaining
  rw [hr]
  split <;> omega

theorem length_readCh_taking {d : Datagram} {rest : List Datagram}
    (hcons : (h.boxes j).readCh = d :: rest) :
    ((h.taking j r' d rest).boxes i).readCh.length ≤ (h.boxes i).readCh.length := by
  by_cases hij : i = j
  · subst hij
    rw [boxes_taking_self, hcons]
    exact Nat.le_succ _
  · rw [boxes_taking_of_ne h r' d rest hij]

theorem length_readCh_setTimer (timer : Option Int) :
    ((h.setTimer j timer).boxes i).readCh.length ≤ (h.boxes i).readCh.length := by
  by_cases hij : i = j
  · subst hij
    simp [Host.setTimer, Host.setBox]
  · simp [Host.setTimer, Host.setBox, hij]

theorem getElem?_finish_of_ne (hne : r ≠ r') (result : ReadResult) :
    (h.finish r' result).readers[r]? = h.readers[r]? := by
  simp [Host.finish, Ne.symm hne]

/-- A read on a closed connection, with what the connection accepted. -/
structure Ending (h : Host) (i r size : Nat) (accepted : List Datagram) : Prop where
  posted : Posted h
  closed : i ∈ h.net.closed
  reader : ∃ result, h.readers[r]? = some ⟨i, size, result⟩
  accepted : (h.boxes i).accepted = accepted

theorem receives_receive (r r' : Nat) : receives r (.receive r') .moved = decide (r' = r) := by
  simp [receives]

/-- A read returns, this one or another. -/
theorem remaining_finish (s : Host) {size' : Nat} (hreaders : s.readers = h.readers)
    (hr' : h.readers[r']? = some ⟨j, size', none⟩)
    (hbox : (s.boxes i).readCh.length ≤ (h.boxes i).readCh.length) (result : ReadResult) :
    (if r' = r then 1 else 0) + remaining (s.finish r' result) i r ≤ remaining h i r := by
  by_cases hrr : r' = r
  · subst hrr
    have hdone : remaining (s.finish r' result) i r' = 0 :=
      remaining_of_result ((getElem?_finish (hreaders ▸ hr')).mpr (.inl ⟨rfl, rfl⟩))
    rw [hdone, remaining_of_waiting hr', if_pos rfl]
    omega
  · have hsame : (s.finish r' result).readers[r]? = h.readers[r]? :=
      (getElem?_finish_of_ne (Ne.symm hrr) result).trans (by rw [hreaders])
    rw [if_neg hrr, Nat.zero_add]
    exact remaining_le h _ hsame hbox

/-- The read comes nearer to its end with each chunk that it receives. -/
theorem remaining_step {accepted : List Datagram} (h₀ : Ending h i r size accepted)
    (hstep : h.step e = some (h', o)) :
    (if receives r e o then 1 else 0) + remaining h' i r ≤ remaining h i r := by
  obtain ⟨result, hr⟩ := h₀.reader
  cases step_transition h₀.posted.tabled.valid hstep with
  | blocked | refused | unheard | unclaimed => simp [receives]
  | elapse | setRouter | call | send => simp [receives, remaining]
  | found hchunk =>
    have he : receives r e .moved = false := by
      cases e with
      | receive r' => cases hchunk
      | _ => rfl
    simp [he, remaining]
  | @setReadDeadline j t c hc =>
    have hle := remaining_le (r := r) h (h.setTimer j (some (h.due t))) rfl
      (length_readCh_setTimer (i := i) (some (h.due t)))
    simpa [receives] using hle
  | @read j size' c hc =>
    have hle := remaining_le (i := i) h { h with readers := h.readers ++ [⟨j, size', none⟩] }
      ((getElem?_snoc_iff.mpr (.inr hr)).trans hr.symm) (Nat.le_refl _)
    simpa [receives] using hle
  | @take r' j size' c d rest hr' _ hcons _ =>
    have hle := remaining_finish (h := h) (r := r) (h.taking j r' d rest) rfl hr'
      (length_readCh_taking (i := i) hcons) (d.copied size')
    rw [receives_receive]
    simpa using hle
  | @discard r' j size' c d rest hr' hc hcons hadmits =>
    rw [receives_receive]
    by_cases hrr : r' = r
    · subst hrr
      cases hr.symm.trans hr'
      have hafter : remaining (h.taking i r' d rest) i r' = rest.length + 1 := by
        rw [remaining_of_waiting (h := h.taking i r' d rest) hr', boxes_taking_self]
      rw [hafter, remaining_of_waiting hr', hcons]
      simp only [decide_true, if_true, List.length_cons]
      omega
    · have hle := remaining_le (r := r) h (h.taking j r' d rest) rfl
        (length_readCh_taking (i := i) hcons)
      simpa [hrr] using hle
  | readClosed hr' _ _ _ =>
    rw [receives_receive]
    simpa using remaining_finish h rfl hr' (Nat.le_refl _) _
  | @timeout r' j size' c due hr' _ _ _ =>
    have hle := remaining_finish (h := h) (r := r) (h.setTimer j none) rfl hr'
      (length_readCh_setTimer (i := i) none) (readError c .timeout)
    have hkind : receives r (.timeout r') .moved = false := rfl
    rw [hkind]
    simp only [Bool.false_eq_true, if_false]
    omega
  | @deliver w j d hw =>
    have hbox := boxes_accept_closed h₀.closed j d
    have hreaders := readers_accept h j d
    simp [receives, remaining, hbox, hreaders]
  | @inbound d c hfind =>
    have hbox := boxes_accept_closed h₀.closed c.id d
    have hreaders := readers_accept h c.id d
    simp [receives, remaining, hbox, hreaders]

theorem reader_finish {size' : Nat} (hr' : h.readers[r']? = some ⟨j, size', none⟩)
    (result : ReadResult) (hr : ∃ result, h.readers[r]? = some ⟨i, size, result⟩) :
    ∃ result', (h.finish r' result).readers[r]? = some ⟨i, size, result'⟩ := by
  obtain ⟨result₀, hr⟩ := hr
  by_cases hrr : r = r'
  · subst hrr
    cases hr.symm.trans hr'
    exact ⟨_, (getElem?_finish hr').mpr (.inl ⟨rfl, rfl⟩)⟩
  · exact ⟨result₀, (getElem?_finish_of_ne hrr result).trans hr⟩

theorem Ending.step {accepted : List Datagram} (h₀ : Ending h i r size accepted)
    (hstep : h.step e = some (h', o)) : Ending h' i r size accepted := by
  have hposted := h₀.posted.step hstep
  have ⟨_, hclosed, hreader, haccepted⟩ := h₀
  cases step_transition h₀.posted.tabled.valid hstep with
  | blocked | refused | unheard | unclaimed => exact h₀
  | elapse | setRouter | send | found => exact ⟨hposted, hclosed, hreader, haccepted⟩
  | @call e =>
    have hgrows := Grows.call h₀.posted.tabled.valid e
    exact ⟨hposted, hgrows.closed hclosed, hreader, haccepted⟩
  | setReadDeadline _ =>
    exact ⟨hposted, hclosed, hreader, (accepted_setTimer h _ _).trans haccepted⟩
  | read _ =>
    obtain ⟨result, hr⟩ := hreader
    exact ⟨hposted, hclosed, ⟨result, getElem?_snoc_iff.mpr (.inr hr)⟩, haccepted⟩
  | @take r' j size' c d rest hr' _ _ _ =>
    exact ⟨hposted, hclosed, reader_finish (h := h.taking j r' d rest) hr' _ hreader,
      (accepted_taking h j r' d rest).trans haccepted⟩
  | discard _ _ _ _ =>
    exact ⟨hposted, hclosed, hreader, (accepted_taking h _ _ _ _).trans haccepted⟩
  | readClosed hr' _ _ _ => exact ⟨hposted, hclosed, reader_finish hr' _ hreader, haccepted⟩
  | @timeout r' j size' c due hr' _ _ _ =>
    exact ⟨hposted, hclosed, reader_finish (h := h.setTimer j none) hr' _ hreader,
      (accepted_setTimer h j none).trans haccepted⟩
  | deliver | inbound _ =>
    refine ⟨hposted, ?_, ?_, ?_⟩
    · rw [net_accept]
      exact hclosed
    · rw [readers_accept]
      exact hreader
    · rw [boxes_accept_closed hclosed]
      exact haccepted

/-- A read on a closed connection can go on. -/
theorem receive_of_closed (h₀ : Posted h) (hclosed : i ∈ h.net.closed)
    (hr : h.readers[r]? = some ⟨i, size, none⟩) :
    ∃ h'', h.step (.receive r) = some (h'', .moved) := by
  obtain ⟨c, hc⟩ := h₀.known _ (List.mem_of_getElem? hr)
  cases hch : (h.boxes i).readCh with
  | nil => exact ⟨_, by simp [Host.step, Host.move, Host.receive, hr, hc, hch, hclosed]; rfl⟩
  | cons d rest =>
    simp only [Host.step, Host.move, Host.receive, hr, hc, hch]
    split <;> exact ⟨_, rfl⟩

end Closing

/-- A read that waits on a closed socket receives at most once more than the channel holds chunks,
and is never stuck before it returns; the socket accepts nothing more. Only when everything it had
accepted was received does a read report that the socket is closed, and `ReadFromUDP` then reports
that there is no address. -/
theorem close_releases_reads {interfaces : List Interface} {es es' : List Event}
    {os os' : List Outcome} {h h' : Host} {i r size : Nat}
    (hrun : run Host.step { net := { interfaces := interfaces } } es = some (h, os))
    (hclosed : i ∈ h.net.closed) (hr : h.readers[r]? = some ⟨i, size, none⟩)
    (hrun' : run Host.step h es' = some (h', os')) :
    (h'.boxes i).accepted = (h.boxes i).accepted ∧
    counted (receives r) es' os' ≤ (h.boxes i).readCh.length + 1 ∧
    (h'.readers[r]? = some ⟨i, size, none⟩ → ∃ h'', h'.step (.receive r) = some (h'', .moved)) ∧
    (∀ err, h'.readers[r]? = some ⟨i, size, some (.failed err)⟩ → err.err = .useClosedNetworkConn →
      (h'.boxes i).taken.map Prod.snd = (h'.boxes i).accepted ∧
        (ReadResult.failed err).readFromUDP = (-1, none, some .notUDPAddress)) := by
  have hstart : Ending h i r size (h.boxes i).accepted :=
    ⟨posted_run hrun, hclosed, ⟨none, hr⟩, rfl⟩
  obtain ⟨hend, hcount⟩ := counted_le_of_potential (receives r) (fun h' => remaining h' i r)
    (I := fun h' => Ending h' i r size (h.boxes i).accepted)
    (fun h₀ hs => ⟨h₀.step hs, remaining_step h₀ hs⟩) hstart hrun'
  refine ⟨hend.accepted, ?_, receive_of_closed hend.posted hend.closed, fun err hr' herr => ?_⟩
  · rw [remaining_of_waiting hr] at hcount
    omega
  · obtain ⟨c, -, ha⟩ := hend.posted.answered hr'
    refine ⟨?_, rfl⟩
    rw [(hend.posted.boxes i).order]
    generalize hresult : ReadResult.failed err = result at ha
    cases ha with
    | chunk _ _ => cases hresult
    | timeout =>
      cases hresult
      cases herr
    | closed _ hempty => rw [hempty, List.append_nil]

/-- The server is closed with one chunk in its channel; the first of two reads still gets it. -/
theorem close_releases_reads_two : ∃ h h' os os',
    run Host.step { net := { interfaces := newNet.interfaces } }
      (served ++ [.write 1 "1" [1, 2, 3], .deliver 0, .read 0 9, .read 0 9, .call (.close 0)]) =
        some (h, os) ∧
    run Host.step h [.write 1 "2" [4], .receive 0, .receive 1] = some (h', os') ∧
    h'.readers.map Reader.result = [some (.ok [1, 2, 3] ⟨IP.v4 127 0 0 1, 81⟩ false),
      some (.failed ⟨"read", "udp", ⟨IP.v4 127 0 0 1, 80⟩, .useClosedNetworkConn⟩)] ∧
    (h'.boxes 0).accepted = (h.boxes 0).accepted ∧
    counted (receives 1) [.write 1 "2" [4], .receive 0, .receive 1] os' ≤ 2 := by
  have hends : (run Host.step { net := { interfaces := newNet.interfaces } }
      (served ++ [.write 1 "1" [1, 2, 3], .deliver 0, .read 0 9, .read 0 9, .call (.close 0)])).bind
        (fun r => (run Host.step r.1 [.write 1 "2" [4], .receive 0, .receive 1]).map fun r' =>
          (r.1.readers[1]?, decide (0 ∈ r.1.net.closed), (r.1.boxes 0).readCh.length,
            r'.1.readers.map Reader.result)) =
      some (some ⟨0, 9, none⟩, true, 1, [some (.ok [1, 2, 3] ⟨IP.v4 127 0 0 1, 81⟩ false),
        some (.failed ⟨"read", "udp", ⟨IP.v4 127 0 0 1, 80⟩, .useClosedNetworkConn⟩)]) := by
    decide +kernel
  obtain ⟨⟨h, os⟩, hrun, hrest⟩ := Option.bind_eq_some_iff.mp hends
  obtain ⟨⟨h', os'⟩, hrun', hh⟩ := Option.map_eq_some_iff.mp hrest
  simp only [Prod.mk.injEq] at hh
  have hreleases := close_releases_reads hrun (of_decide_eq_true hh.2.1) hh.1 hrun'
  rw [hh.2.2.1] at hreleases
  exact ⟨h, h', os, os', hrun, hrun', hh.2.2.2, hreleases.1, hreleases.2.1⟩

end PionTransport.Vnet.Hosts
