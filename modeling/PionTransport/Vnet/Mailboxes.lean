import PionTransport.Vnet.Host

/-!
# What the reads of a stack return

A socket's channel is filled by whoever finds the socket in the table and emptied
by its reads, so what was put into it is what was received and what it still holds, in
one order. A read keeps the first chunk from the right source and returns.
-/

namespace PionTransport.Vnet.Hosts

open PionTransport.Core Sockets

/-- Connections stay, and closed ones stay closed. -/
structure Grows (n n' : Net) : Prop where
  conns : n.conns <+: n'.conns
  closed : n.closed ⊆ n'.closed

namespace Grows

variable {n n' : Net}

/-- A socket stays what it was. -/
theorem getElem? (h : Grows n n') {i : Nat} {c : UDPConn} (hc : n.conns[i]? = some c) :
    n'.conns[i]? = some c := by
  obtain ⟨rest, hrest⟩ := h.conns
  rw [← hrest]
  exact (List.getElem?_append_left (List.getElem?_eq_some_iff.mp hc).1).trans hc

/-- A call of the stack only adds sockets and closes some. -/
theorem call (hvalid : n.udpConns.Valid) (e : Sockets.Event) : Grows n (n.call e).1 := by
  have hchanges := call_changes hvalid e
  generalize (n.call e).1 = n' at hchanges
  cases hchanges with
  | same | addressed => exact ⟨List.prefix_rfl, Finset.Subset.refl _⟩
  | opened => exact ⟨List.prefix_append _ _, Finset.Subset.refl _⟩
  | closed => exact ⟨List.prefix_rfl, Finset.subset_insert _ _⟩

end Grows

/-- The connection is bound to the destination. -/
def Receives (c : UDPConn) (dst : UDPAddr) : Prop :=
  c.locAddr.port = dst.port ∧ (dst.ip.isUnspecified = true ∨ c.locAddr.ip.serves dst.ip = true)

variable {c : UDPConn}

/-- What is found in the table is an open connection that is bound to the destination. -/
theorem find_receives {n : Net} (h : Tabled n) {dst : UDPAddr}
    (hfind : (n.udpConns.find dst).2 = some c) :
    n.conns[c.id]? = some c ∧ c.id ∉ n.closed ∧ Receives c dst := by
  have hmem : c ∈ n.udpConns.conns ∧ Receives c dst := by
    unfold UDPConnMap.find at hfind
    split at hfind
    next conns hlookup =>
      have hport : ∀ {d : UDPConn}, d ∈ conns → d ∈ n.udpConns.conns ∧ d.locAddr.port = dst.port :=
        fun hd => (h.valid.mem_group hlookup).mp hd
      split at hfind
      next hip =>
        cases conns with
        | nil => cases hfind
        | cons d rest =>
          cases hfind
          obtain ⟨hd, hd'⟩ := hport List.mem_cons_self
          exact ⟨hd, hd', .inl hip⟩
      · obtain ⟨hd, hd'⟩ := hport (List.mem_of_find?_eq_some hfind)
        have hserves := List.find?_some (p := fun c : UDPConn => c.locAddr.ip.serves dst.ip) hfind
        exact ⟨hd, hd', .inr hserves⟩
    · cases hfind
  obtain ⟨hconn, hclosed⟩ := (h.table c).mp hmem.1
  obtain ⟨i, hi⟩ := List.mem_iff_getElem?.mp hconn
  rw [h.ids hi]
  exact ⟨hi, h.ids hi ▸ hclosed, hmem.2⟩

/-- What holds of the channel of a connection. -/
structure Filed (n : Net) (i : Nat) (b : Mailbox) : Prop where
  order : b.accepted = b.taken.map Prod.snd ++ b.readCh
  room : b.readCh.length ≤ maxReadQueueSize
  aimed : ∀ d ∈ b.accepted, ∃ c, n.conns[i]? = some c ∧ Receives c d.dst

namespace Filed

variable {n n' : Net} {i : Nat} {b : Mailbox} {d : Datagram}

/-- New sockets leave a mailbox in order. -/
theorem grow (h : Filed n i b) (hgrows : Grows n n') : Filed n' i b := by
  refine ⟨h.order, h.room, fun d hd => ?_⟩
  obtain ⟨c, hc, haimed⟩ := h.aimed d hd
  exact ⟨c, hgrows.getElem? hc, haimed⟩

/-- Taking the first datagram. -/
theorem take (h : Filed n i b) {rest : List Datagram} (hcons : b.readCh = d :: rest) (r : Nat) :
    Filed n i { b with readCh := rest, taken := b.taken ++ [(r, d)] } := by
  have hroom := h.room
  rw [hcons, List.length_cons] at hroom
  refine ⟨?_, Nat.le_of_succ_le hroom, h.aimed⟩
  change b.accepted = (b.taken ++ [(r, d)]).map Prod.snd ++ rest
  rw [h.order, hcons, List.map_append, List.append_assoc]
  rfl

/-- Putting a datagram for the socket last. -/
theorem put (h : Filed n i b) {c : UDPConn} (hc : n.conns[i]? = some c) (haimed : Receives c d.dst)
    (hroom : b.readCh.length < maxReadQueueSize) :
    Filed n i { b with readCh := b.readCh ++ [d], accepted := b.accepted ++ [d] } := by
  refine ⟨?_, ?_, fun d' hd' => ?_⟩
  · change b.accepted ++ [d] = b.taken.map Prod.snd ++ (b.readCh ++ [d])
    rw [h.order, List.append_assoc]
  · rw [List.length_append]
    exact hroom
  · rcases List.mem_append.mp hd' with hd' | hd'
    · exact h.aimed d' hd'
    · rw [List.mem_singleton.mp hd']
      exact ⟨c, hc, haimed⟩

end Filed

/-- What the call `r` returned, with a buffer of some size, on a connection. -/
inductive Answered (closed : Finset Nat) (b : Mailbox) (r i size : Nat) (c : UDPConn) :
    ReadResult → Prop
  | chunk {d : Datagram} : (r, d) ∈ b.taken → admits c d = true →
      Answered closed b r i size c (d.copied size)
  | timeout : Answered closed b r i size c (readError c .timeout)
  | closed : i ∈ closed → b.readCh = [] →
      Answered closed b r i size c (readError c .useClosedNetworkConn)

/-- An answer stays right. -/
theorem Answered.imp {closed closed' : Finset Nat} {b b' : Mailbox} {r i size : Nat}
    {result : ReadResult} (h : Answered closed b r i size c result) (hclosed : closed ⊆ closed')
    (htaken : ∀ t ∈ b.taken, t ∈ b'.taken) (hempty : i ∈ closed → b.readCh = [] → b'.readCh = []) :
    Answered closed' b' r i size c result := by
  cases h with
  | chunk ht ha => exact .chunk (htaken _ ht) ha
  | timeout => exact .timeout
  | closed hi hb => exact .closed (hclosed hi) (hempty hi hb)

/-- The calls that returned a chunk of the connection, in the order of the chunks. -/
def returning (c : UDPConn) (b : Mailbox) : List Nat :=
  (b.taken.filter fun t => admits c t.2).map Prod.fst

/-- The invariant of a stack. -/
structure Posted (h : Host) : Prop where
  tabled : Tabled h.net
  boxes : ∀ i, Filed h.net i (h.boxes i)
  writers : ∀ w ∈ h.writers, ∃ c, h.net.conns[w.conn]? = some c ∧ Receives c w.chunk.dst
  answered : ∀ {r i size result}, h.readers[r]? = some ⟨i, size, some result⟩ →
    ∃ c, h.net.conns[i]? = some c ∧ Answered h.net.closed (h.boxes i) r i size c result
  kept : ∀ {i c r d}, h.net.conns[i]? = some c → (r, d) ∈ (h.boxes i).taken → admits c d = true →
    ∃ size, h.readers[r]? = some ⟨i, size, some (d.copied size)⟩
  once : ∀ {i c}, h.net.conns[i]? = some c → (returning c (h.boxes i)).Nodup
  known : ∀ reader ∈ h.readers, ∃ c, h.net.conns[reader.conn]? = some c

section Invariant

variable {h h' : Host} {e : Event} {o : Outcome} {i r size : Nat} {c : UDPConn} {d : Datagram}

/-- A new host meets the invariant. -/
theorem posted_new (interfaces : List Interface) :
    Posted { net := { interfaces := interfaces } } where
  tabled := tabled_new interfaces
  boxes i := ⟨rfl, Nat.zero_le _, fun d hd => by cases hd⟩
  writers w hw := by cases hw
  answered hr := by cases hr
  kept hc := by cases hc
  once hc := by cases hc
  known reader hr := by cases hr

/-- Accepting a datagram leaves the sockets. -/
@[simp] theorem net_accept (h : Host) (i : Nat) (d : Datagram) : (h.accept i d).net = h.net := by
  rcases accept_cases h i d with hsame | ⟨-, -, hput⟩
  · rw [hsame]
  · rw [hput]
    rfl

/-- The connection of a channel from which something was received. -/
theorem Filed.conn_of_taken {n : Net} {b : Mailbox} (h : Filed n i b) {t : Nat × Datagram}
    (ht : t ∈ b.taken) : ∃ c, n.conns[i]? = some c := by
  have hmem : t.2 ∈ b.accepted := by
    rw [h.order]
    exact List.mem_append_left _ (List.mem_map_of_mem ht)
  obtain ⟨c, hc, -⟩ := h.aimed t.2 hmem
  exact ⟨c, hc⟩

/-- A call of the stack keeps the invariant. -/
theorem Posted.call (h₀ : Posted h) (e : Sockets.Event) :
    Posted { h with net := (h.net.call e).1 } := by
  have hgrows := Grows.call h₀.tabled.valid e
  have hold : ∀ {i : Nat} {c : UDPConn} {t : Nat × Datagram}, (h.net.call e).1.conns[i]? = some c →
      t ∈ (h.boxes i).taken → h.net.conns[i]? = some c := by
    intro i c t hc ht
    obtain ⟨c', hc'⟩ := (h₀.boxes i).conn_of_taken ht
    rw [hgrows.getElem? hc'] at hc
    rw [hc', hc]
  refine ⟨h₀.tabled.call e, fun i => (h₀.boxes i).grow hgrows, fun w hw => ?_, fun hr => ?_,
    fun hc ht ha => h₀.kept (hold hc ht) ht ha, fun {i c} hc => ?_, fun reader hr => ?_⟩
  · obtain ⟨c, hc, haimed⟩ := h₀.writers w hw
    exact ⟨c, hgrows.getElem? hc, haimed⟩
  · obtain ⟨c, hc, ha⟩ := h₀.answered hr
    exact ⟨c, hgrows.getElem? hc, ha.imp hgrows.closed (fun _ ht => ht) fun _ hb => hb⟩
  · cases htaken : (h.boxes i).taken with
    | nil =>
      unfold returning
      dsimp only
      rw [htaken]
      exact List.nodup_nil
    | cons t rest =>
      have ht : t ∈ (h.boxes i).taken := by
        rw [htaken]
        exact List.mem_cons_self
      exact h₀.once (hold hc ht)
  · obtain ⟨c, hc⟩ := h₀.known reader hr
    exact ⟨c, hgrows.getElem? hc⟩

/-- A channel or a timer changes and nothing is received. -/
theorem Posted.setBox (h₀ : Posted h) {b : Mailbox} (hfiled : Filed h.net i b)
    (htaken : b.taken = (h.boxes i).taken)
    (hempty : i ∈ h.net.closed → (h.boxes i).readCh = [] → b.readCh = []) :
    Posted (h.setBox i b) := by
  have hsame : ∀ j, ((h.setBox i b).boxes j).taken = (h.boxes j).taken := by
    intro j
    by_cases hj : j = i
    · subst hj
      simp only [Host.setBox, Function.update_self, htaken]
    · simp only [Host.setBox, Function.update_of_ne hj]
  refine ⟨h₀.tabled, fun j => ?_, h₀.writers, fun {r j size result} hr => ?_,
    fun hc ht => h₀.kept hc (hsame _ ▸ ht), fun {j c} hc => ?_, h₀.known⟩
  · by_cases hj : j = i
    · subst hj
      simp only [Host.setBox, Function.update_self]
      exact hfiled
    · simp only [Host.setBox, Function.update_of_ne hj]
      exact h₀.boxes j
  · obtain ⟨c, hc, ha⟩ := h₀.answered hr
    refine ⟨c, hc, ha.imp (Finset.Subset.refl _) (fun t ht => (hsame j).symm ▸ ht) fun hj hb => ?_⟩
    by_cases hji : j = i
    · subst hji
      simp only [Host.setBox, Function.update_self]
      exact hempty hj hb
    · simp only [Host.setBox, Function.update_of_ne hji]
      exact hb
  · unfold returning
    rw [hsame j]
    exact h₀.once hc

/-- A read deadline keeps the invariant. -/
theorem Posted.setTimer (h₀ : Posted h) (i : Nat) (timer : Option Int) :
    Posted (h.setTimer i timer) := by
  have hfiled := h₀.boxes i
  exact h₀.setBox ⟨hfiled.order, hfiled.room, hfiled.aimed⟩ rfl fun _ hb => hb

/-- `onInboundChunk` of a connection that is bound to the destination. -/
theorem Posted.accept (h₀ : Posted h) (hc : h.net.conns[i]? = some c)
    (haimed : Receives c d.dst) : Posted (h.accept i d) := by
  rcases accept_cases h i d with hsame | ⟨hopen, hroom, hput⟩
  · rw [hsame]
    exact h₀
  · rw [hput]
    refine h₀.setBox ((h₀.boxes i).put hc haimed hroom) rfl fun hclosed => ?_
    exact absurd hclosed hopen

/-- A read that is still waiting returned nothing. -/
theorem Posted.notMem_returning (h₀ : Posted h) (hc : h.net.conns[i]? = some c)
    (hr : h.readers[r]? = some ⟨i, size, none⟩) : r ∉ returning c (h.boxes i) := by
  intro hmem
  obtain ⟨⟨r', d⟩, ht, rfl⟩ := List.mem_map.mp hmem
  obtain ⟨htaken, hadmits⟩ := List.mem_filter.mp ht
  obtain ⟨size', hr'⟩ := h₀.kept hc htaken hadmits
  rw [hr] at hr'
  cases hr'

variable {result : ReadResult}

/-- The reads after one of them returned. -/
theorem getElem?_finish (hr : h.readers[r]? = some ⟨i, size, none⟩) {r' : Nat} {reader : Reader} :
    (h.finish r result).readers[r']? = some reader ↔
      (r' = r ∧ reader = ⟨i, size, some result⟩) ∨ (r' ≠ r ∧ h.readers[r']? = some reader) :=
  getElem?_modify_of_some hr

/-- The readers are still those of sockets. -/
theorem Posted.known_finish (h₀ : Posted h) (hr : h.readers[r]? = some ⟨i, size, none⟩)
    (result : ReadResult) :
    ∀ reader ∈ (h.finish r result).readers, ∃ c, h.net.conns[reader.conn]? = some c := by
  intro reader hmem
  obtain ⟨r', hr'⟩ := List.mem_iff_getElem?.mp hmem
  rcases (getElem?_finish hr).mp hr' with ⟨-, rfl⟩ | ⟨-, hr'⟩
  · exact h₀.known ⟨i, size, none⟩ (List.mem_of_getElem? hr)
  · exact h₀.known _ (List.mem_of_getElem? hr')

/-- A read returns something else than a chunk it receives now. -/
theorem Posted.finish (h₀ : Posted h) (hr : h.readers[r]? = some ⟨i, size, none⟩)
    (hc : h.net.conns[i]? = some c) (ha : Answered h.net.closed (h.boxes i) r i size c result) :
    Posted (h.finish r result) := by
  refine ⟨h₀.tabled, h₀.boxes, h₀.writers, fun hr' => ?_, fun hc' ht hadmits => ?_, h₀.once,
    h₀.known_finish hr result⟩
  · rcases (getElem?_finish hr).mp hr' with ⟨rfl, heq⟩ | ⟨-, hr'⟩
    · cases heq
      exact ⟨c, hc, ha⟩
    · exact h₀.answered hr'
  · obtain ⟨size', hr'⟩ := h₀.kept hc' ht hadmits
    refine ⟨size', (getElem?_finish hr).mpr (.inr ⟨?_, hr'⟩)⟩
    rintro rfl
    rw [hr] at hr'
    cases hr'

/-- The mailbox a reader takes from. -/
theorem boxes_taking_self (h : Host) (i r : Nat) (d : Datagram) (rest : List Datagram) :
    (h.taking i r d rest).boxes i =
      { h.boxes i with readCh := rest, taken := (h.boxes i).taken ++ [(r, d)] } :=
  Function.update_self i _ _

variable {j : Nat}

/-- The other mailboxes. -/
theorem boxes_taking_of_ne (h : Host) (r : Nat) (d : Datagram) (rest : List Datagram) (hj : j ≠ i) :
    (h.taking i r d rest).boxes j = h.boxes j :=
  Function.update_of_ne hj _ _

/-- A read deadline accepts nothing. -/
theorem accepted_setTimer (h : Host) (j : Nat) (timer : Option Int) :
    ((h.setTimer j timer).boxes i).accepted = (h.boxes i).accepted := by
  by_cases hij : i = j
  · subst hij
    simp only [Host.setTimer, Host.setBox, Function.update_self]
  · simp only [Host.setTimer, Host.setBox, Function.update_of_ne hij]

/-- Taking accepts nothing. -/
theorem accepted_taking (h : Host) (j r : Nat) (d : Datagram) (rest : List Datagram) :
    ((h.taking j r d rest).boxes i).accepted = (h.boxes i).accepted := by
  by_cases hij : i = j
  · subst hij
    rw [boxes_taking_self]
  · rw [boxes_taking_of_ne h r d rest hij]

variable {rest : List Datagram}

/-- What has been taken after one more datagram. -/
theorem mem_taken_taking {t : Nat × Datagram} :
    t ∈ ((h.taking i r d rest).boxes j).taken ↔
      t ∈ (h.boxes j).taken ∨ (j = i ∧ t = (r, d)) := by
  by_cases hj : j = i
  · subst hj
    rw [boxes_taking_self]
    simp
  · rw [boxes_taking_of_ne h r d rest hj]
    simp [hj]

/-- Taking keeps every mailbox in order. -/
theorem Posted.filed_taking (h₀ : Posted h) (hcons : (h.boxes i).readCh = d :: rest) (j : Nat) :
    Filed h.net j ((h.taking i r d rest).boxes j) := by
  by_cases hj : j = i
  · subst hj
    rw [boxes_taking_self]
    exact (h₀.boxes j).take hcons r
  · rw [boxes_taking_of_ne h r d rest hj]
    exact h₀.boxes j

/-- What was returned before stays so. -/
theorem Posted.answered_taking (h₀ : Posted h) (hcons : (h.boxes i).readCh = d :: rest)
    {r' size' : Nat} (hr' : h.readers[r']? = some ⟨j, size', some result⟩) :
    ∃ c, h.net.conns[j]? = some c ∧
      Answered h.net.closed ((h.taking i r d rest).boxes j) r' j size' c result := by
  obtain ⟨c, hc, ha⟩ := h₀.answered hr'
  refine ⟨c, hc, ha.imp (Finset.Subset.refl _) (fun t ht => mem_taken_taking.mpr (.inl ht)) ?_⟩
  intro _ hempty
  by_cases hj : j = i
  · subst hj
    rw [hcons] at hempty
    cases hempty
  · rw [boxes_taking_of_ne h r d rest hj]
    exact hempty

/-- Discarding a datagram of another peer keeps the invariant. -/
theorem Posted.discard (h₀ : Posted h) (hc : h.net.conns[i]? = some c)
    (hcons : (h.boxes i).readCh = d :: rest) (hadmits : admits c d = false) :
    Posted (h.taking i r d rest) := by
  refine ⟨h₀.tabled, h₀.filed_taking hcons, h₀.writers, h₀.answered_taking hcons,
    fun {j c' r' d'} hc' ht ha => ?_, fun {j c'} hc' => ?_, h₀.known⟩
  · rcases mem_taken_taking.mp ht with ht | ⟨rfl, heq⟩
    · exact h₀.kept hc' ht ha
    · cases heq
      cases hc.symm.trans hc'
      rw [hadmits] at ha
      cases ha
  · by_cases hj : j = i
    · subst hj
      cases hc.symm.trans hc'
      have hsame : returning c ((h.taking j r d rest).boxes j) = returning c (h.boxes j) := by
        rw [boxes_taking_self]
        simp [returning, hadmits]
      rw [hsame]
      exact h₀.once hc
    · rw [boxes_taking_of_ne h r d rest hj]
      exact h₀.once hc'

/-- Returning a datagram keeps the invariant. -/
theorem Posted.take (h₀ : Posted h) (hr : h.readers[r]? = some ⟨i, size, none⟩)
    (hc : h.net.conns[i]? = some c) (hcons : (h.boxes i).readCh = d :: rest)
    (hadmits : admits c d = true) :
    Posted ((h.taking i r d rest).finish r (d.copied size)) := by
  have hr₁ : (h.taking i r d rest).readers[r]? = some ⟨i, size, none⟩ := hr
  refine ⟨h₀.tabled, h₀.filed_taking hcons, h₀.writers, fun hr' => ?_,
    fun {j c' r' d'} hc' ht ha => ?_, fun {j c'} hc' => ?_, h₀.known_finish hr _⟩
  · rcases (getElem?_finish hr₁).mp hr' with ⟨rfl, heq⟩ | ⟨-, hr'⟩
    · cases heq
      exact ⟨c, hc, .chunk (mem_taken_taking.mpr (.inr ⟨rfl, rfl⟩)) hadmits⟩
    · exact h₀.answered_taking hcons hr'
  · rcases mem_taken_taking.mp ht with ht | ⟨rfl, heq⟩
    · obtain ⟨size', hr'⟩ := h₀.kept hc' ht ha
      refine ⟨size', (getElem?_finish hr₁).mpr (.inr ⟨?_, hr'⟩)⟩
      rintro rfl
      rw [hr] at hr'
      cases hr'
    · cases heq
      exact ⟨size, (getElem?_finish hr₁).mpr (.inl ⟨rfl, rfl⟩)⟩
  · change (returning c' ((h.taking i r d rest).boxes j)).Nodup
    by_cases hj : j = i
    · subst hj
      cases hc.symm.trans hc'
      have happend : returning c ((h.taking j r d rest).boxes j) =
          returning c (h.boxes j) ++ [r] := by
        rw [boxes_taking_self]
        simp [returning, hadmits]
      rw [happend, List.nodup_append_comm, List.singleton_append, List.nodup_cons]
      exact ⟨h₀.notMem_returning hc hr, h₀.once hc⟩
    · rw [boxes_taking_of_ne h r d rest hj]
      exact h₀.once hc'

/-- A new call of `ReadFrom` keeps the invariant. -/
theorem Posted.read (h₀ : Posted h) (hc : h.net.conns[i]? = some c) (size : Nat) :
    Posted { h with readers := h.readers ++ [⟨i, size, none⟩] } := by
  refine ⟨h₀.tabled, h₀.boxes, h₀.writers, fun hr => ?_, fun hc ht ha => ?_, h₀.once,
    fun reader hr => ?_⟩
  · rcases getElem?_snoc_iff.mp hr with ⟨-, heq⟩ | hr
    · cases heq
    · exact h₀.answered hr
  · obtain ⟨size', hr⟩ := h₀.kept hc ht ha
    exact ⟨size', getElem?_snoc_iff.mpr (.inr hr)⟩
  · rcases List.mem_append.mp hr with hr | hr
    · exact h₀.known reader hr
    · rw [List.mem_singleton.mp hr]
      exact ⟨c, hc⟩

/-- A step keeps the invariant. -/
theorem Posted.step (h₀ : Posted h) (hstep : h.step e = some (h', o)) : Posted h' := by
  cases step_transition h₀.tabled.valid hstep with
  | blocked | refused | unheard | unclaimed => exact h₀
  | elapse | setRouter | send =>
    exact ⟨h₀.tabled, h₀.boxes, h₀.writers, h₀.answered, h₀.kept, h₀.once, h₀.known⟩
  | call => exact h₀.call _
  | setReadDeadline _ => exact h₀.setTimer _ _
  | read hc => exact h₀.read hc _
  | take hr hc hcons hadmits => exact h₀.take hr hc hcons hadmits
  | discard _ hc hcons hadmits => exact h₀.discard hc hcons hadmits
  | readClosed hr hc hempty hclosed => exact h₀.finish hr hc (.closed hclosed hempty)
  | timeout hr hc _ _ => exact (h₀.setTimer _ none).finish hr hc .timeout
  | found _ _ hfind =>
    obtain ⟨hc, -, haimed⟩ := find_receives h₀.tabled hfind
    refine ⟨h₀.tabled, h₀.boxes, fun w hw => ?_, h₀.answered, h₀.kept, h₀.once, h₀.known⟩
    rcases List.mem_append.mp hw with hw | hw
    · exact h₀.writers w hw
    · rw [List.mem_singleton.mp hw]
      exact ⟨_, hc, haimed⟩
  | @deliver w i d hw =>
    obtain ⟨c, hc, haimed⟩ := h₀.writers _ (List.mem_of_getElem? hw)
    have h₁ : Posted (h.accept i d) := h₀.accept hc haimed
    refine ⟨h₁.tabled, h₁.boxes, fun w' hw' => ?_, h₁.answered, h₁.kept, h₁.once, h₁.known⟩
    obtain ⟨j, hj⟩ := List.mem_iff_getElem?.mp hw'
    obtain ⟨writer, hwriter, rfl⟩ := getElem?_modify_iff.mp hj
    have haim := h₀.writers writer (List.mem_of_getElem? hwriter)
    rw [net_accept]
    split <;> exact haim
  | inbound hfind =>
    obtain ⟨hc, -, haimed⟩ := find_receives h₀.tabled hfind
    exact h₀.accept hc haimed

/-- A run keeps the invariant. -/
theorem posted_run {interfaces : List Interface} {es : List Event} {os : List Outcome}
    (hrun : run Host.step { net := { interfaces := interfaces } } es = some (h, os)) : Posted h :=
  keeps_of_step (fun h₀ hs => Posted.step h₀ hs) (posted_new interfaces) hrun

end Invariant

/-- In every run: what was put into the channel of a socket is what its reads received and then what
it still holds, in one order; it is bound to where each chunk was sent; a read returns at most one
chunk, cut to its buffer, and each chunk that was received from the right source was returned by the
read that received it. -/
theorem reads_in_order {interfaces : List Interface} {es : List Event} {os : List Outcome}
    {h : Host} (hrun : run Host.step { net := { interfaces := interfaces } } es = some (h, os))
    {i : Nat} (hc : h.net.conns[i]? = some c) :
    (h.boxes i).accepted = (h.boxes i).taken.map Prod.snd ++ (h.boxes i).readCh ∧
    (h.boxes i).readCh.length ≤ maxReadQueueSize ∧
    (∀ d ∈ (h.boxes i).accepted, Receives c d.dst) ∧
    (returning c (h.boxes i)).Nodup ∧
    (∀ r d, (r, d) ∈ (h.boxes i).taken → admits c d = true →
      ∃ size, h.readers[r]? = some ⟨i, size, some (d.copied size)⟩) ∧
    (∀ r size bytes addr short, h.readers[r]? = some ⟨i, size, some (.ok bytes addr short)⟩ →
      ∃ d, (r, d) ∈ (h.boxes i).taken ∧ admits c d = true ∧
        ReadResult.ok bytes addr short = d.copied size) := by
  have h₀ := posted_run hrun
  have hfiled := h₀.boxes i
  refine ⟨hfiled.order, hfiled.room, fun d hd => ?_, h₀.once hc, fun r d ht ha => h₀.kept hc ht ha,
    fun r size bytes addr short hr => ?_⟩
  · obtain ⟨c', hc', haimed⟩ := hfiled.aimed d hd
    cases hc.symm.trans hc'
    exact haimed
  · obtain ⟨c', hc', ha⟩ := h₀.answered hr
    cases hc.symm.trans hc'
    generalize hresult : ReadResult.ok bytes addr short = result at ha
    cases ha with
    | chunk ht hadmits => exact ⟨_, ht, hadmits, hresult ▸ rfl⟩
    | timeout | closed => cases hresult

/-- A server on a loopback address and a client that is connected to it. -/
def served : List Event :=
  [.call (.listenUDP "udp" (some ⟨some (IP.v4 127 0 0 1), 80⟩) 0),
    .call (.dialUDP "udp" (some ⟨some (IP.v4 127 0 0 1), 81⟩) (some ⟨IP.v4 127 0 0 1, 80⟩) 0)]

/-- The client's chunk. -/
def request : Datagram :=
  ⟨"1", ⟨IP.v4 127 0 0 1, 81⟩, ⟨IP.v4 127 0 0 1, 80⟩, [1, 2, 3]⟩

/-- The server reads the chunk of the client into a buffer that is too short. -/
theorem reads_in_order_short : ∃ h os,
    run Host.step { net := { interfaces := newNet.interfaces } }
      (served ++ [.read 0 2, .write 1 "1" [1, 2, 3], .deliver 0, .receive 0]) = some (h, os) ∧
    h.readers = [⟨0, 2, some (.ok [1, 2] ⟨IP.v4 127 0 0 1, 81⟩ true)⟩] ∧
    (h.boxes 0).taken = [(0, request)] ∧
    (h.boxes 0).accepted = (h.boxes 0).taken.map Prod.snd ++ (h.boxes 0).readCh := by
  refine exists_run (fun h _ =>
    h.readers = [⟨0, 2, some (.ok [1, 2] ⟨IP.v4 127 0 0 1, 81⟩ true)⟩] ∧
      (h.boxes 0).taken = [(0, request)] ∧
      h.net.conns[0]? = some ⟨0, ⟨IP.v4 127 0 0 1, 80⟩, none⟩) (by decide +kernel) ?_
  rintro h os hrun ⟨hreaders, htaken, hconn⟩
  exact ⟨hreaders, htaken, (reads_in_order hrun hconn).1⟩

end PionTransport.Vnet.Hosts
