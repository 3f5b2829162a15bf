import PionTransport.Vnet.TCPMap

/-!
# Every TCP segment has at most one receiver

Two connections overlap exactly if some segment matches both, so a table that
refuses overlapping connections dispatches every segment to one connection at
most, and the two ways to remove a connection agree. The listeners of a port are
apart, as UDP sockets are; but `delete` with an unspecified address clears the
port whatever the addresses of its listeners are.
-/

namespace PionTransport.Vnet.TCPMap

open PionTransport.Core

section Segments

variable {c d : TCPConn} {tcp : ChunkTCP}

/-- The segment is for the connection. -/
def TCPConn.Matches (c : TCPConn) (tcp : ChunkTCP) : Prop :=
  c.locAddr.port = tcp.destinationAddr.port ∧ c.accepts tcp = true

theorem TCPConn.accepts_iff : c.accepts tcp = true ↔
    c.locAddr.ip.serves tcp.destinationAddr.ip = true ∧
      c.remAddr.ip.canonical = tcp.sourceAddr.ip.canonical ∧
        c.remAddr.port = tcp.sourceAddr.port := by
  simp [accepts, IP.equal_iff, and_assoc]

theorem TCPConn.overlaps_iff : c.overlaps d = true ↔
    (c.locAddr.ip.isUnspecified = true ∨ d.locAddr.ip.isUnspecified = true ∨
      c.locAddr.ip.canonical = d.locAddr.ip.canonical) ∧
      c.remAddr.ip.canonical = d.remAddr.ip.canonical ∧ c.remAddr.port = d.remAddr.port := by
  simp [overlaps, IP.equal_iff, and_assoc, or_assoc]

theorem TCPConn.between_iff {laddr raddr : TCPAddr} : c.between laddr raddr = true ↔
    c.locAddr.ip.canonical = laddr.ip.canonical ∧
      c.remAddr.ip.canonical = raddr.ip.canonical ∧ c.remAddr.port = raddr.port := by
  simp [between, IP.equal_iff, and_assoc]

theorem TCPConn.overlaps_comm (c d : TCPConn) : c.overlaps d = d.overlaps c := by
  rw [Bool.eq_iff_iff, overlaps_iff, overlaps_iff]
  constructor
  · rintro ⟨hloc, hrem, hport⟩
    exact ⟨by tauto, hrem.symm, hport.symm⟩
  · rintro ⟨hloc, hrem, hport⟩
    exact ⟨by tauto, hrem.symm, hport.symm⟩

/-- Two local addresses have a common destination if one is unspecified or they are equal. -/
theorem serves_common {ip x : IP} : (∃ dst, ip.serves dst = true ∧ x.serves dst = true) ↔
    ip.isUnspecified = true ∨ x.isUnspecified = true ∨ ip.canonical = x.canonical := by
  simp only [IP.serves, Bool.or_eq_true, IP.equal_iff]
  constructor
  · rintro ⟨dst, hip | hip, hx | hx⟩
    · exact .inl hip
    · exact .inl hip
    · exact .inr (.inl hx)
    · exact .inr (.inr (hip.trans hx.symm))
  · rintro (hip | hx | heq)
    · exact ⟨x, .inl hip, .inr rfl⟩
    · exact ⟨ip, .inr rfl, .inl hx⟩
    · exact ⟨ip, .inr rfl, .inr heq.symm⟩

/-- Connections of one port overlap exactly if they match a common segment. -/
theorem TCPConn.overlaps_iff_matches (hport : c.locAddr.port = d.locAddr.port) :
    c.overlaps d = true ↔ ∃ tcp, c.Matches tcp ∧ d.Matches tcp := by
  simp only [overlaps_iff, Matches, accepts_iff, ← serves_common]
  constructor
  · rintro ⟨⟨dst, hc, hd⟩, hrem, hremPort⟩
    exact ⟨⟨c.remAddr, dst, c.locAddr.port⟩, ⟨rfl, hc, rfl, rfl⟩, hport.symm, hd, hrem.symm,
      hremPort.symm⟩
  · rintro ⟨tcp, ⟨-, hc, hrem, hremPort⟩, -, hd, hrem', hremPort'⟩
    exact ⟨⟨_, hc, hd⟩, hrem.trans hrem'.symm, hremPort.trans hremPort'.symm⟩

end Segments

/-- No two connections overlap. -/
def Disjoint (conns : List TCPConn) : Prop := conns.Pairwise fun c d => c.overlaps d = false

/-- The connections of each port are disjoint. -/
def TCPConnMap.Valid (m : TCPConnMap) : Prop :=
  Grouped (fun c : TCPConn => c.locAddr.port) Disjoint m.portMap

namespace TCPConnMap

variable {m : TCPConnMap} {c d : TCPConn} {tcp : ChunkTCP}

theorem disjoint_nodup {conns : List TCPConn} (h : Disjoint conns) : conns.Nodup := by
  refine h.imp ?_
  rintro c d hcd rfl
  rw [TCPConn.overlaps_iff.mpr ⟨.inr (.inr rfl), rfl, rfl⟩] at hcd
  cases hcd

/-- Two stored connections that overlap on one port are the same. -/
theorem Valid.eq_of_overlaps (h : m.Valid) (hc : c ∈ m.conns) (hd : d ∈ m.conns)
    (hport : c.locAddr.port = d.locAddr.port) (hover : c.overlaps d = true) : c = d := by
  obtain ⟨conns, hlookup, hmem⟩ := h.mem_members.mp hc
  obtain ⟨conns', hlookup', hmem'⟩ := h.mem_members.mp hd
  rw [hport, hlookup'] at hlookup
  cases hlookup
  by_contra hne
  have hsymm : Std.Symm fun c d : TCPConn => c.overlaps d = false := by
    constructor
    intro c d h
    rw [TCPConn.overlaps_comm]
    exact h
  have hpair : conns.Pairwise fun c d => c.overlaps d = false := h.group hlookup'
  rw [hpair.forall hmem hmem' hne] at hover
  cases hover

/-- No segment matches two stored connections. -/
theorem Valid.unique (h : m.Valid) (hc : c ∈ m.conns) (hd : d ∈ m.conns) (hctcp : c.Matches tcp)
    (hdtcp : d.Matches tcp) : c = d := by
  have hport := hctcp.1.trans hdtcp.1.symm
  exact h.eq_of_overlaps hc hd hport
    ((TCPConn.overlaps_iff_matches hport).mpr ⟨tcp, hctcp, hdtcp⟩)

theorem Valid.findByChunk (h : m.Valid) :
    m.findByChunk tcp = some c ↔ c ∈ m.conns ∧ c.Matches tcp := by
  unfold TCPConnMap.findByChunk
  cases hlookup : m.portMap.lookup tcp.destinationAddr.port with
  | none =>
    simp only [reduceCtorEq, false_iff]
    rintro ⟨hc, hport, -⟩
    exact h.key_ne hlookup hc hport
  | some conns =>
    have hunique : ∀ c ∈ conns, ∀ d ∈ conns, c.accepts tcp = true → d.accepts tcp = true →
        c = d := by
      intro c hc d hd hctcp hdtcp
      obtain ⟨hc, hcport⟩ := (h.mem_group hlookup).mp hc
      obtain ⟨hd, hdport⟩ := (h.mem_group hlookup).mp hd
      exact h.unique hc hd ⟨hcport, hctcp⟩ ⟨hdport, hdtcp⟩
    change (conns.find? fun c => c.accepts tcp) = some c ↔ _
    rw [find?_eq_some_iff_of_unique hunique, h.mem_group hlookup, and_assoc]
    rfl

/-- A connection is refused exactly if it matches a segment that a stored one matches. -/
theorem Valid.insert_refused (h : m.Valid) :
    ((groupAt m.portMap c.locAddr.port).any fun existing => existing.overlaps c) = true ↔
      ∃ d ∈ m.conns, ∃ tcp, d.Matches tcp ∧ c.Matches tcp := by
  rw [List.any_eq_true]
  constructor
  · rintro ⟨d, hd, hover⟩
    obtain ⟨hmem, hport⟩ := h.mem_groupAt.mp hd
    exact ⟨d, hmem, (TCPConn.overlaps_iff_matches hport).mp hover⟩
  · rintro ⟨d, hd, tcp, hdtcp, hctcp⟩
    have hport := hdtcp.1.trans hctcp.1.symm
    exact ⟨d, h.mem_groupAt.mpr ⟨hd, hport⟩,
      (TCPConn.overlaps_iff_matches hport).mpr ⟨tcp, hdtcp, hctcp⟩⟩

theorem Valid.insert (h : m.Valid) (c : TCPConn) : (m.insert c).1.Valid ∧
    ((m.insert c).2 ≠ none ↔ ∃ d ∈ m.conns, ∃ tcp, d.Matches tcp ∧ c.Matches tcp) ∧
    ((m.insert c).2 ≠ none → (m.insert c).1 = m) ∧
    ((m.insert c).2 = none → ∀ d, d ∈ (m.insert c).1.conns ↔ d ∈ m.conns ∨ d = c) := by
  rw [← h.insert_refused]
  unfold TCPConnMap.insert
  split
  next hany => exact ⟨h, by simpa using hany, fun _ => rfl, fun hok => by cases hok⟩
  next hany =>
    have hset : m.portMap.insert c.locAddr.port (groupAt m.portMap c.locAddr.port ++ [c]) =
        setGroup m.portMap c.locAddr.port (groupAt m.portMap c.locAddr.port ++ [c]) := by
      simp [setGroup]
    have hdisjoint : Disjoint (groupAt m.portMap c.locAddr.port ++ [c]) := by
      refine List.pairwise_append.mpr
        ⟨h.groupAt_spec .nil c.locAddr.port, List.pairwise_singleton _ c, ?_⟩
      intro d hd e he
      rw [List.mem_singleton.mp he]
      apply eq_false_of_ne_true
      intro hover
      exact hany (List.any_eq_true.mpr ⟨d, hd, hover⟩)
    refine ⟨?_, by simpa using hany, fun hne => absurd rfl hne, fun _ d => ?_⟩
    · change Grouped _ _ (m.portMap.insert _ _)
      rw [hset]
      exact Grouped.snoc h hdisjoint
    · change d ∈ members (m.portMap.insert _ _) ↔ _
      rw [hset]
      exact Grouped.mem_snoc h

theorem deleteIf_congr {port : Int} {p q : TCPConn → Bool}
    (hpq : ∀ conns, m.portMap.lookup port = some conns → ∀ c ∈ conns, p c = q c) :
    m.deleteIf port p = m.deleteIf port q := by
  unfold TCPConnMap.deleteIf
  cases hlookup : m.portMap.lookup port with
  | none => rfl
  | some conns =>
    have hfilter : (conns.filter fun c => !p c) = conns.filter fun c => !q c :=
      List.filter_congr fun c hc => by rw [hpq conns hlookup c hc]
    simp only [hfilter]

/-- The stored connections of a port that satisfy a test go; without one, nothing changes. -/
theorem Valid.deleteIf (h : m.Valid) (port : Int) (p : TCPConn → Bool) :
    (m.deleteIf port p).1.Valid ∧
    ((∃ d ∈ m.conns, d.locAddr.port = port ∧ p d = true) → (m.deleteIf port p).2 = none ∧
      ∀ d, d ∈ (m.deleteIf port p).1.conns ↔ d ∈ m.conns ∧ (d.locAddr.port = port → p d = false)) ∧
    ((¬ ∃ d ∈ m.conns, d.locAddr.port = port ∧ p d = true) →
      m.deleteIf port p = (m, some .noSuchTCPConn)) := by
  have hgroup := fun d : TCPConn => h.mem_groupAt (k := port) (x := d)
  have hfilter := fun d : TCPConn => h.mem_filter (k := port) (x := d) fun c => !p c
  unfold TCPConnMap.deleteIf
  cases hlookup : m.portMap.lookup port with
  | none =>
    refine ⟨h, ?_, fun _ => rfl⟩
    rintro ⟨d, hd, hport, -⟩
    exact absurd hport (h.key_ne hlookup hd)
  | some conns =>
    simp only [groupAt, hlookup, Option.getD_some] at hgroup hfilter
    have hkept : (conns.filter fun c => !p c).length = conns.length ↔
        ¬ ∃ d ∈ m.conns, d.locAddr.port = port ∧ p d = true := by
      rw [List.length_filter_eq_length_iff]
      constructor
      · rintro hall ⟨d, hd, hport, hp⟩
        have hnot := hall d ((hgroup d).mpr ⟨hd, hport⟩)
        rw [hp] at hnot
        cases hnot
      · intro hnone d hd
        rw [Bool.not_eq_true']
        apply eq_false_of_ne_true
        intro hp
        exact hnone ⟨d, ((hgroup d).mp hd).1, ((hgroup d).mp hd).2, hp⟩
    dsimp only
    split
    next hlen => exact ⟨h, fun hsome => absurd hsome (hkept.mp hlen), fun _ => rfl⟩
    next hlen =>
      refine ⟨?_, fun _ => ⟨rfl, fun d => ?_⟩, fun hnone => absurd (hkept.mpr hnone) hlen⟩
      · refine Grouped.set h ?_ fun _ => (h.group hlookup).sublist List.filter_sublist
        intro d hd
        exact h.key hlookup d (List.mem_of_mem_filter hd)
      · refine (hfilter d).trans (and_congr_right fun _ => ?_)
        rw [Bool.not_eq_true']

/-- A stored connection goes alone, by its pointer or by its addresses. -/
theorem Valid.delete (h : m.Valid) (hc : c ∈ m.conns) :
    m.deleteByAddr c.locAddr c.remAddr = m.deleteConn c ∧ (m.deleteConn c).2 = none ∧
      ∀ d, d ∈ (m.deleteConn c).1.conns ↔ d ∈ m.conns ∧ d ≠ c := by
  have hsame : ∀ d ∈ m.conns, d.locAddr.port = c.locAddr.port →
      d.between c.locAddr c.remAddr = (d == c) := by
    intro d hd hport
    rw [Bool.eq_iff_iff, beq_iff_eq, TCPConn.between_iff]
    constructor
    · rintro ⟨hloc, hrem⟩
      exact h.eq_of_overlaps hd hc hport (TCPConn.overlaps_iff.mpr ⟨.inr (.inr hloc), hrem⟩)
    · rintro rfl
      exact ⟨rfl, rfl, rfl⟩
  refine ⟨?_, ?_⟩
  · unfold deleteByAddr deleteConn
    apply deleteIf_congr
    intro conns hlookup d hd
    obtain ⟨hd, hport⟩ := (h.mem_group hlookup).mp hd
    exact hsame d hd hport
  · obtain ⟨-, hremoves, -⟩ := h.deleteIf c.locAddr.port fun d => d == c
    obtain ⟨hok, hmem⟩ := hremoves ⟨c, hc, rfl, beq_self_eq_true c⟩
    refine ⟨hok, fun d => (hmem d).trans (and_congr_right fun _ => ?_)⟩
    rw [beq_eq_false_iff_ne]
    constructor
    · rintro hne rfl
      exact hne rfl rfl
    · exact fun hne _ => hne

theorem Valid.portInUse (h : m.Valid) (ip : IP) (port : Int) : m.portInUse ip port = true ↔
    ∃ c ∈ m.conns, c.locAddr.port = port ∧
      (c.locAddr.ip.isUnspecified = true ∨ c.locAddr.ip.equal ip = true) := by
  unfold TCPConnMap.portInUse
  cases hlookup : m.portMap.lookup port with
  | none =>
    simp only [Bool.false_eq_true, false_iff]
    rintro ⟨c, hc, hport, -⟩
    exact h.key_ne hlookup hc hport
  | some conns =>
    simp only [List.any_eq_true, h.mem_group hlookup, IP.serves, Bool.or_eq_true, and_assoc]
    rfl

theorem Valid.call (h : m.Valid) (e : Call) : (m.call e).1.Valid := by
  cases e with
  | insert conn => exact (h.insert conn).1
  | deleteConn c => exact (h.deleteIf c.locAddr.port _).1
  | deleteByAddr laddr raddr => exact (h.deleteIf laddr.port _).1

end TCPConnMap

/-- After every sequence of calls: no port has an empty list, and every connection is stored once;
no segment matches two stored connections, and `findByChunk` finds the one it matches; `insert`
fails exactly if a stored connection matches a segment of the new one, and then changes nothing; a
stored connection is removed alone, by its pointer or by its addresses; without a connection to
remove, nothing changes; and a port is in use for a specific address exactly if a connection has
it or an unspecified one. -/
theorem connMap_dispatches (calls : List TCPConnMap.Call) :
    ∃ m os, run TCPConnMap.step {} calls = some (m, os) ∧
      (∀ port conns, m.portMap.lookup port = some conns → conns ≠ []) ∧ m.conns.Nodup ∧
      (∀ tcp, (∀ c ∈ m.conns, ∀ d ∈ m.conns, c.Matches tcp → d.Matches tcp → c = d) ∧
        ∀ c, m.findByChunk tcp = some c ↔ c ∈ m.conns ∧ c.Matches tcp) ∧
      (∀ c, ((m.insert c).2 ≠ none ↔ ∃ d ∈ m.conns, ∃ tcp, d.Matches tcp ∧ c.Matches tcp) ∧
        ((m.insert c).2 ≠ none → (m.insert c).1 = m) ∧
        ((m.insert c).2 = none → ∀ d, d ∈ (m.insert c).1.conns ↔ d ∈ m.conns ∨ d = c)) ∧
      (∀ c ∈ m.conns, m.deleteByAddr c.locAddr c.remAddr = m.deleteConn c ∧
        (m.deleteConn c).2 = none ∧
        ∀ d, d ∈ (m.deleteConn c).1.conns ↔ d ∈ m.conns ∧ d ≠ c) ∧
      (∀ c, c ∉ m.conns → m.deleteConn c = (m, some .noSuchTCPConn)) ∧
      (∀ laddr raddr : TCPAddr, (¬ ∃ c ∈ m.conns, c.locAddr.port = laddr.port ∧
        c.between laddr raddr = true) → m.deleteByAddr laddr raddr = (m, some .noSuchTCPConn)) ∧
      ∀ ip port, ip.isUnspecified = false → (m.portInUse ip port = true ↔
        ∃ c ∈ m.conns, c.locAddr.port = port ∧
          (c.locAddr.ip.isUnspecified = true ∨ c.locAddr.ip.equal ip = true)) := by
  obtain ⟨m, os, hrun, h⟩ := run_keeps
    (fun m e (h : TCPConnMap.Valid m) => ⟨_, _, rfl, h.call e⟩) calls Grouped.empty
  refine ⟨m, os, hrun, fun _ _ hlookup => h.nonempty hlookup,
    Grouped.nodup h fun _ => TCPConnMap.disjoint_nodup, fun tcp => ⟨?_, fun c => h.findByChunk⟩,
    fun c => (h.insert c).2, fun c hc => h.delete hc, fun c hc => ?_, fun laddr raddr hnone => ?_,
    fun ip port _ => h.portInUse ip port⟩
  · intro c hc d hd
    exact h.unique hc hd
  · apply (h.deleteIf c.locAddr.port fun d => d == c).2.2
    rintro ⟨d, hd, -, heq⟩
    rw [beq_iff_eq.mp heq] at hd
    exact hc hd
  · exact (h.deleteIf laddr.port fun c => c.between laddr raddr).2.2 hnone

/-- The listener has this address. -/
def TCPListener.At (l : TCPListener) (addr : TCPAddr) : Prop :=
  l.locAddr.port = addr.port ∧ l.locAddr.ip.equal addr.ip = true

/-- The listeners of each port are apart. -/
def TCPListenerMap.Valid (m : TCPListenerMap) : Prop :=
  Grouped (fun l : TCPListener => l.locAddr.port) (Apart fun l => l.locAddr.ip) m.portMap

/-- `delete` removes the listeners with the address and no others, which are found as before; it
has no error exactly if there was one to remove, and an error means that nothing changed. -/
structure TCPListenerMap.DeletesExactly (m : TCPListenerMap) (addr : TCPAddr) : Prop where
  removes : ∀ l, l ∈ (m.delete addr).1.listeners ↔ l ∈ m.listeners ∧ ¬ l.At addr
  finds : ∀ l ∈ m.listeners, ¬ l.At addr → (m.delete addr).1.find l.locAddr = some l
  succeeds : (m.delete addr).2 = none ↔ ∃ l ∈ m.listeners, l.At addr
  unchanged : (m.delete addr).2 ≠ none → (m.delete addr).1 = m

namespace TCPListenerMap

variable {m : TCPListenerMap} {l : TCPListener} {addr : TCPAddr}

/-- A listener is found by its own address. -/
theorem Valid.find (h : m.Valid) (hl : l ∈ m.listeners) : m.find l.locAddr = some l := by
  obtain ⟨listeners, hlookup, hmem⟩ := h.mem_members.mp hl
  have hapart := h.group hlookup
  unfold TCPListenerMap.find
  rw [hlookup]
  cases hip : l.locAddr.ip.isUnspecified with
  | true =>
    cases listeners with
    | nil => cases hmem
    | cons l' rest =>
      have heq := hapart.eq_of_unspecified hmem hip (List.mem_cons_self (a := l') (l := rest))
      rw [heq]
      rfl
  | false =>
    have hunique : ∀ x ∈ listeners, ∀ y ∈ listeners, x.locAddr.ip.serves l.locAddr.ip = true →
        y.locAddr.ip.serves l.locAddr.ip = true → x = y := fun x hx y hy => hapart.unique hx hy
    exact (find?_eq_some_iff_of_unique hunique).mpr ⟨hmem, IP.serves_self _⟩

theorem Valid.insert (h : m.Valid) (l : TCPListener) : (m.insert l).1.Valid ∧
    ((m.insert l).2 ≠ none ↔ ¬ Apart (fun l : TCPListener => l.locAddr.ip)
      (groupAt m.portMap l.locAddr.port ++ [l])) ∧
    ((m.insert l).2 ≠ none → (m.insert l).1 = m) ∧
    ((m.insert l).2 = none → ∀ x, x ∈ (m.insert l).1.listeners ↔ x ∈ m.listeners ∨ x = l) := by
  have hrefused := insertSocket_eq_none (x := l) h
  unfold TCPListenerMap.insert
  split
  next portMap hinsert =>
    obtain ⟨hgroup, hmem⟩ := grouped_insertSocket h hinsert
    rw [← hrefused, hinsert]
    exact ⟨hgroup, by simp, fun hne => absurd rfl hne, fun _ => hmem⟩
  next hinsert =>
    rw [← hrefused, hinsert]
    exact ⟨h, by simp, fun _ => rfl, fun hok => by cases hok⟩

/-- What `delete` removes: the listeners with a specific address, or all of the port. -/
def Cleared (l : TCPListener) (addr : TCPAddr) : Prop :=
  l.locAddr.port = addr.port ∧
    (addr.ip.isUnspecified = true ∨ l.locAddr.ip.equal addr.ip = true)

theorem Valid.delete (h : m.Valid) (addr : TCPAddr) : (m.delete addr).1.Valid ∧
    (∀ l, l ∈ (m.delete addr).1.listeners ↔ l ∈ m.listeners ∧ ¬ Cleared l addr) ∧
    ((m.delete addr).2 = none ↔ ∃ l ∈ m.listeners, Cleared l addr) ∧
    ((m.delete addr).2 ≠ none → (m.delete addr).1 = m) := by
  -- a call that removes nothing is right if there is nothing to remove
  have hfails : (¬ ∃ l ∈ m.listeners, Cleared l addr) → m.Valid ∧
      (∀ l, l ∈ m.listeners ↔ l ∈ m.listeners ∧ ¬ Cleared l addr) ∧
      (some MapError.noSuchTCPListener = none ↔ ∃ l ∈ m.listeners, Cleared l addr) ∧
      (some MapError.noSuchTCPListener ≠ none → m = m) := by
    intro hnone
    refine ⟨h, fun l => ?_, by simp [hnone], fun _ => rfl⟩
    exact ⟨fun hl => ⟨hl, fun hcleared => hnone ⟨l, hl, hcleared⟩⟩, And.left⟩
  unfold TCPListenerMap.delete
  cases hlookup : m.portMap.lookup addr.port with
  | none =>
    apply hfails
    rintro ⟨l, hl, hport, -⟩
    exact h.key_ne hlookup hl hport
  | some listeners =>
    cases hip : addr.ip.isUnspecified with
    | true =>
      have hcleared : (⟨setGroup m.portMap addr.port []⟩ : TCPListenerMap).Valid :=
        Grouped.set h (fun l hl => by cases hl) (fun hne => absurd rfl hne)
      obtain ⟨l, hl⟩ := List.exists_mem_of_ne_nil _ (h.nonempty hlookup)
      obtain ⟨hmem, hport⟩ := (h.mem_group hlookup).mp hl
      refine ⟨hcleared, fun l => ?_, iff_of_true rfl ⟨l, hmem, hport, .inl hip⟩,
        fun hne => absurd rfl hne⟩
      change l ∈ members (setGroup m.portMap addr.port []) ↔ _
      rw [h.mem_set]
      simp [Cleared, hip, TCPListenerMap.listeners]
    | false =>
      simp only [Bool.false_eq_true, if_false]
      split
      next hany =>
        obtain ⟨l, hl, hequal⟩ := List.any_eq_true.mp hany
        obtain ⟨hmem, hport⟩ := (h.mem_group hlookup).mp hl
        have hfilter := fun x => h.mem_filter (k := addr.port) (x := x)
          fun l : TCPListener => !l.locAddr.ip.equal addr.ip
        simp only [groupAt, hlookup, Option.getD_some] at hfilter
        refine ⟨Grouped.set h ?_ fun _ => (h.group hlookup).sublist List.filter_sublist,
          fun x => (hfilter x).trans (and_congr_right fun _ => ?_),
          iff_of_true rfl ⟨l, hmem, hport, .inr hequal⟩, fun hne => absurd rfl hne⟩
        · intro x hx
          exact h.key hlookup x (List.mem_of_mem_filter hx)
        · simp [Cleared, hip]
      next hany =>
        apply hfails
        rintro ⟨l, hl, hport, hunspecified | hequal⟩
        · rw [hip] at hunspecified
          cases hunspecified
        · exact hany (List.any_eq_true.mpr ⟨l, (h.mem_group hlookup).mpr ⟨hl, hport⟩, hequal⟩)

/-- `delete` is exact for a specific address, and for another one if all listeners of the port
have it. -/
theorem Valid.deletesExactly_iff (h : m.Valid) : m.DeletesExactly addr ↔
    addr.ip.isUnspecified = false ∨
      ∀ l ∈ m.listeners, l.locAddr.port = addr.port → l.locAddr.ip.equal addr.ip = true := by
  obtain ⟨hvalid, hmem, hok, hsame⟩ := h.delete addr
  constructor
  · intro hexact
    cases hip : addr.ip.isUnspecified with
    | false => exact .inl rfl
    | true =>
      refine .inr fun l hl hport => ?_
      by_contra hequal
      have hleft := (hexact.removes l).mpr ⟨hl, fun hat => hequal hat.2⟩
      exact ((hmem l).mp hleft).2 ⟨hport, .inl hip⟩
  · intro hcond
    have hcleared : ∀ l ∈ m.listeners, (Cleared l addr ↔ l.At addr) := by
      intro l hl
      refine and_congr_right fun hport => ⟨?_, .inr⟩
      rintro (hunspecified | hequal)
      · rcases hcond with hip | hall
        · rw [hip] at hunspecified
          cases hunspecified
        · exact hall l hl hport
      · exact hequal
    have hremoves : ∀ l, l ∈ (m.delete addr).1.listeners ↔ l ∈ m.listeners ∧ ¬ l.At addr :=
      fun l => (hmem l).trans (and_congr_right fun hl => not_congr (hcleared l hl))
    refine ⟨hremoves, fun l hl hat => hvalid.find ((hremoves l).mpr ⟨hl, hat⟩), ?_, hsame⟩
    rw [hok]
    exact exists_congr fun l => and_congr_right fun hl => hcleared l hl

theorem Valid.step (h : m.Valid) (e : Call) : ∃ m' o, m.step e = some (m', o) ∧ m'.Valid := by
  cases e with
  | insert l => exact ⟨_, _, rfl, (h.insert l).1⟩
  | find addr => exact ⟨_, _, rfl, h⟩
  | delete addr => exact ⟨_, _, rfl, (h.delete addr).1⟩

end TCPListenerMap

/-- After every sequence of calls: no port has an empty list, and its listeners are one with an
unspecified address or several with different specific ones; `insert` fails exactly if this would
no longer hold, and then changes nothing; and `delete` is exact for an address if and only if it is
specific or all listeners of its port have it. -/
theorem listenerMap_deletes (calls : List TCPListenerMap.Call) :
    ∃ m os, run TCPListenerMap.step {} calls = some (m, os) ∧
      (∀ port listeners, m.portMap.lookup port = some listeners →
        listeners ≠ [] ∧ Apart (fun l : TCPListener => l.locAddr.ip) listeners) ∧
      (∀ l, ((m.insert l).2 ≠ none ↔ ¬ Apart (fun l : TCPListener => l.locAddr.ip)
          (groupAt m.portMap l.locAddr.port ++ [l])) ∧
        ((m.insert l).2 ≠ none → (m.insert l).1 = m) ∧
        ((m.insert l).2 = none → ∀ x, x ∈ (m.insert l).1.listeners ↔ x ∈ m.listeners ∨ x = l)) ∧
      ∀ addr, m.DeletesExactly addr ↔ addr.ip.isUnspecified = false ∨
        ∀ l ∈ m.listeners, l.locAddr.port = addr.port → l.locAddr.ip.equal addr.ip = true := by
  obtain ⟨m, os, hrun, h⟩ := run_keeps
    (fun m e (h : TCPListenerMap.Valid m) => h.step e) calls Grouped.empty
  exact ⟨m, os, hrun, fun _ _ hlookup => ⟨h.nonempty hlookup, h.group hlookup⟩,
    fun l => (h.insert l).2, fun addr => h.deletesExactly_iff⟩

/-- A listener on `127.0.0.1:80` is removed by `delete` for `0.0.0.0:80`, without an error. -/
theorem unspecified_delete_clears_port : ∃ m os,
    run TCPListenerMap.step {} [.insert ⟨0, ⟨IP.v4 127 0 0 1, 80⟩⟩] = some (m, os) ∧
      m.listeners = [⟨0, ⟨IP.v4 127 0 0 1, 80⟩⟩] ∧ (m.delete ⟨IP.v4zero, 80⟩).2 = none ∧
      (m.delete ⟨IP.v4zero, 80⟩).1.listeners = [] ∧ ¬ m.DeletesExactly ⟨IP.v4zero, 80⟩ := by
  refine exists_run (fun m _ => m.listeners = [⟨0, ⟨IP.v4 127 0 0 1, 80⟩⟩] ∧
    (m.delete ⟨IP.v4zero, 80⟩).2 = none ∧ (m.delete ⟨IP.v4zero, 80⟩).1.listeners = [])
    (by decide +kernel) ?_
  rintro m os - ⟨hlisteners, hok, hcleared⟩
  refine ⟨hlisteners, hok, hcleared, fun hexact => ?_⟩
  -- the listener was not on the address that was removed
  have hleft := (hexact.removes ⟨0, ⟨IP.v4 127 0 0 1, 80⟩⟩).mpr
    ⟨by simp [hlisteners], fun hat => absurd hat.2 (by decide)⟩
  rw [hcleared] at hleft
  cases hleft

end PionTransport.Vnet.TCPMap
