import Mathlib.Data.List.Rotate
import PionTransport.Vnet.Bindings

/-!
# Ephemeral ports

`assignPort` goes once around its range and takes the first port that
`allocateLocalAddr` accepts. A port is free for an address if the table would take
a connection there. For a specific address the two agree. For an unspecified one
`allocateLocalAddr` only asks for the addresses that interfaces have, in one
family, so it also accepts a port whose connections are elsewhere.
-/

namespace PionTransport.Vnet.Sockets

open PionTransport.Core

/-- No connection of the port is in the way of one with this address. -/
def UDPConnMap.Free (m : UDPConnMap) (addr : UDPAddr) : Prop :=
  ∀ c ∈ m.conns, c.locAddr.port = addr.port →
    addr.ip.isUnspecified = false ∧ c.locAddr.ip.serves addr.ip = false

namespace UDPConnMap

variable {m : UDPConnMap} {addr : UDPAddr} {c : UDPConn}

/-- On a port without connections every address is free. -/
theorem free_of_lookup_eq_none (h : m.Valid) (hlookup : m.portMap.lookup addr.port = none) :
    m.Free addr :=
  fun _ hc hport => absurd hport (h.key_ne hlookup hc)

/-- On a port with connections, free means a specific address that none of them serves. -/
theorem free_iff_of_lookup (h : m.Valid) {conns : List UDPConn}
    (hlookup : m.portMap.lookup addr.port = some conns) : m.Free addr ↔
      addr.ip.isUnspecified = false ∧ ∀ c ∈ conns, c.locAddr.ip.serves addr.ip = false := by
  have hmem := fun c => h.mem_group (x := c) hlookup
  constructor
  · intro hfree
    obtain ⟨c, hc⟩ := List.exists_mem_of_ne_nil _ (h.nonempty hlookup)
    have hc' := (hmem c).mp hc
    refine ⟨(hfree c hc'.1 hc'.2).1, fun d hd => ?_⟩
    have hd' := (hmem d).mp hd
    exact (hfree d hd'.1 hd'.2).2
  · rintro ⟨hip, hserves⟩ c hc hport
    exact ⟨hip, hserves c ((hmem c).mpr ⟨hc, hport⟩)⟩

/-- `find` finds nothing for the free addresses. -/
theorem find_eq_none_iff (h : m.Valid) : (m.find addr).2 = none ↔ m.Free addr := by
  unfold UDPConnMap.find
  cases hlookup : m.portMap.lookup addr.port with
  | none => exact iff_of_true rfl (free_of_lookup_eq_none h hlookup)
  | some conns =>
    rw [free_iff_of_lookup h hlookup]
    cases hip : addr.ip.isUnspecified with
    | true =>
      cases conns with
      | nil => exact absurd rfl (h.nonempty hlookup)
      | cons c rest => simp
    | false =>
      simp only [Bool.false_eq_true, if_false, true_and, List.find?_eq_none, Bool.not_eq_true]

/-- `insert` takes a connection at the free addresses. -/
theorem insert_eq_none_iff (h : m.Valid) : (m.insert c).2 = none ↔ m.Free c.locAddr := by
  unfold UDPConnMap.insert
  cases hlookup : m.portMap.lookup c.locAddr.port with
  | none => exact iff_of_true rfl (free_of_lookup_eq_none h hlookup)
  | some conns =>
    rw [free_iff_of_lookup h hlookup]
    cases hip : c.locAddr.ip.isUnspecified with
    | true => simp
    | false =>
      simp only [Bool.false_eq_true, if_false, true_and]
      split
      next hany =>
        obtain ⟨d, hd, hserves⟩ := List.any_eq_true.mp hany
        simp only [reduceCtorEq, false_iff]
        intro hfree
        rw [hfree d hd] at hserves
        cases hserves
      next hany =>
        simp only [true_iff]
        intro d hd
        apply eq_false_of_ne_true
        intro hserves
        exact hany (List.any_eq_true.mpr ⟨d, hd, hserves⟩)

end UDPConnMap

/-- The addresses that `allocateLocalAddr` looks up. -/
def Net.lookedUp (n : Net) (ip : IP) : List IP :=
  if ip.isUnspecified then n.getAllIPAddrs ip.to4.isNone else [ip]

section Allocation

variable {n : Net} {ip : IP}

/-- An address of an interface in the family of an unspecified address is looked up for it. -/
theorem lookedUp_ne_nil (h : n.hasIPAddr ip = true) : n.lookedUp ip ≠ [] := by
  obtain ⟨locIP, hmem, hloc⟩ := List.any_eq_true.mp h
  unfold Net.lookedUp
  split
  next hunspecified =>
    apply List.ne_nil_of_mem (a := locIP)
    refine List.mem_filter.mpr ⟨hmem, ?_⟩
    rcases Bool.or_eq_true_iff.mp hunspecified with hfour | hsix
    · have hfamily : ip.to4.isNone = false := IP.to4_isNone_of_equal hfour
      simpa [hfour, hfamily] using hloc
    · have hfamily : ip.to4.isNone = true := IP.to4_isNone_of_equal hsix
      have hfour : ip.equal .v4zero = false := by
        apply eq_false_of_ne_true
        intro hfour
        rw [IP.to4_isNone_of_equal hfour] at hfamily
        exact absurd hfamily (by decide)
      simpa [hfour, hsix, hfamily] using hloc
  next => exact List.cons_ne_nil _ _

theorem checkUnused_snd (h : n.udpConns.Valid) (port : Int) (ips : List IP) :
    (n.checkUnused port ips).2 = none ↔ ∀ a ∈ ips, n.udpConns.Free ⟨a, port⟩ := by
  induction ips with
  | nil => simp [Net.checkUnused]
  | cons a ips ih =>
    have hsame := findConn_fst h ⟨a, port⟩
    have hfind : (n.findConn ⟨a, port⟩).2 = none ↔ _ := UDPConnMap.find_eq_none_iff h
    rw [List.forall_mem_cons, ← hfind, ← ih, Net.checkUnused]
    split
    next heq => simp [heq]
    next heq =>
      rw [heq] at hsame
      cases hsame
      simp [heq]

/-- A port is accepted if it is free for every address that is looked up. -/
theorem allocateLocalAddr_snd (h : n.udpConns.Valid) (hip : n.hasIPAddr ip = true) (port : Int) :
    (n.allocateLocalAddr ip port).2 = none ↔
      ∀ a ∈ n.lookedUp ip, n.udpConns.Free ⟨a, port⟩ := by
  have hips : (if ip.isUnspecified then n.getAllIPAddrs ip.to4.isNone
      else if n.hasIPAddr ip then [ip] else []) = n.lookedUp ip := by
    simp [Net.lookedUp, hip]
  simp only [Net.allocateLocalAddr, hips, if_neg (lookedUp_ne_nil hip)]
  exact checkUnused_snd h port _

end Allocation

/-- The result of `assignPort` for the port that was found. -/
def orExhausted : Option Int → Except BindError Int
  | some p => .ok p
  | none => .error .portSpaceExhausted

/-- The ports of a range in the order in which `assignPort` tries them. -/
def portOrder (start : Int) (space offset : Nat) : List Int :=
  ((List.range space).rotate offset).map fun i : Nat => (i : Int) + start

section Selection

variable {n : Net} {ip : IP} {start p : Int} {space offset : Nat}

theorem nodup_portOrder : (portOrder start space offset).Nodup := by
  refine List.Nodup.map ?_ (List.nodup_rotate.mpr List.nodup_range)
  intro i j h
  have hsum : (i : Int) + start = j + start := h
  omega

theorem mem_portOrder : p ∈ portOrder start space offset ↔ start ≤ p ∧ p < start + space := by
  simp only [portOrder, List.mem_map, List.mem_rotate, List.mem_range]
  constructor
  · rintro ⟨i, hi, rfl⟩
    omega
  · rintro ⟨hlow, hhigh⟩
    exact ⟨(p - start).toNat, by omega, by omega⟩

theorem portOrder_eq : portOrder start space offset =
    (List.range' 0 space).map fun j => (((offset + j) % space : Nat) : Int) + start := by
  refine List.ext_getElem (by simp [portOrder]) fun i hi hi' => ?_
  simp [portOrder, List.getElem_rotate, Int.add_comm]

/-- The loop of `assignPort` takes the first port that is accepted. -/
theorem tryPorts_snd (h : n.udpConns.Valid) (i left : Nat) :
    (n.tryPorts ip start space offset i left).2 = orExhausted
      (((List.range' i left).map fun j => (((offset + j) % space : Nat) : Int) + start).find?
        fun p => (n.allocateLocalAddr ip p).2.isNone) := by
  induction left generalizing i with
  | zero => rfl
  | succ left ih =>
    have hsame := allocateLocalAddr_fst h ip (((offset + i) % space : Nat) + start)
    rw [List.range'_succ, List.map_cons, List.find?_cons, Net.tryPorts]
    cases halloc : n.allocateLocalAddr ip (((offset + i) % space : Nat) + start) with
    | mk n' err =>
      rw [halloc] at hsame
      cases hsame
      cases err with
      | none => rfl
      | some err => exact ih (i + 1)

/-- `assignPort` goes once around its range and takes the first port that is accepted. -/
theorem assignPort_snd (h : n.udpConns.Valid) (ip : IP) (offset : Nat) :
    (n.assignPort ip 5000 5999 offset).2 = orExhausted
      ((portOrder 5000 1000 offset).find? fun p => (n.allocateLocalAddr ip p).2.isNone) := by
  rw [portOrder_eq, ← tryPorts_snd h]
  rfl

end Selection

/-- A port of the range at which the table would take a connection. -/
def Net.Usable (n : Net) (ip : IP) (p : Int) : Prop :=
  5000 ≤ p ∧ p ≤ 5999 ∧ ∀ c : UDPConn, c.locAddr = ⟨ip, p⟩ → (n.udpConns.insert c).2 = none

/-- The choice of a port agrees with the table: a port that is accepted is not refused afterwards,
and `_dialUDP` succeeds exactly if there is a port, which the connection then has. -/
structure Net.PortsAgree (n : Net) (ip : IP) : Prop where
  accepted : ∀ p, 5000 ≤ p → p ≤ 5999 → (n.allocateLocalAddr ip p).2 = none → n.Usable ip p
  dials : ∀ network ∈ ["udp", "udp4", "udp6"], ∀ remAddr offset,
    (∃ conn, (n.dialUDP network (some ⟨some ip, 0⟩) remAddr offset).2 = .ok conn) ↔
      ∃ p, n.Usable ip p
  registers : ∀ network remAddr offset conn,
    (n.dialUDP network (some ⟨some ip, 0⟩) remAddr offset).2 = .ok conn →
      conn.locAddr.ip = ip ∧ n.Usable ip conn.locAddr.port ∧
        conn ∈ (n.dialUDP network (some ⟨some ip, 0⟩) remAddr offset).1.udpConns.conns

/-- The address is specific, or on every port of the range that has connections one of them
receives for an address that an interface has in the family of `ip`. -/
def Net.AllSeen (n : Net) (ip : IP) : Prop :=
  ip.isUnspecified = false ∨ ∀ c ∈ n.udpConns.conns,
    5000 ≤ c.locAddr.port → c.locAddr.port ≤ 5999 →
      ∃ a ∈ n.getAllIPAddrs ip.to4.isNone, ∃ d ∈ n.udpConns.conns,
        d.locAddr.port = c.locAddr.port ∧ (a.isUnspecified = true ∨ d.locAddr.ip.serves a = true)

section Agreement

variable {n : Net} {ip : IP} {p : Int}

theorem usable_iff (h : n.udpConns.Valid) :
    n.Usable ip p ↔ 5000 ≤ p ∧ p ≤ 5999 ∧ n.udpConns.Free ⟨ip, p⟩ := by
  refine and_congr_right fun _ => and_congr_right fun _ => ?_
  constructor
  · intro hinsert
    exact (UDPConnMap.insert_eq_none_iff h).mp (hinsert ⟨0, ⟨ip, p⟩, none⟩ rfl)
  · intro hfree c hc
    rw [UDPConnMap.insert_eq_none_iff h, hc]
    exact hfree

theorem register_ok (h : n.udpConns.Valid) (locAddr : UDPAddr) (remAddr : Option UDPAddr) :
    ((∃ conn, (n.register locAddr remAddr).2 = .ok conn) ↔ n.udpConns.Free locAddr) ∧
      ∀ conn, (n.register locAddr remAddr).2 = .ok conn → conn.locAddr = locAddr ∧
        conn ∈ (n.register locAddr remAddr).1.udpConns.conns := by
  have hfree := UDPConnMap.insert_eq_none_iff (c := ⟨n.conns.length, locAddr, remAddr⟩) h
  have hinsert := h.insert (c := ⟨n.conns.length, locAddr, remAddr⟩)
  unfold Net.register
  cases hresult : n.udpConns.insert ⟨n.conns.length, locAddr, remAddr⟩ with
  | mk m err =>
    rw [hresult] at hfree hinsert
    cases err with
    | some err =>
      refine ⟨?_, fun conn hok => by cases hok⟩
      rw [← hfree]
      simp
    | none =>
      refine ⟨iff_of_true ⟨_, rfl⟩ (hfree.mp rfl), ?_⟩
      rintro conn hok
      cases hok
      exact ⟨rfl, ((hinsert rfl).2 _).mpr (.inr rfl)⟩

/-- `_dialUDP` without a port registers at the first port that is accepted. -/
theorem dialUDP_port_zero (h : n.udpConns.Valid) (hip : n.hasIPAddr ip = true) {network : String}
    (hnetwork : network ∈ ["udp", "udp4", "udp6"]) (remAddr : Option UDPAddr) (offset : Nat) :
    n.dialUDP network (some ⟨some ip, 0⟩) remAddr offset =
      match (portOrder 5000 1000 offset).find? fun p => (n.allocateLocalAddr ip p).2.isNone with
      | some p => n.register ⟨ip, p⟩ remAddr
      | none => (n, .error (.listen network ⟨ip, 0⟩ .portSpaceExhausted)) := by
  have hassign : n.assignPort ip 5000 5999 offset = (n, orExhausted
      ((portOrder 5000 1000 offset).find? fun p => (n.allocateLocalAddr ip p).2.isNone)) := by
    rw [← assignPort_snd h ip offset]
    exact Prod.ext (assignPort_fst h ip 5000 5999 offset) rfl
  simp only [Net.dialUDP, hnetwork, not_true, if_false, Option.bind_some, Option.getD_some,
    Option.map_some, hip, if_true, hassign]
  generalize ((portOrder 5000 1000 offset).find? fun p =>
    (n.allocateLocalAddr ip p).2.isNone) = found
  cases found <;> rfl

/-- For a specific address, or one all of whose ports are seen, a port is accepted if it is
free. -/
theorem allocateLocalAddr_iff_free (h : n.udpConns.Valid) (hip : n.hasIPAddr ip = true)
    (hseen : n.AllSeen ip) (hlow : 5000 ≤ p) (hhigh : p ≤ 5999) :
    (n.allocateLocalAddr ip p).2 = none ↔ n.udpConns.Free ⟨ip, p⟩ := by
  rw [allocateLocalAddr_snd h hip, Net.lookedUp]
  cases hspecific : ip.isUnspecified with
  | false => simp
  | true =>
    simp only [if_true]
    constructor
    · -- a connection of the port would be seen
      rintro hlooked c hc rfl
      rcases hseen with hseen | hseen
      · rw [hspecific] at hseen
        cases hseen
      · obtain ⟨a, ha, d, hd, hport, hserves⟩ := hseen c hc hlow hhigh
        obtain ⟨hspecific', hnot⟩ := hlooked a ha d hd hport
        rcases hserves with hserves | hserves
        · rw [hspecific'] at hserves
          cases hserves
        · rw [hnot] at hserves
          cases hserves
    · -- a port that is free for an unspecified address has no connections
      intro hfree a _ c hc hport
      have hnone := (hfree c hc hport).1
      rw [hspecific] at hnone
      cases hnone

theorem portsAgree_iff (h : n.udpConns.Valid) (hip : n.hasIPAddr ip = true) :
    n.PortsAgree ip ↔ n.AllSeen ip := by
  constructor
  · intro hagree
    cases hspecific : ip.isUnspecified with
    | false => exact .inl hspecific
    | true =>
      refine .inr fun c hc hlow hhigh => ?_
      by_contra hunseen
      -- the port of an unseen connection is accepted although it is not free
      have haccepted : (n.allocateLocalAddr ip c.locAddr.port).2 = none := by
        rw [allocateLocalAddr_snd h hip, Net.lookedUp, hspecific]
        intro a ha d hd hport
        constructor
        · apply eq_false_of_ne_true
          intro hunspecified
          exact hunseen ⟨a, ha, d, hd, hport, .inl hunspecified⟩
        · apply eq_false_of_ne_true
          intro hserves
          exact hunseen ⟨a, ha, d, hd, hport, .inr hserves⟩
      have hfree := ((usable_iff h).mp (hagree.accepted _ hlow hhigh haccepted)).2.2
      have hnone := (hfree c hc rfl).1
      rw [hspecific] at hnone
      cases hnone
  · intro hseen
    have hfree := fun p hlow hhigh =>
      allocateLocalAddr_iff_free (p := p) h hip hseen hlow hhigh
    have hfound : ∀ {offset p}, ((portOrder 5000 1000 offset).find? fun p =>
        (n.allocateLocalAddr ip p).2.isNone) = some p → n.Usable ip p := by
      intro offset p hfind
      have hrange := mem_portOrder.mp (List.mem_of_find?_eq_some hfind)
      have haccepted := List.find?_some hfind
      rw [Option.isNone_iff_eq_none] at haccepted
      have hlow : 5000 ≤ p := hrange.1
      have hhigh : p ≤ 5999 := by omega
      exact (usable_iff h).mpr ⟨hlow, hhigh, (hfree p hlow hhigh).mp haccepted⟩
    refine ⟨fun p hlow hhigh haccepted => ?_, ?_, ?_⟩
    · exact (usable_iff h).mpr ⟨hlow, hhigh, (hfree p hlow hhigh).mp haccepted⟩
    · intro network hnetwork remAddr offset
      rw [dialUDP_port_zero h hip hnetwork]
      cases hfind : (portOrder 5000 1000 offset).find? fun p =>
          (n.allocateLocalAddr ip p).2.isNone with
      | some p =>
        have husable := hfound hfind
        exact iff_of_true ((register_ok h ⟨ip, p⟩ remAddr).1.mpr ((usable_iff h).mp husable).2.2)
          ⟨p, husable⟩
      | none =>
        refine iff_of_false (fun ⟨conn, hok⟩ => by cases hok) ?_
        rintro ⟨p, husable⟩
        obtain ⟨hlow, hhigh, hfreeAt⟩ := (usable_iff h).mp husable
        have hmem : p ∈ portOrder 5000 1000 offset := mem_portOrder.mpr ⟨hlow, by omega⟩
        apply List.find?_eq_none.mp hfind p hmem
        rw [Option.isNone_iff_eq_none]
        exact (hfree p hlow hhigh).mpr hfreeAt
    · intro network remAddr offset conn hok
      by_cases hnetwork : network ∈ ["udp", "udp4", "udp6"]
      · rw [dialUDP_port_zero h hip hnetwork] at hok ⊢
        cases hfind : (portOrder 5000 1000 offset).find? fun p =>
            (n.allocateLocalAddr ip p).2.isNone with
        | some p =>
          rw [hfind] at hok
          obtain ⟨haddr, hmem⟩ := (register_ok h ⟨ip, p⟩ remAddr).2 conn hok
          rw [haddr]
          exact ⟨rfl, hfound hfind, hmem⟩
        | none =>
          rw [hfind] at hok
          cases hok
      · simp only [Net.dialUDP, hnetwork, not_false_eq_true, if_true] at hok
        cases hok

end Agreement

/-- After every sequence of calls and for every address that the stack has: `assignPort` tries
every port of the range once, in the order of `portOrder`, and takes the first that is accepted;
and the choice of a port agrees with the table if and only if the address is specific or every port
of the range that has connections is seen at an address of an interface. -/
theorem ephemeral_ports_agree (interfaces : List Interface) (es : List Event) :
    ∃ n os, run Net.step { interfaces := interfaces } es = some (n, os) ∧
      ∀ ip, n.hasIPAddr ip = true →
        (∀ offset, (portOrder 5000 1000 offset).Nodup ∧
          (∀ p, p ∈ portOrder 5000 1000 offset ↔ 5000 ≤ p ∧ p ≤ 5999) ∧
          (n.assignPort ip 5000 5999 offset).2 = orExhausted
            ((portOrder 5000 1000 offset).find? fun p => (n.allocateLocalAddr ip p).2.isNone)) ∧
        (n.PortsAgree ip ↔ n.AllSeen ip) := by
  obtain ⟨n, os, hrun, h⟩ :=
    run_keeps (fun n e (h : Tabled n) => ⟨_, _, rfl, h.call e⟩) es (tabled_new interfaces)
  refine ⟨n, os, hrun, fun ip hip => ⟨fun offset => ⟨nodup_portOrder, fun p => ?_, ?_⟩, ?_⟩⟩
  · rw [mem_portOrder]
    exact and_congr_right fun _ => by omega
  · exact assignPort_snd h.valid ip offset
  · exact portsAgree_iff h.valid hip

/-- With a connection on `[::1]:5000`, no port is found for `0.0.0.0` from the offset 0 although
5001 is usable: port 5000 is accepted, since no IPv4 address has a connection there, and then
refused. -/
theorem ephemeral_port_refused : ∃ n os,
    run Net.step newNet [.listenUDP "udp6" (some ⟨some IP.v6loopback, 5000⟩) 0] = some (n, os) ∧
      n.hasIPAddr IP.v4zero = true ∧ (n.allocateLocalAddr IP.v4zero 5000).2 = none ∧
      (n.dialUDP "udp" (some ⟨some IP.v4zero, 0⟩) none 0).2 =
        .error (.insert .addressAlreadyInUse) ∧ n.Usable IP.v4zero 5001 := by
  refine exists_run (fun n _ => n.udpConns.conns.map UDPConn.locAddr = [⟨IP.v6loopback, 5000⟩] ∧
    n.hasIPAddr IP.v4zero = true ∧ (n.allocateLocalAddr IP.v4zero 5000).2 = none ∧
    (n.dialUDP "udp" (some ⟨some IP.v4zero, 0⟩) none 0).2 =
      .error (.insert .addressAlreadyInUse)) (by decide +kernel) ?_
  rintro n os hrun ⟨hconns, hip, haccepted, hdial⟩
  have htabled : Tabled n := by
    refine keeps_of_step ?_ (tabled_new newNet.interfaces) hrun
    intro n e n' o h hstep
    have hcall : n.call e = (n', o) := Option.some.inj hstep
    have htabled := h.call e
    rw [hcall] at htabled
    exact htabled
  refine ⟨hip, haccepted, hdial, (usable_iff htabled.valid).mpr ⟨by decide, by decide, ?_⟩⟩
  intro c hc hport
  have hmem := List.mem_map_of_mem (f := UDPConn.locAddr) hc
  rw [hconns, List.mem_singleton] at hmem
  rw [hmem] at hport
  cases hport

end PionTransport.Vnet.Sockets
