import PionTransport.Core.Heap
import PionTransport.Vnet.Sharing
import PionTransport.Vnet.Sockets

/-!
# The socket table is the set of open sockets

Whatever sockets are opened and closed and whatever addresses come and go, the
table holds exactly the open connections, each once. On a port either one
connection with an unspecified address is alone, or the connections have
different specific addresses, so a destination has at most one receiver and
`delete`, which goes by address, removes one connection only.
-/

namespace PionTransport.Vnet.Sockets

open PionTransport.Core

/-- The connections of each port are apart. -/
def UDPConnMap.Valid (m : UDPConnMap) : Prop :=
  Grouped (fun c : UDPConn => c.locAddr.port) (Apart fun c => c.locAddr.ip) m.portMap

namespace UDPConnMap

variable {m : UDPConnMap} {c : UDPConn} {addr : UDPAddr}

theorem valid_empty : ({} : UDPConnMap).Valid := Grouped.empty

/-- Every connection is stored once. -/
theorem Valid.nodup (h : m.Valid) : m.conns.Nodup :=
  Grouped.nodup h fun _ hconns => hconns.nodup

theorem insert_eq (m : UDPConnMap) (conn : UDPConn) : m.insert conn =
    match insertSocket (fun c => c.locAddr.ip) (fun c => c.locAddr.port) m.portMap conn with
    | some portMap => (⟨portMap⟩, none)
    | none => (m, some .addressAlreadyInUse) := by
  unfold UDPConnMap.insert insertSocket
  cases m.portMap.lookup conn.locAddr.port with
  | none => rfl
  | some conns =>
    cases conn.locAddr.ip.isUnspecified with
    | true => rfl
    | false =>
      simp only [Bool.false_eq_true, if_false]
      cases conns.any fun c => c.locAddr.ip.serves conn.locAddr.ip <;> rfl

/-- An insertion that succeeds adds the connection. -/
theorem Valid.insert (h : m.Valid) (hok : (m.insert c).2 = none) :
    (m.insert c).1.Valid ∧ ∀ d, d ∈ (m.insert c).1.conns ↔ d ∈ m.conns ∨ d = c := by
  rw [insert_eq] at hok ⊢
  split at hok
  next portMap hinsert =>
    exact grouped_insertSocket h hinsert
  · cases hok

/-- A look at the table does not change it, and finds the one connection for a specific address. -/
theorem Valid.find (h : m.Valid) (addr : UDPAddr) : (m.find addr).1 = m ∧
    (addr.ip.isUnspecified = false → ∀ c, (m.find addr).2 = some c ↔
      c ∈ m.conns ∧ c.locAddr.port = addr.port ∧ c.locAddr.ip.serves addr.ip = true) := by
  unfold UDPConnMap.find
  cases hlookup : m.portMap.lookup addr.port with
  | none =>
    refine ⟨rfl, fun _ c => ?_⟩
    constructor
    · intro hc
      cases hc
    · rintro ⟨hc, hport, -⟩
      exact absurd hport (h.key_ne hlookup hc)
  | some conns =>
    have hne := h.nonempty hlookup
    cases hip : addr.ip.isUnspecified with
    | true =>
      cases conns with
      | nil => exact absurd rfl hne
      | cons c rest => exact ⟨rfl, fun hspecific => by cases hspecific⟩
    | false =>
      have hunique : ∀ c ∈ conns, ∀ d ∈ conns, c.locAddr.ip.serves addr.ip = true →
          d.locAddr.ip.serves addr.ip = true → c = d := fun c hc d hd =>
        (h.group hlookup).unique hc hd
      refine ⟨rfl, fun _ c => ?_⟩
      change (conns.find? fun c => c.locAddr.ip.serves addr.ip) = some c ↔ _
      rw [find?_eq_some_iff_of_unique hunique, h.mem_group hlookup, and_assoc]
      rfl

/-- A connection that is stored is removed by its address, alone and without an error. -/
theorem Valid.delete (h : m.Valid) (hc : c ∈ m.conns) : (m.delete c.locAddr).2 = none ∧
    (m.delete c.locAddr).1.Valid ∧
      ∀ d, d ∈ (m.delete c.locAddr).1.conns ↔ d ∈ m.conns ∧ d ≠ c := by
  obtain ⟨conns, hlookup, hmem⟩ := h.mem_members.mp hc
  have hapart := h.group hlookup
  have hself : c.locAddr.ip.equal c.locAddr.ip = true := IP.equal_iff.mpr rfl
  -- every branch leaves the port with its other connections
  have hdelete : m.delete c.locAddr = (⟨setGroup m.portMap c.locAddr.port
      (conns.filter fun d => !d.locAddr.ip.equal c.locAddr.ip)⟩, none) := by
    unfold UDPConnMap.delete setGroup
    rw [hlookup]
    cases hip : c.locAddr.ip.isUnspecified with
    | true =>
      have hnil : (conns.filter fun d => !d.locAddr.ip.equal c.locAddr.ip) = [] := by
        rw [List.filter_eq_nil_iff]
        intro d hd
        rw [hapart.eq_of_unspecified hmem hip hd, hself]
        exact Bool.false_ne_true
      rw [hnil]
      rfl
    | false =>
      have hany : (conns.any fun d => d.locAddr.ip.isUnspecified) = false := by
        rw [List.any_eq_false]
        intro d hd
        rw [(hapart.of_specific hmem hip).1 d hd]
        exact Bool.false_ne_true
      simp only [hany, Bool.false_eq_true, if_false]
      split
      next hnil =>
        rw [hnil]
        rfl
      next newConns hne => rw [if_neg (by simpa using hne)]
  rw [hdelete]
  refine ⟨rfl, h.set ?_ fun _ => hapart.sublist List.filter_sublist, ?_⟩
  · intro d hd
    exact h.key hlookup d (List.mem_of_mem_filter hd)
  · intro d
    have hothers := h.mem_filter (k := c.locAddr.port) (x := d)
      fun d => !d.locAddr.ip.equal c.locAddr.ip
    rw [groupAt, hlookup] at hothers
    refine hothers.trans (and_congr_right fun hd => ?_)
    constructor
    · rintro htest rfl
      simp [hself] at htest
    · intro hne hport
      rw [Bool.not_eq_true']
      apply eq_false_of_ne_true
      intro hequal
      exact hne (hapart.eq_of_equal ((h.mem_group hlookup).mpr ⟨hd, hport⟩) hmem hequal)

end UDPConnMap

/-- The table of a stack holds its open connections. -/
structure Tabled (n : Net) : Prop where
  valid : n.udpConns.Valid
  table : ∀ c, c ∈ n.udpConns.conns ↔ n.IsOpen c
  ids : ∀ {i : Nat} {c : UDPConn}, n.conns[i]? = some c → c.id = i
  closed : ∀ i ∈ n.closed, i < n.conns.length

section Calls

variable {n : Net}

theorem tabled_new (interfaces : List Interface) : Tabled { interfaces := interfaces } where
  valid := UDPConnMap.valid_empty
  table c := by
    constructor
    · intro hc
      cases hc
    · rintro ⟨hc, -⟩
      cases hc
  ids h := by cases h
  closed i hi := by cases hi

theorem findConn_fst (h : n.udpConns.Valid) (addr : UDPAddr) : (n.findConn addr).1 = n := by
  unfold Net.findConn
  rw [(h.find addr).1]

theorem checkUnused_fst (h : n.udpConns.Valid) (port : Int) (ips : List IP) :
    (n.checkUnused port ips).1 = n := by
  induction ips with
  | nil => rfl
  | cons ip ips ih =>
    have hfind := findConn_fst h ⟨ip, port⟩
    unfold Net.checkUnused
    split
    next heq =>
      rw [heq] at hfind
      exact hfind
    next heq =>
      rw [heq] at hfind
      cases hfind
      exact ih

theorem allocateLocalAddr_fst (h : n.udpConns.Valid) (ip : IP) (port : Int) :
    (n.allocateLocalAddr ip port).1 = n := by
  simp only [Net.allocateLocalAddr]
  generalize (if ip.isUnspecified then n.getAllIPAddrs ip.to4.isNone
    else if n.hasIPAddr ip then [ip] else []) = ips
  split
  · rfl
  · exact checkUnused_fst h port ips

theorem tryPorts_fst (h : n.udpConns.Valid) (ip : IP) (start : Int) (space offset i left : Nat) :
    (n.tryPorts ip start space offset i left).1 = n := by
  induction left generalizing i with
  | zero => rfl
  | succ left ih =>
    have halloc := allocateLocalAddr_fst h ip (((offset + i) % space : Nat) + start)
    unfold Net.tryPorts
    split
    next heq =>
      rw [heq] at halloc
      exact halloc
    next heq =>
      rw [heq] at halloc
      cases halloc
      exact ih (i + 1)

/-- The choice of a port does not change the stack. -/
theorem assignPort_fst (h : n.udpConns.Valid) (ip : IP) (start stop : Int) (offset : Nat) :
    (n.assignPort ip start stop offset).1 = n := by
  unfold Net.assignPort
  split
  · rfl
  · exact tryPorts_fst h ip start _ offset 0 _

/-- What a call can do to the stack. -/
inductive Changes (n : Net) : Net → Prop
  | same : Changes n n
  | opened {m : UDPConnMap} {locAddr : UDPAddr} {remAddr : Option UDPAddr}
      (hinsert : n.udpConns.insert ⟨n.conns.length, locAddr, remAddr⟩ = (m, none)) :
      Changes n
        { n with udpConns := m, conns := n.conns ++ [⟨n.conns.length, locAddr, remAddr⟩] }
  | closed {conn : Nat} {c : UDPConn} (hget : n.conns[conn]? = some c) (hopen : c.id ∉ n.closed) :
      Changes n
        { n with udpConns := (n.udpConns.delete c.locAddr).1, closed := insert c.id n.closed }
  | addressed {interfaces : List Interface} : Changes n { n with interfaces := interfaces }

theorem register_changes (n : Net) (locAddr : UDPAddr) (remAddr : Option UDPAddr) :
    Changes n (n.register locAddr remAddr).1 := by
  unfold Net.register
  split
  · exact .same
  next m hinsert => exact .opened hinsert

theorem dialUDP_changes (h : n.udpConns.Valid) (network : String) (locAddr : Option LocalAddr)
    (remAddr : Option UDPAddr) (offset : Nat) :
    Changes n (n.dialUDP network locAddr remAddr offset).1 := by
  simp only [Net.dialUDP]
  generalize (locAddr.bind LocalAddr.ip).getD (udpZeroIP network) = ip
  generalize (locAddr.map LocalAddr.port).getD 0 = port
  have hassign := assignPort_fst h ip 5000 5999 offset
  have hfind := findConn_fst h ⟨ip, port⟩
  split
  · exact .same
  · split
    · exact .same
    · split
      · split
        next heq =>
          rw [heq] at hassign
          cases hassign
          exact .same
        next heq =>
          rw [heq] at hassign
          cases hassign
          exact register_changes _ _ remAddr
      · split
        next heq =>
          rw [heq] at hfind
          cases hfind
          exact .same
        next heq =>
          rw [heq] at hfind
          cases hfind
          exact register_changes _ _ remAddr

theorem opening_fst (r : Net × Except DialError UDPConn) : (Net.opening r).1 = r.1 := by
  obtain ⟨n, r⟩ := r
  cases r <;> rfl

theorem changeInterface_changes (n : Net) (ifName : String) (f : Interface → Interface) :
    Changes n (n.changeInterface ifName f).1 := by
  unfold Net.changeInterface
  split
  · exact .same
  · split
    · exact .same
    · exact .addressed

theorem call_changes (h : n.udpConns.Valid) (e : Event) : Changes n (n.call e).1 := by
  cases e with
  | listenUDP network locAddr offset =>
    rw [Net.call, opening_fst]
    exact dialUDP_changes h network locAddr none offset
  | dialUDP network locAddr remAddr offset =>
    rw [Net.call, opening_fst]
    exact dialUDP_changes h network locAddr remAddr offset
  | listenPacket network resolved offset =>
    cases resolved with
    | none => exact .same
    | some locAddr =>
      rw [Net.call, opening_fst]
      exact dialUDP_changes h network (some locAddr) none offset
  | dial network resolved offset =>
    cases resolved with
    | none => exact .same
    | some remAddr =>
      rw [Net.call, opening_fst]
      exact dialUDP_changes h network _ (some remAddr) offset
  | close conn =>
    rw [Net.call, Net.close]
    split
    · exact .same
    next c hget =>
      split
      · exact .same
      next hopen => exact .closed hget hopen
  | addAddress ifName | removeAddress ifName => exact changeInterface_changes n ifName _

/-- A new connection is open and in the table. -/
theorem Tabled.opened (h : Tabled n) {m : UDPConnMap} {locAddr : UDPAddr}
    {remAddr : Option UDPAddr}
    (hinsert : n.udpConns.insert ⟨n.conns.length, locAddr, remAddr⟩ = (m, none)) :
    Tabled
      { n with udpConns := m, conns := n.conns ++ [⟨n.conns.length, locAddr, remAddr⟩] } := by
  obtain ⟨hvalid, hmem⟩ := h.valid.insert (congrArg Prod.snd hinsert)
  rw [hinsert] at hvalid hmem
  refine ⟨hvalid, fun c => ?_, fun hi => ?_, fun i hi => ?_⟩
  · have hfresh : n.conns.length ∉ n.closed := fun hin => Nat.lt_irrefl _ (h.closed _ hin)
    rw [hmem, h.table]
    simp only [Net.IsOpen, List.mem_append, List.mem_singleton, or_and_right]
    refine or_congr_right ⟨fun hc => ⟨hc, ?_⟩, fun hc => hc.1⟩
    rw [hc]
    exact hfresh
  · rcases getElem?_snoc_iff.mp hi with ⟨rfl, rfl⟩ | hi
    · rfl
    · exact h.ids hi
  · have hlt := h.closed i hi
    simp only [List.length_append, List.length_singleton]
    omega

/-- Closing an open connection removes it from the table. -/
theorem Tabled.closing (h : Tabled n) {c : UDPConn} (hopen : n.IsOpen c) :
    n.close c.id = ({ n with
      udpConns := (n.udpConns.delete c.locAddr).1, closed := insert c.id n.closed },
        .closed none) := by
  obtain ⟨i, hi⟩ := List.mem_iff_getElem?.mp hopen.1
  have hid := h.ids hi
  have hget : n.conns[c.id]? = some c := by rw [hid]; exact hi
  have hdelete := (h.valid.delete ((h.table c).mpr hopen)).1
  simp only [Net.close, hget, if_neg hopen.2, hdelete]

theorem Tabled.call (h : Tabled n) (e : Event) : Tabled (n.call e).1 := by
  have hchanges := call_changes h.valid e
  generalize (n.call e).1 = n' at hchanges
  cases hchanges with
  | same => exact h
  | opened hinsert => exact h.opened hinsert
  | @closed conn c hget hopen =>
    have hid := h.ids hget
    have hopen : n.IsOpen c := ⟨List.mem_of_getElem? hget, hopen⟩
    obtain ⟨-, hvalid, hmem⟩ := h.valid.delete ((h.table c).mpr hopen)
    refine ⟨hvalid, fun d => ?_, h.ids, fun i hi => ?_⟩
    · rw [hmem, h.table]
      simp only [Net.IsOpen, Finset.mem_insert, not_or]
      constructor
      · rintro ⟨⟨hd, hnot⟩, hne⟩
        refine ⟨hd, fun he => hne ?_, hnot⟩
        obtain ⟨j, hj⟩ := List.mem_iff_getElem?.mp hd
        have hjd := h.ids hj
        rw [← hjd, he, hid, hget] at hj
        exact (Option.some.inj hj).symm
      · rintro ⟨hd, hne, hnot⟩
        exact ⟨⟨hd, hnot⟩, fun he => hne (by rw [he])⟩
    · rcases Finset.mem_insert.mp hi with rfl | hi
      · rw [hid]
        exact (List.getElem?_eq_some_iff.mp hget).1
      · exact h.closed i hi
  | addressed => exact ⟨h.valid, h.table, h.ids, h.closed⟩

end Calls

/-- After every sequence of calls: the table has the connections that were opened and not closed,
each once; on a port one connection with an unspecified address is alone, or all have different
specific ones; closing a connection removes it and no other and `delete` has no error; a look at
the table does not change it, and what is sent to a specific address finds the one open connection
that serves it. -/
theorem table_is_open_sockets (interfaces : List Interface) (es : List Event) :
    ∃ n os, run Net.step { interfaces := interfaces } es = some (n, os) ∧
      n.udpConns.conns.Nodup ∧ (∀ c, c ∈ n.udpConns.conns ↔ n.IsOpen c) ∧
      (∀ port conns, n.udpConns.portMap.lookup port = some conns →
        (∃ c, conns = [c] ∧ c.locAddr.ip.isUnspecified = true) ∨
          (∀ c ∈ conns, c.locAddr.ip.isUnspecified = false) ∧
            conns.Pairwise fun c d => c.locAddr.ip.equal d.locAddr.ip = false) ∧
      (∀ c, n.IsOpen c → ∃ n', n.step (.close c.id) = some (n', .closed none) ∧
        ∀ d, d ∈ n'.udpConns.conns ↔ d ∈ n.udpConns.conns ∧ d ≠ c) ∧
      ∀ addr : UDPAddr, (n.udpConns.find addr).1 = n.udpConns ∧
        (addr.ip.isUnspecified = false → ∀ c, (n.udpConns.find addr).2 = some c ↔
          n.IsOpen c ∧ c.locAddr.port = addr.port ∧
            (c.locAddr.ip.isUnspecified = true ∨ c.locAddr.ip.equal addr.ip = true)) := by
  obtain ⟨n, os, hrun, h⟩ :=
    run_keeps (fun n e (h : Tabled n) => ⟨_, _, rfl, h.call e⟩) es (tabled_new interfaces)
  refine ⟨n, os, hrun, h.valid.nodup, h.table, fun _ _ hlookup => h.valid.group hlookup, ?_, ?_⟩
  · intro c hopen
    refine ⟨_, congrArg some (h.closing hopen), ?_⟩
    exact (h.valid.delete ((h.table c).mpr hopen)).2.2
  · intro addr
    obtain ⟨hsame, hfind⟩ := h.valid.find addr
    refine ⟨hsame, fun hspecific c => ?_⟩
    rw [hfind hspecific, h.table, IP.serves, Bool.or_eq_true]

/-- On a new stack: the port of an open connection is refused, and is free again after `Close`. -/
example :
    (run Net.step newNet [.listenUDP "udp" (some ⟨some (IP.v4 127 0 0 1), 80⟩) 0,
      .listenUDP "udp" (some ⟨none, 80⟩) 0, .close 0, .listenUDP "udp" (some ⟨none, 80⟩) 0]).map
        Prod.snd =
      some [.opened ⟨0, ⟨IP.v4 127 0 0 1, 80⟩, none⟩,
        .failed (.listen "udp" ⟨IP.v4zero, 80⟩ .addressAlreadyInUse), .closed none,
        .opened ⟨1, ⟨IP.v4zero, 80⟩, none⟩] := by
  decide +kernel

end PionTransport.Vnet.Sockets
