import PionTransport.Vnet.Refusals

/-!
# Assigned addresses

A router assigns the addresses of its network in the order of their last byte. It
looks neither at the mask nor at its table, so an address is usable exactly if the
byte agrees with the network under the mask and nobody has asked for the address
before. The history of a network records who asked: the addresses that were
registered without being assigned, and not removed since.
-/

namespace PionTransport.Vnet.Addressing

open PionTransport.Core

/-- A table whose keys were registered on request, or assigned by counting up to `lastID`. -/
structure Accounted (n : Subnet) (lastID : UInt8) (nics : AList fun _ : IP => NIC)
    (statics : List IP) : Prop where
  last : lastID.toNat ≤ 0xfe
  static : ∀ key ∈ statics, key ∈ nics
  keys : ∀ key ∈ nics, key ∈ statics ∨
    ∃ id : UInt8, id.toNat ≤ lastID.toNat ∧ key = ⟨n.ip.bytes.take 3 ++ [id]⟩

namespace Accounted

variable {n : Subnet} {lastID : UInt8} {nics : AList fun _ : IP => NIC} {statics : List IP}

theorem empty (n : Subnet) : Accounted n 0 ∅ [] :=
  ⟨by decide, fun _ hkey => absurd hkey List.not_mem_nil, fun key hkey => by cases hkey⟩

/-- Addresses are registered on request. -/
theorem reserve (h : Accounted n lastID nics statics) (keys : List IP) (nic : NIC) :
    Accounted n lastID (insertAll nics (keys.map fun key => (key, nic))) (statics ++ keys) := by
  have hkeys : (keys.map fun key => (key, nic)).map Prod.fst = keys := by
    simp [Function.comp_def]
  refine ⟨h.last, fun key hkey => ?_, fun key hkey => ?_⟩
  · rw [mem_insertAll, hkeys]
    rcases List.mem_append.mp hkey with hold | hnew
    · exact Or.inr (h.static key hold)
    · exact Or.inl hnew
  · rw [mem_insertAll, hkeys] at hkey
    rcases hkey with hnew | hold
    · exact Or.inl (List.mem_append_right _ hnew)
    · exact (h.keys key hold).imp_left (List.mem_append_left _)

theorem succ_toNat (hlast : lastID.toNat ≤ 0xfe) : (lastID + 1).toNat = lastID.toNat + 1 := by
  rw [UInt8.toNat_add]
  exact Nat.mod_eq_of_lt (by simp; omega)

/-- The next address is assigned, and possibly refused. -/
theorem assign (h : Accounted n lastID nics statics) (hlast : lastID ≠ 0xfe) {keys : List IP}
    (hkeys : ∀ key ∈ keys, key = ⟨n.ip.bytes.take 3 ++ [lastID + 1]⟩) (nic : NIC) :
    Accounted n (lastID + 1) (insertAll nics (keys.map fun key => (key, nic))) statics := by
  have hsucc := succ_toNat h.last
  have hne : lastID.toNat ≠ 0xfe := fun he => hlast (UInt8.toNat.inj he)
  have hmap : (keys.map fun key => (key, nic)).map Prod.fst = keys := by
    simp [Function.comp_def]
  refine ⟨?_, fun key hkey => ?_, fun key hkey => ?_⟩
  · have := h.last
    omega
  · rw [mem_insertAll]
    exact Or.inr (h.static key hkey)
  · rw [mem_insertAll, hmap] at hkey
    rcases hkey with hnew | hold
    · exact Or.inr ⟨lastID + 1, Nat.le_refl _, hkeys key hnew⟩
    · rcases h.keys key hold with hstatic | ⟨id, hle, rfl⟩
      · exact Or.inl hstatic
      · exact Or.inr ⟨id, by omega, rfl⟩

/-- An address is removed. -/
theorem remove (h : Accounted n lastID nics statics) (key : IP) :
    Accounted n lastID (nics.erase key) (statics.filter (· ≠ key)) := by
  refine ⟨h.last, fun other hother => ?_, fun other hother => ?_⟩
  · obtain ⟨hmem, hne⟩ := List.mem_filter.mp hother
    exact AList.mem_erase.mpr ⟨by simpa using hne, h.static other hmem⟩
  · obtain ⟨hne, hmem⟩ := AList.mem_erase.mp hother
    refine (h.keys other hmem).imp_left fun hstatic => ?_
    exact List.mem_filter.mpr ⟨hstatic, by simpa using hne⟩

/-- The address that is assigned next is in use exactly if somebody asked for it. -/
theorem next_mem_iff (h : Accounted n lastID nics statics) :
    (⟨n.ip.bytes.take 3 ++ [lastID + 1]⟩ : IP) ∈ nics ↔
      (⟨n.ip.bytes.take 3 ++ [lastID + 1]⟩ : IP) ∈ statics := by
  refine ⟨fun hmem => ?_, h.static _⟩
  rcases h.keys _ hmem with hstatic | ⟨id, hle, he⟩
  · exact hstatic
  · have hid : lastID + 1 = id := by simpa using he
    have hsucc := succ_toNat h.last
    rw [hid] at hsucc
    omega

end Accounted

namespace Network

/-- The history variable: addresses that were registered on request, by router. -/
def reserveNIC (s : Network) (statics : Nat → List IP) (i : Nat) (nic : NIC) : Nat → List IP :=
  if findInterface "eth0" (s.nodes nic.base).interfaces = none ∨
      (s.nodes nic.base).staticIPs = [] then statics
  else Function.update statics i (statics i ++ (s.accepted i nic).map IP.canonical)

/-- What a call adds to the history, or takes from it. -/
def reserve (s : Network) (statics : Nat → List IP) : Call → Nat → List IP
  | .addNet i nic => s.reserveNIC statics i nic
  | .addRouter i child => s.reserveNIC statics i ⟨.router child, []⟩
  | .addAddress n ifName ip _ =>
    match findInterface ifName (s.nodes (.host n)).interfaces, (s.nodes (.host n)).router with
    | some _, some i =>
      if (s.routers i).subnet.contains ip then
        Function.update statics i (statics i ++ [ip.canonical])
      else statics
    | _, _ => statics
  | .removeAddress n ifName ip =>
    match findInterface ifName (s.nodes (.host n)).interfaces, (s.nodes (.host n)).router with
    | some _, some i => Function.update statics i ((statics i).filter (· ≠ ip.canonical))
    | _, _ => statics

/-- The fields of a router that assignments depend on. -/
def table (s : Network) (i : Nat) : Subnet × UInt8 × AList fun _ : IP => NIC :=
  ((s.routers i).subnet, (s.routers i).lastID, (s.routers i).nics)

/-- The table of a router is accounted for. -/
def Accounts (n : Subnet) (i : Nat) (s : Network) (statics : Nat → List IP) : Prop :=
  (s.routers i).subnet = n ∧ Accounted n (s.routers i).lastID (s.routers i).nics (statics i)

variable {s s' : Network} {n : Subnet} {i j : Nat} {nic : NIC} {err : Option AddressError}
  {statics statics' : Nat → List IP}

theorem Accounts.of_table (h : Accounts n i s statics) (he : s'.table i = s.table i)
    (hstatics : statics' i = statics i) : Accounts n i s' statics' := by
  simp only [table, Prod.mk.injEq] at he
  obtain ⟨hsubnet, hlast, hnics⟩ := he
  rw [Accounts, hsubnet, hlast, hnics, hstatics]
  exact h

theorem table_storeRouter_ne {r : Router} (h : i ≠ j) :
    (s.storeRouter j r).table i = s.table i := by
  simp [table, storeRouter, h]

theorem table_setRouter (s : Network) (node : Node) (parent i : Nat) :
    (s.setRouter node parent).1.table i = s.table i := by
  cases node with
  | host n => rfl
  | router k =>
    simp only [setRouter]
    split
    · rfl
    · split
      · rfl
      · by_cases hi : i = k
        · subst hi
          simp [table, storeRouter, storeNode]
        · exact table_storeRouter_ne hi

theorem table_register_ne {lastID : UInt8} (h : i ≠ j) :
    (s.register j nic lastID).table i = s.table i := by
  simp [register, changeInterface, storeNode, storeRouter, table, h]

theorem table_register (s : Network) (i : Nat) (nic : NIC) (lastID : UInt8) :
    (s.register i nic lastID).table i =
      ((s.routers i).subnet, lastID, insertAll (s.routers i).nics
        ((s.accepted i nic).map fun ip => (ip.canonical, nic))) := by
  simp [register, changeInterface, storeNode, storeRouter, table]

/-- An address of four bytes is its own canonical form. -/
theorem canonical_nextIP {r : Router} (h : r.subnet.ip.bytes.length = 4) :
    r.nextIP.canonical = r.nextIP := by
  apply IP.canonical_of_not_mapped
  rintro ⟨hlength, -⟩
  simp [Router.nextIP, h] at hlength

/-- The loop of `addNIC` keeps the account. -/
theorem Accounts.register (h : Accounts n i s statics) (hn : n.ip.bytes.length = 4)
    {ifc : Interface} {lastID : UInt8}
    (hfind : findInterface "eth0" (s.nodes nic.base).interfaces = some ifc)
    (hcounts : s.Counts j nic lastID) :
    Accounts n i (s.register j nic lastID) (s.reserveNIC statics j nic) := by
  by_cases hi : i = j
  · subst hi
    obtain ⟨hsubnet, haccounted⟩ := h
    have htable := s.table_register i nic lastID
    simp only [table, Prod.mk.injEq] at htable
    obtain ⟨hsubnet', hlast, hnics⟩ := htable
    have hpairs : ((s.accepted i nic).map fun ip => (ip.canonical, nic)) =
        ((s.accepted i nic).map IP.canonical).map fun key => (key, nic) := by
      simp [Function.comp_def]
    rw [Accounts, hsubnet', hlast, hnics, hpairs]
    refine ⟨hsubnet, ?_⟩
    by_cases hstatic : (s.nodes nic.base).staticIPs = []
    · rw [Counts, if_pos hstatic] at hcounts
      obtain ⟨hne, rfl⟩ := hcounts
      rw [reserveNIC, if_pos (Or.inr hstatic)]
      refine haccounted.assign hne (fun key hkey => ?_) nic
      obtain ⟨ip, hip, rfl⟩ := List.mem_map.mp hkey
      have hoffered := (List.takeWhile_sublist _).subset hip
      rw [offered, if_pos hstatic, List.mem_singleton] at hoffered
      rw [hoffered, canonical_nextIP (by rw [hsubnet, hn]), Router.nextIP, hsubnet]
    · rw [Counts, if_neg hstatic] at hcounts
      rw [hcounts, reserveNIC, if_neg (by simp [hfind, hstatic]), Function.update_self]
      exact haccounted.reserve _ nic
  · refine h.of_table (table_register_ne hi) ?_
    unfold reserveNIC
    split
    · rfl
    · rw [Function.update_of_ne hi]

theorem Accounts.addsNIC (h : Accounts n i s statics) (hn : n.ip.bytes.length = 4)
    (hadds : AddsNIC s j nic s' err) : Accounts n i s' (s.reserveNIC statics j nic) := by
  cases hadds with
  | noInterface e hnone =>
    rw [reserveNIC, if_pos (Or.inl hnone)]
    exact h
  | exhausted hstatic _ =>
    rw [reserveNIC, if_pos (Or.inr hstatic)]
    exact h
  | refused hfind hcounts _ => exact h.register hn hfind hcounts
  | attached hfind hcounts _ =>
    exact (h.register hn hfind hcounts).of_table (table_setRouter _ _ _ i) rfl

theorem Accounts.addAddress (h : Accounts n i s statics) (host : Nat) (ifName : String) (ip : IP)
    (mask : List UInt8) :
    Accounts n i (s.addAddress host ifName ip mask).1
      (s.reserve statics (.addAddress host ifName ip mask)) := by
  cases hifc : s.getInterface (.host host) ifName with
  | error e =>
    simp only [Network.addAddress, hifc, reserve, getInterface_error hifc]
    exact h
  | ok ifc =>
    rw [addAddress_eq hifc]
    simp only [reserve, getInterface_ok hifc]
    cases hrouter : (s.nodes (.host host)).router with
    | none => exact h
    | some k =>
      cases hin : (s.routers k).subnet.contains ip with
      | false =>
        refine h.of_table ?_ (by simp [hin])
        by_cases hi : i = k
        · subst hi
          simp [table, storeRouter, Router.addIPToNIC, hin]
        · exact table_storeRouter_ne hi
      | true =>
        by_cases hi : i = k
        · subst hi
          obtain ⟨hsubnet, haccounted⟩ := h
          have hreserve := haccounted.reserve [ip.canonical] ⟨.host host, []⟩
          refine ⟨?_, ?_⟩
          · simpa [storeRouter, Router.addIPToNIC, hin] using hsubnet
          · simpa [storeRouter, Router.addIPToNIC, hin, insertAll] using hreserve
        · refine h.of_table (table_storeRouter_ne hi) ?_
          simp [hin, hi]

theorem Accounts.removeAddress (h : Accounts n i s statics) (host : Nat) (ifName : String)
    (ip : IP) :
    Accounts n i (s.removeAddress host ifName ip).1
      (s.reserve statics (.removeAddress host ifName ip)) := by
  cases hifc : s.getInterface (.host host) ifName with
  | error e =>
    simp only [Network.removeAddress, hifc, reserve, getInterface_error hifc]
    exact h
  | ok ifc =>
    rw [removeAddress_eq hifc]
    simp only [reserve, getInterface_ok hifc]
    cases hrouter : (s.nodes (.host host)).router with
    | none => exact h
    | some k =>
      by_cases hi : i = k
      · subst hi
        obtain ⟨hsubnet, haccounted⟩ := h
        have hremove := haccounted.remove ip.canonical
        refine ⟨?_, ?_⟩
        · simp [storeRouter, Router.removeIPFromNIC, hsubnet]
        · simpa [storeRouter, Router.removeIPFromNIC] using hremove
      · refine h.of_table (table_storeRouter_ne hi) ?_
        simp [hi]

theorem Accounts.step (h : Accounts n i s statics) (hn : n.ip.bytes.length = 4) {c : Call}
    (hstep : s.step c = some (s', err)) : Accounts n i s' (s.reserve statics c) := by
  cases c with
  | addNet j nic => exact h.addsNIC hn (addNIC_cases hstep)
  | addRouter j child =>
    simp only [Network.step, addRouter] at hstep
    split at hstep
    · cases hstep
    next s₁ e hadd =>
      cases hstep
      exact h.addsNIC hn (addNIC_cases hadd)
    next s₁ hadd =>
      have htable := table_setRouter s₁ (.router child) j i
      rw [Option.some.inj hstep] at htable
      exact (h.addsNIC hn (addNIC_cases hadd)).of_table htable rfl
  | addAddress host ifName ip mask =>
    have haccounts := h.addAddress host ifName ip mask
    rw [Option.some.inj hstep] at haccounts
    exact haccounts
  | removeAddress host ifName ip =>
    have haccounts := h.removeAddress host ifName ip
    rw [Option.some.inj hstep] at haccounts
    exact haccounts

/-- A call whose NIC is given an address automatically. -/
def Automatic (s : Network) (i : Nat) (nic : NIC) : Call → Prop
  | .addNet j nic' => j = i ∧ nic' = nic ∧ (s.nodes nic.base).staticIPs = [] ∧
      (findInterface "eth0" (s.nodes nic.base).interfaces).isSome
  | .addRouter j child => j = i ∧ nic = ⟨.router child, []⟩ ∧ (s.nodes nic.base).staticIPs = [] ∧
      (findInterface "eth0" (s.nodes nic.base).interfaces).isSome
  | .addAddress .. => False
  | .removeAddress .. => False

/-- The address that is assigned lies in the subnet, was not in use and is routed to the NIC; nobody
loses a route; and the call does not fail for an address outside the subnet. -/
structure Usable (s s' : Network) (i : Nat) (nic : NIC) (err : Option AddressError) : Prop where
  address : ∀ ip, (s.routers i).assignIPAddress.2 = .ok ip →
    (s.routers i).subnet.contains ip ∧ ip.canonical ∉ (s.routers i).nics ∧
      (s'.routers i).nics.lookup ip.canonical = some nic
  routes : ∀ key other, (s.routers i).nics.lookup key = some other →
    (s'.routers i).nics.lookup key = some other
  error : ∀ subnet, err ≠ some (.staticIPisBeyondSubnet subnet)

theorem setRouter_error (s : Network) (node : Node) (parent : Nat) (subnet : Subnet) :
    (s.setRouter node parent).2 ≠ some (.staticIPisBeyondSubnet subnet) := by
  cases node with
  | host n => simp [setRouter]
  | router k =>
    simp only [setRouter]
    split
    next e hifc =>
      unfold getInterface at hifc
      split at hifc
      · cases hifc
        simp
      · split at hifc
        · cases hifc
          simp
        · cases hifc
    · split
      · simp
      · simp [Option.map_eq_some_iff]

/-- Setting a router changes nothing about the assignment. -/
theorem usable_setRouter (s s' : Network) (i : Nat) (nic : NIC) (node : Node) (parent : Nat) :
    Usable s (s'.setRouter node parent).1 i nic (s'.setRouter node parent).2 ↔
      Usable s s' i nic none := by
  have htable := table_setRouter s' node parent i
  simp only [table, Prod.mk.injEq] at htable
  obtain ⟨-, -, hnics⟩ := htable
  constructor
  · intro h
    refine ⟨?_, ?_, by simp⟩
    · rw [← hnics]
      exact h.address
    · rw [← hnics]
      exact h.routes
  · intro h
    refine ⟨?_, ?_, setRouter_error s' node parent⟩
    · rw [hnics]
      exact h.address
    · rw [hnics]
      exact h.routes

/-- Assignment by `addNIC`, from any state. -/
theorem AddsNIC.usable_iff (h : AddsNIC s i nic s' err)
    (hstatic : (s.nodes nic.base).staticIPs = [])
    (hfind : (findInterface "eth0" (s.nodes nic.base).interfaces).isSome) :
    Usable s s' i nic err ↔ (s.routers i).lastID = 0xfe ∨
      ((s.routers i).subnet.contains (s.routers i).nextIP = true ∧
        (s.routers i).nextIP.canonical ∉ (s.routers i).nics) := by
  have hoffered : s.offered i nic = [(s.routers i).nextIP] := by rw [offered, if_pos hstatic]
  cases h with
  | noInterface e hnone =>
    rw [hnone] at hfind
    cases hfind
  | exhausted _ hlast =>
    refine iff_of_true ⟨fun ip hip => ?_, fun _ _ h => h, by simp⟩ (Or.inl hlast)
    simp [Router.assignIPAddress, hlast] at hip
  | refused _ hcounts hall =>
    rw [Counts, if_pos hstatic] at hcounts
    rw [hoffered] at hall
    refine iff_of_false (fun h => h.error _ rfl) ?_
    rintro (hlast | ⟨hin, -⟩)
    · exact hcounts.1 hlast
    · simp [hin] at hall
  | @attached _ lastID _ hcounts hall =>
    rw [Counts, if_pos hstatic] at hcounts
    have hin : (s.routers i).subnet.contains (s.routers i).nextIP = true := by
      rw [hoffered] at hall
      simpa using hall
    have hassign : (s.routers i).assignIPAddress.2 = .ok (s.routers i).nextIP := by
      simp [Router.assignIPAddress, hcounts.1]
    have hnics : ((s.register i nic lastID).routers i).nics =
        (s.routers i).nics.insert (s.routers i).nextIP.canonical nic := by
      have htable := congrArg (fun t => t.2.2) (s.table_register i nic lastID)
      simpa [table, accepted, hoffered, hin, insertAll] using htable
    rw [usable_setRouter]
    constructor
    · intro h
      exact Or.inr ⟨hin, (h.address _ hassign).2.1⟩
    · rintro (hlast | ⟨-, hfree⟩)
      · exact absurd hlast hcounts.1
      refine ⟨fun ip hip => ?_, fun key other hkey => ?_, by simp⟩
      · rw [hassign] at hip
        cases hip
        refine ⟨hin, hfree, ?_⟩
        rw [hnics, AList.lookup_insert]
      · rw [hnics, lookup_insert_iff]
        refine Or.inr ⟨?_, hkey⟩
        rintro rfl
        exact hfree (AList.lookup_isSome.mp (by rw [hkey]; rfl))

end Network

/-- The next address is in the subnet if its last byte agrees with the network under the mask. -/
theorem contains_nextIP_iff {r : Router} {ip : IPv4} {ones : Nat}
    (h : r.subnet = .parseCIDR ip ones) :
    r.subnet.contains r.nextIP = true ↔
      (r.lastID + 1) &&& maskByte (ones - 24) = ip.d &&& maskByte (ones - 24) := by
  have hnext := Network.canonical_nextIP (r := r) (by rw [h]; rfl)
  have hnumber : (Subnet.parseCIDR ip ones).ip.canonical = (Subnet.parseCIDR ip ones).ip :=
    IP.canonical_of_not_mapped fun hmapped => absurd hmapped.1 (by simp [Subnet.parseCIDR])
  rw [Subnet.contains, hnext, Router.nextIP, h, hnumber]
  simp only [Subnet.parseCIDR, List.take_succ_cons, List.take_zero, List.cons_append,
    List.nil_append, List.length_cons, List.length_nil, Nat.sub_self, List.drop_zero,
    List.zipWith_cons_cons, List.zipWith_nil_left, UInt8.and_assoc, UInt8.and_self,
    beq_self_eq_true, Bool.true_and, beq_iff_eq, List.cons.injEq, true_and, and_true]
  exact eq_comm

/-- In every network that calls have made out of a new router of an IPv4 network, and for every NIC
without static addresses, the address that the router assigns is usable exactly if there is none
left, or its last byte agrees with the network under the mask, as it always does for a prefix of at
most 24 bits, and nobody has asked for it. -/
theorem assigned_address_usable_iff {s₀ s s' : Network} {i : Nat} {ip : IPv4} {ones : Nat}
    {calls : List Call} {answers : List (Option AddressError)} {statics : Nat → List IP}
    {c : Call} {nic : NIC} {err : Option AddressError}
    (hsubnet : (s₀.routers i).subnet = .parseCIDR ip ones) (hlast : (s₀.routers i).lastID = 0)
    (hnics : (s₀.routers i).nics = ∅)
    (hrun : run (observe Network.step Network.reserve) (s₀, fun _ => []) calls =
      some ((s, statics), answers))
    (hauto : s.Automatic i nic c) (hstep : s.step c = some (s', err)) :
    s.Usable s' i nic err ↔ (s.routers i).lastID = 0xfe ∨
      (((s.routers i).lastID + 1) &&& maskByte (ones - 24) = ip.d &&& maskByte (ones - 24) ∧
        (s.routers i).nextIP ∉ statics i) := by
  have hstart : Network.Accounts (.parseCIDR ip ones) i s₀ fun _ => [] := by
    refine ⟨hsubnet, ?_⟩
    rw [hlast, hnics]
    exact Accounted.empty _
  have haccounts : Network.Accounts (.parseCIDR ip ones) i s statics := by
    refine keeps_of_step (I := fun t : Network × (Nat → List IP) =>
      Network.Accounts (.parseCIDR ip ones) i t.1 t.2) ?_ hstart hrun
    intro t call t' answer h hobserve
    obtain ⟨⟨s₁, e⟩, hs, he⟩ := Option.map_eq_some_iff.mp hobserve
    cases he
    exact h.step rfl hs
  obtain ⟨hsame, haccounted⟩ := haccounts
  have hnext := haccounted.next_mem_iff
  rw [← hsame, ← Router.nextIP] at hnext
  have hcanonical := Network.canonical_nextIP (r := s.routers i) (by rw [hsame]; rfl)
  have hadded : ∀ {s₁ e}, Network.AddsNIC s i nic s₁ e → (s.nodes nic.base).staticIPs = [] →
      (findInterface "eth0" (s.nodes nic.base).interfaces).isSome →
      (s.Usable s₁ i nic e ↔ (s.routers i).lastID = 0xfe ∨
        (((s.routers i).lastID + 1) &&& maskByte (ones - 24) = ip.d &&& maskByte (ones - 24) ∧
          (s.routers i).nextIP ∉ statics i)) := by
    intro s₁ e hadds hstatic hfind
    rw [hadds.usable_iff hstatic hfind, contains_nextIP_iff hsame, hcanonical, hnext]
  cases c with
  | addNet j nic' =>
    obtain ⟨rfl, rfl, hstatic, hfind⟩ := hauto
    exact hadded (Network.addNIC_cases hstep) hstatic hfind
  | addRouter j child =>
    obtain ⟨rfl, rfl, hstatic, hfind⟩ := hauto
    simp only [Network.step, Network.addRouter] at hstep
    split at hstep
    · cases hstep
    next s₁ e hadd =>
      cases hstep
      exact hadded (Network.addNIC_cases hadd) hstatic hfind
    next s₁ hadd =>
      have hset := s.usable_setRouter s₁ j ⟨.router child, []⟩ (.router child) j
      rw [Option.some.inj hstep] at hset
      rw [hset]
      exact hadded (Network.addNIC_cases hadd) hstatic hfind
  | addAddress | removeAddress => exact hauto.elim

/-- A router of 10.0.0.128 under a prefix of `ones` bits, and hosts of which hosts 6 and 7 ask for
an address; nothing is attached yet. -/
def newNetwork (ones : Nat) : Network where
  nodes := fun
    | .host 6 => newNet [⟨[10, 0, 0, 9]⟩]
    | .host 7 => newNet [⟨[10, 0, 0, 1]⟩]
    | .host _ => newNet []
    | .router _ => newRouterNIC []
  routers := fun _ => ⟨.parseCIDR ⟨10, 0, 0, 128⟩ ones, ∅, 0, ∅, none⟩

/-- After a requested and an assigned address of a network of 24 bits, the next one assigned is
usable. -/
theorem second_assignment_usable : ∃ s s' answers err,
    run (observe Network.step Network.reserve) (newNetwork 24, fun _ => [])
      [.addNet 0 ⟨.host 6, []⟩, .addNet 0 ⟨.host 9, []⟩] = some (s, answers) ∧
    s.1.step (.addNet 0 ⟨.host 8, []⟩) = some (s', err) ∧
      s.1.Usable s' 0 ⟨.host 8, []⟩ err := by
  have hrun : run (observe Network.step Network.reserve) (newNetwork 24, fun _ => [])
      [.addNet 0 ⟨.host 6, []⟩, .addNet 0 ⟨.host 9, []⟩] = some _ := rfl
  refine ⟨_, _, _, _, hrun, rfl, ?_⟩
  refine (assigned_address_usable_iff (c := .addNet 0 ⟨.host 8, []⟩) rfl rfl rfl hrun ?_
    rfl).mpr (Or.inr ?_)
  · exact ⟨rfl, rfl, rfl, rfl⟩
  · decide +kernel

/-- Host 7 asks for the address that is assigned to host 8 next, and loses its route to it. -/
theorem assignment_takes_static_route : ∃ s s' answers,
    run Network.step (newNetwork 24) [.addNet 0 ⟨.host 7, []⟩] = some (s, answers) ∧
      s.Automatic 0 ⟨.host 8, []⟩ (.addNet 0 ⟨.host 8, []⟩) ∧
      s.step (.addNet 0 ⟨.host 8, []⟩) = some (s', none) ∧
      (s.routers 0).nics.lookup ⟨[10, 0, 0, 1]⟩ = some ⟨.host 7, []⟩ ∧
      (s'.routers 0).nics.lookup ⟨[10, 0, 0, 1]⟩ = some ⟨.host 8, []⟩ ∧
      ¬ s.Usable s' 0 ⟨.host 8, []⟩ none := by
  refine ⟨_, _, _, rfl, ⟨rfl, rfl, rfl, rfl⟩, rfl, rfl, rfl, fun h => ?_⟩
  have hroute := h.routes ⟨[10, 0, 0, 1]⟩ ⟨.host 7, []⟩ rfl
  exact absurd hroute (by decide +kernel)

/-- The first address of a network of 25 bits that does not start at 0 is outside of it. -/
example : ((newNetwork 25).step (.addNet 0 ⟨.host 8, []⟩)).map (fun result => result.2) =
    some (some (.staticIPisBeyondSubnet (.parseCIDR ⟨10, 0, 0, 128⟩ 25))) := by
  decide +kernel

end PionTransport.Vnet.Addressing
