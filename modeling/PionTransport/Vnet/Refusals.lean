import PionTransport.Core.Run
import PionTransport.Vnet.Addressing

/-!
# Refused attachments and removed addresses

A call that attaches a NIC registers its addresses one by one, and does not take
them back when a later one is refused or when the NIC's own `setRouter` fails. So a
failed call leaves interfaces and tables as they were exactly if it fails before
the first address. A removal deletes a route by its address, whoever owns it.
-/

namespace PionTransport.Vnet.Addressing

open PionTransport.Core

section Interfaces

variable {ifName : String} {f : List IfcAddr → List IfcAddr} {ifcs : List Interface}

theorem findInterface_changeAddrs (ifName : String) (f : List IfcAddr → List IfcAddr)
    (ifcs : List Interface) :
    findInterface ifName (changeAddrs ifName f ifcs) =
      (findInterface ifName ifcs).map fun ifc => { ifc with addrs := f ifc.addrs } := by
  induction ifcs with
  | nil => rfl
  | cons ifc ifcs ih =>
    unfold findInterface at ih ⊢
    by_cases hname : ifc.name = ifName
    · simp [changeAddrs, hname]
    · simp [changeAddrs, hname, ih]

theorem findInterface_changeAddrs_ne {name : String} (hname : ifName ≠ name)
    (f : List IfcAddr → List IfcAddr) (ifcs : List Interface) :
    findInterface name (changeAddrs ifName f ifcs) = findInterface name ifcs := by
  induction ifcs with
  | nil => rfl
  | cons ifc ifcs ih =>
    unfold findInterface at ih ⊢
    by_cases hifc : ifc.name = ifName
    · simp [changeAddrs, hifc, hname]
    · simp [changeAddrs, hifc, List.find?_cons, ih]

/-- `Interface.RemoveAddress` takes one of the equal addresses away. -/
theorem countP_removeFirst (addrs : List IfcAddr) (ip : IP) :
    (removeFirst addrs ip).countP (fun addr => addr.ip.any fun x => x.equal ip) =
      addrs.countP (fun addr => addr.ip.any fun x => x.equal ip) - 1 := by
  unfold removeFirst
  induction addrs with
  | nil => rfl
  | cons addr addrs ih =>
    by_cases hequal : (addr.ip.any fun x => x.equal ip) = true
    · simp [List.eraseP_cons_of_pos, hequal]
    · simp [List.eraseP_cons_of_neg, hequal, ih]

/-- Appending to an interface that exists changes it. -/
theorem changeAddrs_append_eq {ifc : Interface} (h : findInterface ifName ifcs = some ifc)
    (added : List IfcAddr) :
    changeAddrs ifName (fun addrs => addrs ++ added) ifcs = ifcs ↔ added = [] := by
  constructor
  · intro he
    have hfind := findInterface_changeAddrs ifName (fun addrs => addrs ++ added) ifcs
    rw [he, h, Option.map_some, Option.some.injEq] at hfind
    exact List.append_right_eq_self.mp (congrArg Interface.addrs hfind).symm
  · rintro rfl
    clear h
    induction ifcs with
    | nil => rfl
    | cons ifc ifcs ih =>
      unfold changeAddrs
      split
      · simp
      · rw [ih]

end Interfaces

/-- What the loop of `addNIC` does: the addresses up to the first one outside the subnet. -/
theorem Router.register_eq (r : Router) (nic : NIC) (ips : List IP) :
    r.register nic ips =
      ({ r with
          nics := insertAll r.nics
            ((ips.takeWhile r.subnet.contains).map fun ip => (ip.canonical, nic)) },
        ips.takeWhile r.subnet.contains,
        if ips.all r.subnet.contains then none else some (.staticIPisBeyondSubnet r.subnet)) := by
  induction ips generalizing r with
  | nil => rfl
  | cons ip ips ih =>
    unfold register
    cases hin : r.subnet.contains ip with
    | false => simp [hin, insertAll]
    | true =>
      rw [if_neg (by simp), ih]
      simp [hin, insertAll]

namespace Network

variable {s s' : Network} {i n : Nat} {node : Node} {nic : NIC} {err : Option AddressError}

/-- The tables of the routers and the addresses of all interfaces. -/
def addressing (s : Network) : (Nat → AList fun _ : IP => NIC) × (Node → List Interface) :=
  (fun i => (s.routers i).nics, fun node => (s.nodes node).interfaces)

theorem addressing_storeRouter {r : Router} (h : r.nics = (s.routers i).nics) :
    (s.storeRouter i r).addressing = s.addressing := by
  refine Prod.ext ?_ rfl
  funext k
  by_cases hk : k = i
  · subst hk
    simp [addressing, storeRouter, h]
  · simp [addressing, storeRouter, hk]

theorem addressing_storeNode {e : Endpoint} (h : e.interfaces = (s.nodes node).interfaces) :
    (s.storeNode node e).addressing = s.addressing := by
  refine Prod.ext rfl ?_
  funext other
  by_cases hother : other = node
  · subst hother
    simp [addressing, storeNode, h]
  · simp [addressing, storeNode, hother]

/-- `setRouter` changes no address, whether it succeeds or not. -/
theorem addressing_setRouter (s : Network) (node : Node) (parent : Nat) :
    (s.setRouter node parent).1.addressing = s.addressing := by
  have hnode : (s.storeNode node { s.nodes node with router := some parent }).addressing =
      s.addressing := addressing_storeNode rfl
  cases node with
  | host n => exact hnode
  | router k =>
    simp only [setRouter]
    split
    · exact hnode
    · split
      · exact hnode
      · refine Eq.trans (addressing_storeRouter ?_) hnode
        rfl

variable {e : AddressError} {ifName : String}

theorem getInterface_error (h : s.getInterface node ifName = .error e) :
    findInterface ifName (s.nodes node).interfaces = none := by
  unfold getInterface at h
  split at h
  next hnil => rw [hnil]; rfl
  · split at h
    next hnone => exact hnone
    · cases h

variable {ifc : Interface}

theorem getInterface_ok (h : s.getInterface node ifName = .ok ifc) :
    findInterface ifName (s.nodes node).interfaces = some ifc := by
  unfold getInterface at h
  split at h
  · cases h
  · split at h
    · cases h
    next hsome =>
      cases h
      exact hsome

/-- The addresses that `addNIC` offers to a NIC: its static ones, or the one that is next. -/
def offered (s : Network) (i : Nat) (nic : NIC) : List IP :=
  if (s.nodes nic.base).staticIPs = [] then [(s.routers i).nextIP]
  else (s.nodes nic.base).staticIPs

/-- `addNIC` fails before it registers an address. -/
def RefusedEarly (s : Network) (i : Nat) (nic : NIC) : Prop :=
  findInterface "eth0" (s.nodes nic.base).interfaces = none ∨
    ((s.nodes nic.base).staticIPs = [] ∧ (s.routers i).lastID = 0xfe) ∨
    ∃ ip ∈ (s.offered i nic).head?, (s.routers i).subnet.contains ip = false

/-- The counter of the router once it has offered addresses. -/
def Counts (s : Network) (i : Nat) (nic : NIC) (lastID : UInt8) : Prop :=
  if (s.nodes nic.base).staticIPs = [] then
    (s.routers i).lastID ≠ 0xfe ∧ lastID = (s.routers i).lastID + 1
  else lastID = (s.routers i).lastID

/-- The addresses that the loop of `addNIC` gives to the NIC. -/
def accepted (s : Network) (i : Nat) (nic : NIC) : List IP :=
  (s.offered i nic).takeWhile (s.routers i).subnet.contains

/-- The network after the loop of `addNIC`. -/
def register (s : Network) (i : Nat) (nic : NIC) (lastID : UInt8) : Network :=
  (s.storeRouter i
    { s.routers i with
      lastID := lastID
      nics := insertAll (s.routers i).nics
        ((s.accepted i nic).map fun ip => (ip.canonical, nic)) }).changeInterface nic.base "eth0"
    fun addrs => addrs ++ (s.accepted i nic).map fun ip => .ipNet ip (s.routers i).subnet.mask

/-- What `addNIC` can do. -/
inductive AddsNIC (s : Network) (i : Nat) (nic : NIC) : Network → Option AddressError → Prop
  | noInterface (e : AddressError) :
      findInterface "eth0" (s.nodes nic.base).interfaces = none → AddsNIC s i nic s (some e)
  | exhausted : (s.nodes nic.base).staticIPs = [] → (s.routers i).lastID = 0xfe →
      AddsNIC s i nic s (some .addressSpaceExhausted)
  | refused {ifc : Interface} {lastID : UInt8} :
      findInterface "eth0" (s.nodes nic.base).interfaces = some ifc → s.Counts i nic lastID →
      (s.offered i nic).all (s.routers i).subnet.contains = false →
      AddsNIC s i nic (s.register i nic lastID)
        (some (.staticIPisBeyondSubnet (s.routers i).subnet))
  | attached {ifc : Interface} {lastID : UInt8} :
      findInterface "eth0" (s.nodes nic.base).interfaces = some ifc → s.Counts i nic lastID →
      (s.offered i nic).all (s.routers i).subnet.contains = true →
      AddsNIC s i nic ((s.register i nic lastID).setRouter nic.base i).1
        ((s.register i nic lastID).setRouter nic.base i).2

theorem addresses_spec (s : Network) (i : Nat) (nic : NIC) :
    ((s.nodes nic.base).staticIPs = [] ∧ (s.routers i).lastID = 0xfe ∧
        (s.routers i).addresses (s.nodes nic.base).staticIPs =
          (s.routers i, .error .addressSpaceExhausted)) ∨
      ∃ lastID, s.Counts i nic lastID ∧
        (s.routers i).addresses (s.nodes nic.base).staticIPs =
          ({ s.routers i with lastID := lastID }, .ok (s.offered i nic)) := by
  by_cases hstatic : (s.nodes nic.base).staticIPs = []
  · by_cases hlast : (s.routers i).lastID = 0xfe
    · refine Or.inl ⟨hstatic, hlast, ?_⟩
      simp [Router.addresses, Router.assignIPAddress, hstatic, hlast, Except.map]
    · refine Or.inr ⟨(s.routers i).lastID + 1, ?_, ?_⟩
      · simp [Counts, hstatic, hlast]
      · simp [Router.addresses, Router.assignIPAddress, offered, hstatic, hlast, Except.map]
  · refine Or.inr ⟨(s.routers i).lastID, ?_, ?_⟩
    · simp [Counts, hstatic]
    · simp [Router.addresses, offered, hstatic]

theorem addNIC_cases (h : s.addNIC i nic = some (s', err)) : AddsNIC s i nic s' err := by
  unfold addNIC at h
  split at h
  · cases h
  · split at h
    next e hifc =>
      cases h
      exact .noInterface e (getInterface_error hifc)
    next ifc hifc =>
      have hfind := getInterface_ok hifc
      rcases addresses_spec s i nic with ⟨hstatic, hlast, he⟩ | ⟨lastID, hcounts, he⟩
      · rw [he] at h
        cases h
        rw [storeRouter, Function.update_eq_self]
        exact .exhausted hstatic hlast
      · rw [he] at h
        simp only [Router.register_eq] at h
        cases hall : (s.offered i nic).all (s.routers i).subnet.contains with
        | false =>
          simp only [hall, Bool.false_eq_true, if_false] at h
          cases h
          exact .refused hfind hcounts hall
        | true =>
          simp only [hall, if_true, Option.some.injEq] at h
          have he : (s.register i nic lastID).setRouter nic.base i = (s', err) := h
          have hattached := AddsNIC.attached hfind hcounts hall
          rw [he] at hattached
          exact hattached

/-- The loop of `addNIC` changes addresses unless it accepts none. -/
theorem addressing_register {lastID : UInt8}
    (h : findInterface "eth0" (s.nodes nic.base).interfaces = some ifc) :
    (s.register i nic lastID).addressing = s.addressing ↔ s.accepted i nic = [] := by
  constructor
  · intro he
    have hnode := congrFun (congrArg Prod.snd he) nic.base
    simp only [addressing, register, changeInterface, storeNode, storeRouter,
      Function.update_self] at hnode
    exact List.map_eq_nil_iff.mp ((changeAddrs_append_eq h _).mp hnode)
  · intro hnone
    have hnics : (s.storeRouter i { s.routers i with lastID := lastID }).addressing =
        s.addressing := addressing_storeRouter rfl
    unfold register
    rw [hnone, ← hnics]
    exact addressing_storeNode ((changeAddrs_append_eq h []).mpr rfl)

theorem offered_ne_nil (s : Network) (i : Nat) (nic : NIC) : s.offered i nic ≠ [] := by
  unfold offered
  split
  · simp
  next hne => exact hne

theorem accepted_eq_nil_iff :
    s.accepted i nic = [] ↔
      ∃ ip ∈ (s.offered i nic).head?, (s.routers i).subnet.contains ip = false := by
  obtain ⟨ip, ips, he⟩ := List.exists_cons_of_ne_nil (s.offered_ne_nil i nic)
  rw [accepted, he, List.takeWhile_cons]
  cases hin : (s.routers i).subnet.contains ip <;> simp [hin]

/-- `addNIC` changes addresses unless it fails early. -/
theorem AddsNIC.addressing_iff (h : AddsNIC s i nic s' err) :
    s'.addressing = s.addressing ↔ s.RefusedEarly i nic := by
  have hlate : ∀ {ifc lastID}, findInterface "eth0" (s.nodes nic.base).interfaces = some ifc →
      s.Counts i nic lastID →
      ((s.register i nic lastID).addressing = s.addressing ↔ s.RefusedEarly i nic) := by
    intro ifc lastID hfind hcounts
    rw [addressing_register hfind, accepted_eq_nil_iff, RefusedEarly, hfind]
    refine ⟨fun hout => Or.inr (Or.inr hout), ?_⟩
    rintro (hnone | ⟨hstatic, hlast⟩ | hout)
    · cases hnone
    · rw [Counts, if_pos hstatic] at hcounts
      exact absurd hlast hcounts.1
    · exact hout
  cases h with
  | noInterface e hnone => exact iff_of_true rfl (Or.inl hnone)
  | exhausted hstatic hlast => exact iff_of_true rfl (Or.inr (Or.inl ⟨hstatic, hlast⟩))
  | refused hfind hcounts _ => exact hlate hfind hcounts
  | attached hfind hcounts _ =>
    rw [addressing_setRouter]
    exact hlate hfind hcounts

/-- A call fails before it touches an address. -/
def FailsEarly (s : Network) : Call → Prop
  | .addNet i nic => s.RefusedEarly i nic
  | .addRouter i child => s.RefusedEarly i ⟨.router child, []⟩
  | .addAddress n ifName _ _ => findInterface ifName (s.nodes (.host n)).interfaces = none
  | .removeAddress _ _ _ => True

variable {ip : IP}

/-- A call on an interface that exists first changes its addresses. -/
theorem addAddress_eq {mask : List UInt8} (h : s.getInterface (.host n) ifName = .ok ifc) :
    s.addAddress n ifName ip mask =
      match (s.nodes (.host n)).router with
      | none => (s.changeInterface (.host n) ifName fun addrs => addrs ++ [.ipNet ip mask], none)
      | some i =>
        ((s.changeInterface (.host n) ifName fun addrs => addrs ++ [.ipNet ip mask]).storeRouter i
            ((s.routers i).addIPToNIC ⟨.host n, []⟩ ip).1,
          ((s.routers i).addIPToNIC ⟨.host n, []⟩ ip).2) := by
  cases hrouter : (s.nodes (.host n)).router <;>
    simp only [addAddress, h, changeInterface, storeNode, Function.update_self, hrouter]

theorem removeAddress_eq (h : s.getInterface (.host n) ifName = .ok ifc) :
    s.removeAddress n ifName ip =
      match (s.nodes (.host n)).router with
      | none => (s.changeInterface (.host n) ifName fun addrs => removeFirst addrs ip, none)
      | some i =>
        ((s.changeInterface (.host n) ifName fun addrs => removeFirst addrs ip).storeRouter i
          ((s.routers i).removeIPFromNIC ip), none) := by
  cases hrouter : (s.nodes (.host n)).router <;>
    simp only [removeAddress, h, changeInterface, storeNode, Function.update_self, hrouter]

theorem addAddress_failed {mask : List UInt8} (h : s.addAddress n ifName ip mask = (s', some e)) :
    s'.addressing = s.addressing ↔ findInterface ifName (s.nodes (.host n)).interfaces = none := by
  cases hifc : s.getInterface (.host n) ifName with
  | error e' =>
    simp only [addAddress, hifc] at h
    cases h
    exact iff_of_true rfl (getInterface_error hifc)
  | ok ifc =>
    have hfind := getInterface_ok hifc
    rw [addAddress_eq hifc] at h
    split at h
    · cases h
    next k hk =>
      obtain ⟨rfl, -⟩ := Prod.mk.inj h
      rw [hfind]
      refine iff_of_false (fun he => ?_) (by simp)
      have hnode := congrFun (congrArg Prod.snd he) (.host n)
      simp only [addressing, changeInterface, storeNode, storeRouter,
        Function.update_self] at hnode
      exact absurd ((changeAddrs_append_eq hfind _).mp hnode) (by simp)

/-- A failed call leaves the tables and the interfaces as they were exactly if it fails before the
first address: without an interface, without an address left, or because the first address is
outside the subnet. -/
theorem failed_call_keeps_addressing {c : Call} (h : s.step c = some (s', some e)) :
    s'.addressing = s.addressing ↔ s.FailsEarly c := by
  cases c with
  | addNet i nic => exact (addNIC_cases h).addressing_iff
  | addRouter i child =>
    simp only [step, addRouter] at h
    split at h
    · cases h
    next s₁ e' hadd =>
      cases h
      exact (addNIC_cases hadd).addressing_iff
    next s₁ hadd =>
      have hkeeps := addressing_setRouter s₁ (.router child) i
      rw [Option.some.inj h] at hkeeps
      rw [hkeeps]
      exact (addNIC_cases hadd).addressing_iff
  | addAddress n ifName ip mask => exact addAddress_failed (Option.some.inj h)
  | removeAddress n ifName ip =>
    refine iff_of_true ?_ trivial
    simp only [step, Option.some.injEq] at h
    cases hifc : s.getInterface (.host n) ifName with
    | error e' =>
      simp only [removeAddress, hifc] at h
      cases h
      rfl
    | ok ifc =>
      rw [removeAddress_eq hifc] at h
      split at h <;> cases h

end Network

/-- A router of 10.0.0.0/24 and hosts that ask for an address of that network and for one that is
not; host 8 asks for them in the other order. -/
def twoAddresses : Network where
  nodes := fun
    | .host 8 => newNet [⟨[192, 168, 0, 1]⟩, ⟨[10, 0, 0, 5]⟩]
    | .host _ => newNet [⟨[10, 0, 0, 5]⟩, ⟨[192, 168, 0, 1]⟩]
    | .router _ => newRouterNIC []
  routers := fun _ => ⟨.parseCIDR ⟨10, 0, 0, 0⟩ 24, ∅, 0, ∅, none⟩

theorem refused_first_address_changes_nothing : ∃ s' e,
    twoAddresses.step (.addNet 0 ⟨.host 8, []⟩) = some (s', some e) ∧
      s'.addressing = twoAddresses.addressing := by
  have hstep : twoAddresses.step (.addNet 0 ⟨.host 8, []⟩) = some (_, some _) := rfl
  refine ⟨_, _, hstep, (Network.failed_call_keeps_addressing hstep).mpr ?_⟩
  exact Or.inr (Or.inr ⟨⟨[192, 168, 0, 1]⟩, rfl, rfl⟩)

/-- The attachment fails, but the first address stays with the interface and is routed to the
host. -/
theorem refused_host_is_routed : ∃ s' e,
    twoAddresses.step (.addNet 0 ⟨.host 7, []⟩) = some (s', some e) ∧
      (twoAddresses.routers 0).nics.lookup ⟨[10, 0, 0, 5]⟩ = none ∧
      (s'.routers 0).nics.lookup ⟨[10, 0, 0, 5]⟩ = some ⟨.host 7, []⟩ ∧
      findInterface "eth0" (s'.nodes (.host 7)).interfaces =
        some ⟨"eth0", [.ipNet ⟨[10, 0, 0, 5]⟩ [255, 255, 255, 0]]⟩ ∧
      s'.addressing ≠ twoAddresses.addressing := by
  refine ⟨_, _, rfl, rfl, rfl, rfl, fun he => ?_⟩
  have hnodes := congrFun (congrArg Prod.snd he) (.host 7)
  exact absurd hnodes (by decide +kernel)

/-- The `eth0` of a host carries an address, given in its canonical form. -/
def Network.Carries (s : Network) (n : Nat) (key : IP) : Prop :=
  ∃ ifc ∈ findInterface "eth0" (s.nodes (.host n)).interfaces,
    ∃ addr ∈ ifc.addrs, ∃ ip ∈ addr.ip, ip.canonical = key

/-- How often the `eth0` of a host carries an address. -/
def Network.copies (s : Network) (n : Nat) (ip : IP) : Nat :=
  match findInterface "eth0" (s.nodes (.host n)).interfaces with
  | none => 0
  | some ifc => ifc.addrs.countP fun addr => addr.ip.any fun x => x.equal ip

/-- What `RemoveAddress` of a host may change: the addresses of one of the host's interfaces, and
routes to the host for addresses that its `eth0` does not carry any more. -/
structure Spares (s s' : Network) (n : Nat) (ifName : String) : Prop where
  nodes : ∀ node, node ≠ .host n → s'.nodes node = s.nodes node
  own : s'.nodes (.host n) = s.nodes (.host n) ∨ ∃ f, s'.nodes (.host n) =
    { s.nodes (.host n) with interfaces := changeAddrs ifName f (s.nodes (.host n)).interfaces }
  routers : ∀ i, s'.routers i = { s.routers i with nics := (s'.routers i).nics }
  routes : ∀ i key nic, (s'.routers i).nics.lookup key = some nic →
    (s.routers i).nics.lookup key = some nic
  others : ∀ i key nic, (s.routers i).nics.lookup key = some nic → nic.base ≠ .host n →
    (s'.routers i).nics.lookup key = some nic
  carried : ∀ i key nic, (s.routers i).nics.lookup key = some nic → nic.base = .host n →
    s'.Carries n key → (s'.routers i).nics.lookup key = some nic

theorem Spares.refl (s : Network) (n : Nat) (ifName : String) : Spares s s n ifName :=
  ⟨fun _ _ => rfl, Or.inl rfl, fun _ => rfl, fun _ _ _ h => h, fun _ _ _ h _ => h,
    fun _ _ _ h _ _ => h⟩

namespace Network

variable {s : Network} {n k : Nat} {ifName : String} {ip : IP}

variable {ifc : Interface}

/-- The table of the host's router loses one key; nothing else is routed differently. -/
theorem lookup_removeAddress (hifc : s.getInterface (.host n) ifName = .ok ifc) (ip : IP) (i : Nat)
    (key : IP) :
    ((s.removeAddress n ifName ip).1.routers i).nics.lookup key =
      if (s.nodes (.host n)).router = some i ∧ key = ip.canonical then none
      else (s.routers i).nics.lookup key := by
  rw [removeAddress_eq hifc]
  cases hk : (s.nodes (.host n)).router with
  | none => simp [changeInterface, storeNode]
  | some k =>
    by_cases hi : i = k
    · subst hi
      simp [storeRouter, Router.removeIPFromNIC, lookup_erase_eq]
    · simp [storeRouter, changeInterface, storeNode, hi, Ne.symm hi]

/-- Besides, only the addresses of the interface change. -/
theorem removeAddress_frame (hifc : s.getInterface (.host n) ifName = .ok ifc) (ip : IP) :
    (∀ node, node ≠ .host n → (s.removeAddress n ifName ip).1.nodes node = s.nodes node) ∧
      (s.removeAddress n ifName ip).1.nodes (.host n) =
        { s.nodes (.host n) with
          interfaces := changeAddrs ifName (fun addrs => removeFirst addrs ip)
            (s.nodes (.host n)).interfaces } ∧
      ∀ i, (s.removeAddress n ifName ip).1.routers i =
        { s.routers i with nics := ((s.removeAddress n ifName ip).1.routers i).nics } := by
  rw [removeAddress_eq hifc]
  cases hk : (s.nodes (.host n)).router with
  | none =>
    refine ⟨fun node hnode => ?_, ?_, fun i => rfl⟩
    · simp [changeInterface, storeNode, hnode]
    · simp [changeInterface, storeNode, hk]
  | some k =>
    refine ⟨fun node hnode => ?_, ?_, fun i => ?_⟩
    · simp [storeRouter, changeInterface, storeNode, hnode]
    · simp [storeRouter, changeInterface, storeNode, hk]
    · by_cases hi : i = k
      · subst hi
        simp [storeRouter, Router.removeIPFromNIC]
      · simp [storeRouter, changeInterface, storeNode, hi]

/-- An address is carried if it has a copy. -/
theorem carries_iff_copies : s.Carries n ip.canonical ↔ 0 < s.copies n ip := by
  unfold Carries copies
  cases findInterface "eth0" (s.nodes (.host n)).interfaces with
  | none => simp
  | some ifc => simp [List.countP_pos_iff, Option.any_eq_true, IP.equal_iff]

/-- A removal from `eth0` takes one copy away, if there is one. -/
theorem copies_removeAddress (hifc : s.getInterface (.host n) ifName = .ok ifc) :
    (s.removeAddress n ifName ip).1.copies n ip =
      s.copies n ip - if ifName = "eth0" then 1 else 0 := by
  unfold copies
  rw [(removeAddress_frame hifc ip).2.1]
  by_cases hname : ifName = "eth0"
  · subst hname
    rw [findInterface_changeAddrs, getInterface_ok hifc]
    simp only [Option.map_some, if_true]
    exact countP_removeFirst ifc.addrs ip
  · rw [findInterface_changeAddrs_ne hname, if_neg hname, Nat.sub_zero]

/-- `RemoveAddress` of a host spares the others and the addresses that the host keeps, exactly if
there is no such interface, or the host's router has no route for the address, or it routes the
address to the host, whose `eth0` carries it at most once if it is removed there, and otherwise
not at all. -/
theorem removeAddress_spares_iff :
    Spares s (s.removeAddress n ifName ip).1 n ifName ↔
      findInterface ifName (s.nodes (.host n)).interfaces = none ∨
        ∀ k ∈ (s.nodes (.host n)).router, ∀ nic ∈ (s.routers k).nics.lookup ip.canonical,
          nic.base = .host n ∧ s.copies n ip ≤ if ifName = "eth0" then 1 else 0 := by
  cases hifc : s.getInterface (.host n) ifName with
  | error e =>
    have hsame : (s.removeAddress n ifName ip).1 = s := by simp only [removeAddress, hifc]
    rw [hsame]
    exact iff_of_true (Spares.refl s n ifName) (Or.inl (getInterface_error hifc))
  | ok ifc =>
    have hlookup := lookup_removeAddress hifc ip
    obtain ⟨hnodes, hown, hrouters⟩ := removeAddress_frame hifc ip
    have hfind := getInterface_ok hifc
    constructor
    · intro h
      refine Or.inr fun k hk nic hnic => ?_
      have hgone : ((s.removeAddress n ifName ip).1.routers k).nics.lookup ip.canonical = none := by
        rw [hlookup, if_pos ⟨hk, rfl⟩]
      have hbase : nic.base = .host n := by
        by_contra hne
        exact absurd (h.others k _ nic hnic hne) (by simp [hgone])
      refine ⟨hbase, ?_⟩
      by_contra hmore
      have hcarries : (s.removeAddress n ifName ip).1.Carries n ip.canonical := by
        rw [carries_iff_copies, copies_removeAddress hifc]
        omega
      exact absurd (h.carried k _ nic hnic hbase hcarries) (by simp [hgone])
    · rintro (hnone | h)
      · rw [hfind] at hnone
        cases hnone
      -- A route survives unless it is the one that is deleted, which `h` describes.
      have hkept : ∀ i key nic, (s.routers i).nics.lookup key = some nic →
          (nic.base = .host n → ¬ (s.removeAddress n ifName ip).1.Carries n key → False) →
          ((s.removeAddress n ifName ip).1.routers i).nics.lookup key = some nic := by
        intro i key nic hroute hne
        rw [hlookup, if_neg, hroute]
        rintro ⟨hi, rfl⟩
        obtain ⟨hbase, hcopies⟩ := h i hi nic hroute
        refine hne hbase ?_
        rw [carries_iff_copies, copies_removeAddress hifc]
        omega
      refine ⟨hnodes, Or.inr ⟨_, hown⟩, hrouters, ?_, ?_, ?_⟩
      · intro i key nic hroute
        rw [hlookup] at hroute
        split at hroute
        · cases hroute
        · exact hroute
      · intro i key nic hroute hbase
        exact hkept i key nic hroute fun hbase' _ => hbase hbase'
      · intro i key nic hroute _ hcarries
        exact hkept i key nic hroute fun _ hnot => hnot hcarries

end Network

/-- A router of 10.0.0.0/24; host 7 asks for an address, the others for none. -/
def twoHosts : Network where
  nodes := fun
    | .host 7 => newNet [⟨[10, 0, 0, 5]⟩]
    | .host _ => newNet []
    | .router _ => newRouterNIC []
  routers := fun _ => ⟨.parseCIDR ⟨10, 0, 0, 0⟩ 24, ∅, 0, ∅, none⟩

/-- Host 8 removes an address that it does not have, and host 7 loses its route. -/
theorem removal_takes_foreign_route : ∃ s s' answers,
    run Network.step twoHosts [.addNet 0 ⟨.host 7, []⟩, .addNet 0 ⟨.host 8, []⟩] =
        some (s, answers) ∧
      (s.routers 0).nics.lookup ⟨[10, 0, 0, 5]⟩ = some ⟨.host 7, []⟩ ∧
      s.step (.removeAddress 8 "eth0" ⟨[10, 0, 0, 5]⟩) = some (s', none) ∧
      findInterface "eth0" (s'.nodes (.host 7)).interfaces =
        some ⟨"eth0", [.ipNet ⟨[10, 0, 0, 5]⟩ [255, 255, 255, 0]]⟩ ∧
      (s'.routers 0).nics.lookup ⟨[10, 0, 0, 5]⟩ = none ∧ ¬ Spares s s' 8 "eth0" := by
  refine ⟨_, _, _, rfl, rfl, rfl, rfl, rfl, fun h => ?_⟩
  have hroute := h.others 0 ⟨[10, 0, 0, 5]⟩ ⟨.host 7, []⟩ rfl (by decide)
  exact absurd hroute (by decide +kernel)

end PionTransport.Vnet.Addressing
