import Mathlib.Data.List.TakeWhile
import PionTransport.Core.Table
import PionTransport.Vnet.Router

/-!
# Attaching hosts and routers

What a sequence of successful `AddNet` and `AddRouter` calls establishes when
every address keeps its owner: the first address of an attached router lies in
its parent's subnet and is routed to it, and its translator is a new one that
maps to this address.
-/

namespace PionTransport.Vnet

namespace Router

/-- A router as `NewRouter` returns it, with filters added and possibly started. -/
def New (r : Router) : Prop :=
  ∃ config r₀ filters started, newRouter config = .ok r₀ ∧
    r = { r₀ with chunkFilters := filters, started := started }

variable {r : Router}

theorem newRouter_fields {config : RouterConfig} (h : newRouter config = .ok r) :
    r.nics = ∅ ∧ r.parent = none ∧ r.nat = none ∧ r.halted = false ∧
      r.queue.chunks = [] ∧ r.pending = none := by
  unfold newRouter at h
  cases hfold : config.staticIPs.foldlM (addStaticIP config.ipv4Net) ([], ∅) with
  | error e =>
    rw [hfold] at h
    cases h
  | ok acc =>
    rw [hfold] at h
    simp only [bind, Except.bind] at h
    split at h
    · cases h
    · cases h
      exact ⟨rfl, rfl, rfl, rfl, rfl, rfl⟩

/-- A router to which a NIC was added under some addresses. -/
structure Registered (r r' : Router) (nic : NIC) (ips : List IPv4) : Prop where
  ipv4Net : r'.ipv4Net = r.ipv4Net
  queue : r'.queue = r.queue
  parent : r'.parent = r.parent
  nat : r'.nat = r.nat
  pending : r'.pending = r.pending
  halted : r'.halted = r.halted
  owns : ∀ ip ∈ ips, r.ipv4Net.contains ip = true ∧ r'.nics.lookup ip.string = some nic
  only : ∀ key other, r'.nics.lookup key = some other →
    r.nics.lookup key = some other ∨ (other = nic ∧ ∃ ip ∈ ips, key = ip.string)

variable {ips : List IPv4}

theorem Registered.of_lastID {r₀ r' : Router} {nic : NIC} (h : Registered r r' nic ips)
    (he : r = { r₀ with lastID := r.lastID }) :
    Registered r₀ r' nic ips := by
  obtain ⟨hipv4Net, hqueue, hparent, hnat, hpending, hhalted, howns, honly⟩ := h
  rw [he] at hipv4Net hqueue hparent hnat hpending hhalted howns honly
  exact ⟨hipv4Net, hqueue, hparent, hnat, hpending, hhalted, howns, honly⟩

/-- What the loop of `addNIC` does: it registers the addresses up to the first one outside the
subnet. -/
theorem register_eq (r : Router) (nic : NIC) (ips : List IPv4) :
    r.register nic ips =
      ({ r with
          nics := Core.insertAll r.nics
            ((ips.takeWhile r.ipv4Net.contains).map fun ip => (ip.string, nic)) },
        ips.takeWhile r.ipv4Net.contains,
        if ips.all r.ipv4Net.contains then none
        else some (.staticIPisBeyondSubnet r.ipv4Net)) := by
  induction ips generalizing r with
  | nil => rfl
  | cons ip ips ih =>
    unfold register
    cases hin : r.ipv4Net.contains ip with
    | false => simp [hin, Core.insertAll]
    | true =>
      rw [if_neg (by simp), ih]
      simp [hin, Core.insertAll]

theorem register_spec {nic : NIC} (h : (r.register nic ips).2.2 = none) :
    (r.register nic ips).2.1 = ips ∧ Registered r (r.register nic ips).1 nic ips := by
  rw [register_eq] at h ⊢
  have hall : ∀ ip ∈ ips, r.ipv4Net.contains ip = true := by
    by_contra hnot
    rw [if_neg (by simpa using hnot)] at h
    cases h
  have htake : ips.takeWhile r.ipv4Net.contains = ips := List.takeWhile_eq_self_iff.mpr hall
  rw [htake]
  refine ⟨rfl, rfl, rfl, rfl, rfl, rfl, rfl, fun ip hip => ⟨hall ip hip, ?_⟩,
    fun key other hkey => ?_⟩
  · have hkey : ip.string ∈ Core.insertAll r.nics (ips.map fun ip => (ip.string, nic)) :=
      Core.mem_insertAll.mpr (Or.inl (by simpa using ⟨ip, hip, rfl⟩))
    obtain ⟨owner, howner⟩ := Option.isSome_iff_exists.mp (AList.lookup_isSome.mpr hkey)
    rcases Core.lookup_insertAll_mem howner with hentry | ⟨hnot, -⟩
    · obtain ⟨ip', -, he⟩ := List.mem_map.mp hentry
      rw [howner, ← (Prod.mk.inj he).2]
    · exact absurd (List.mem_map.mpr ⟨_, List.mem_map.mpr ⟨ip, hip, rfl⟩, rfl⟩) hnot
  · rcases Core.lookup_insertAll_mem hkey with hentry | ⟨-, hold⟩
    · obtain ⟨ip, hip, he⟩ := List.mem_map.mp hentry
      obtain ⟨rfl, rfl⟩ := Prod.mk.inj he
      exact Or.inr ⟨rfl, ip, hip, rfl⟩
    · exact Or.inl hold

/-- A successful `setRouter` makes a new translator. -/
theorem setRouter_spec {parent : Nat} (h : (r.setRouter parent).2 = none) :
    ∃ nat, newNAT r.natConfig = .ok nat ∧ r.eth0 ≠ [] ∧
      r.setRouter parent =
        ({ r with parent := some parent, natType := some r.natConfig.natType, nat := some nat },
          none) := by
  unfold setRouter at h ⊢
  by_cases heth : r.eth0 = []
  · rw [if_pos heth] at h
    cases h
  · rw [if_neg heth] at h ⊢
    cases hnat : newNAT r.natConfig with
    | error e =>
      rw [hnat] at h
      cases h
    | ok nat => exact ⟨nat, rfl, heth, rfl⟩

/-- Setting the same router again changes nothing. -/
theorem setRouter_setRouter {parent : Nat} (h : (r.setRouter parent).2 = none) :
    (r.setRouter parent).1.setRouter parent = r.setRouter parent := by
  obtain ⟨nat, hnat, heth, he⟩ := setRouter_spec h
  rw [he]
  unfold setRouter
  rw [if_neg heth]
  have hconfig : natConfig
      { r with parent := some parent, natType := some r.natConfig.natType, nat := some nat } =
        r.natConfig := rfl
  rw [hconfig, hnat]

theorem addresses_spec {staticIPs : List IPv4} (h : (r.addresses staticIPs).2 = .ok ips) :
    ips ≠ [] ∧
      (r.addresses staticIPs).1 = { r with lastID := (r.addresses staticIPs).1.lastID } := by
  unfold addresses assignIPAddress at *
  split at h
  · split at h
    · cases h
    · cases h
      simp_all
  · cases h
    simp_all

end Router

namespace Routers

@[simp] theorem set_self (rs : Routers) (i : Nat) (r : Router) : rs.set i r i = r :=
  Function.update_self ..

variable {i : Nat}

@[simp] theorem set_ne (rs : Routers) {k : Nat} (h : k ≠ i) (r : Router) :
    rs.set i r k = rs k :=
  Function.update_of_ne h ..

@[simp] theorem set_set (rs : Routers) (i : Nat) (r r' : Router) :
    (rs.set i r).set i r' = rs.set i r' :=
  Function.update_idem ..

variable {rs rs' : Routers}

/-- A successful `addNIC` registers the NIC, and gives the addresses to a child router. -/
theorem addNIC_spec {nic : NIC} {staticIPs : List IPv4}
    (h : rs.addNIC i nic staticIPs = (rs', none)) :
    ∃ r ips, ips ≠ [] ∧ Router.Registered (rs i) r nic ips ∧
      (∀ host, nic = .host host → rs' = rs.set i r) ∧
      ∀ k, nic = .router k → ((rs.set i r k).addAddresses ips).setRouter i = (rs' k, none) ∧
        rs' = (rs.set i r).set k (rs' k) := by
  unfold addNIC at h
  cases haddresses : (rs i).addresses staticIPs with
  | mk r result =>
    cases result with
    | error e =>
      simp only [haddresses] at h
      cases h
    | ok ips =>
      simp only [haddresses] at h
      obtain ⟨hne, hr⟩ := Router.addresses_spec (congrArg Prod.snd haddresses)
      rw [haddresses] at hr
      cases hregister : r.register nic ips with
      | mk r' rest =>
        obtain ⟨added, err⟩ := rest
        cases err with
        | some e => cases nic <;> simp only [hregister] at h <;> cases h
        | none =>
          obtain ⟨hadded, hregistered⟩ := Router.register_spec (congrArg (·.2.2) hregister)
          rw [hregister] at hadded hregistered
          obtain rfl : added = ips := hadded
          refine ⟨r', added, hne, hregistered.of_lastID hr, ?_⟩
          cases nic with
          | host id =>
            simp only [hregister] at h
            refine ⟨fun host _ => (Prod.mk.inj h).1.symm, fun k hk => ?_⟩
            cases hk
          | router id =>
            simp only [hregister] at h
            obtain ⟨rfl, herr⟩ := Prod.mk.inj h
            refine ⟨fun host hk => ?_, ?_⟩
            · cases hk
            · rintro k ⟨⟩
              rw [set_self]
              exact ⟨Prod.ext rfl herr, rfl⟩

/-- A successful `AddRouter` registers the child and sets its router. -/
theorem addRouter_spec {k : Nat} (h : rs.addRouter i k = (rs', none)) :
    ∃ r ips, ips ≠ [] ∧ Router.Registered (rs i) r (.router k) ips ∧
      ((rs.set i r k).addAddresses ips).setRouter i = (rs' k, none) ∧
      rs' = (rs.set i r).set k (rs' k) := by
  unfold addRouter at h
  cases hnic : rs.addNIC i (.router k) (rs k).staticIPs with
  | mk rs₁ err =>
    cases err with
    | some e =>
      simp only [hnic] at h
      cases h
    | none =>
      obtain ⟨r, ips, hne, hregistered, -, hchild⟩ := addNIC_spec hnic
      obtain ⟨hset, hrs⟩ := hchild k rfl
      have hagain : (rs₁ k).setRouter i = (rs₁ k, none) := by
        have := Router.setRouter_setRouter (congrArg Prod.snd hset)
        rw [hset] at this
        exact this
      simp only [hnic, hagain] at h
      obtain ⟨rfl, -⟩ := Prod.mk.inj h
      refine ⟨r, ips, hne, hregistered, ?_, ?_⟩
      · rw [set_self]
        exact hset
      · rw [set_self]
        nth_rewrite 1 [hrs]
        rw [set_set]

/-- No address changes its owner. -/
def KeepsOwners (rs rs' : Routers) : Prop :=
  ∀ i key nic, (rs i).nics.lookup key = some nic → (rs' i).nics.lookup key = some nic

/-- Networks that are built from new routers by successful calls, where every address keeps its
owner, no router is its own parent and every child is attached once. -/
inductive Built : Routers → Prop
  | new {rs : Routers} : (∀ i, (rs i).New) → Built rs
  | addNet {rs rs' : Routers} (i host : Nat) (staticIPs : List IPv4) : Built rs →
      rs.addNet i host staticIPs = (rs', none) → KeepsOwners rs rs' → Built rs'
  | addRouter {rs rs' : Routers} (i child : Nat) : Built rs → i ≠ child → (rs child).eth0 = [] →
      rs.addRouter i child = (rs', none) → KeepsOwners rs rs' → Built rs'

/-- A router's first address, by which its parent reaches it. -/
structure Attached (rs : Routers) (i parent : Nat) (config : NATConfig)
    (nat : NetworkAddressTranslator) (ip : IPv4) : Prop where
  nat_eq : (rs i).nat = some nat
  new : newNAT config = .ok nat
  mapped : config.mappedIPs[0]? = some ip
  inside : (rs parent).ipv4Net.contains ip = true
  routed : (rs parent).nics.lookup ip.string = some (.router i)

/-- The invariant of building a network. -/
structure Wired (rs : Routers) : Prop where
  resting : ∀ i, (rs i).queue.chunks = [] ∧ (rs i).pending = none
  serving : ∀ i, (rs i).halted = false
  inside : ∀ i ip nic, (rs i).nics.lookup (IPv4.string ip) = some nic →
    (rs i).ipv4Net.contains ip = true
  attached : ∀ i parent, (rs i).parent = some parent →
    ∃ config nat ip, Attached rs i parent config nat ip
  child : ∀ i key k, (rs i).nics.lookup key = some (.router k) → (rs k).parent.isSome
  orphan : ∀ i, (rs i).parent = none → (rs i).nat = none

theorem wired_new (h : ∀ i, (rs i).New) : Wired rs := by
  have hfields : ∀ i, (rs i).nics = ∅ ∧ (rs i).parent = none ∧ (rs i).nat = none ∧
      (rs i).halted = false ∧ (rs i).queue.chunks = [] ∧ (rs i).pending = none := by
    intro i
    obtain ⟨config, r₀, filters, started, hnew, hr⟩ := h i
    have hfields := Router.newRouter_fields hnew
    rw [hr]
    exact hfields
  refine ⟨fun i => (hfields i).2.2.2.2, fun i => (hfields i).2.2.2.1, fun i ip nic hlookup => ?_,
    fun i parent hparent => ?_, fun i key k hlookup => ?_, fun i _ => (hfields i).2.2.1⟩
  · rw [(hfields i).1] at hlookup
    cases hlookup
  · rw [(hfields i).2.1] at hparent
    cases hparent
  · rw [(hfields i).1] at hlookup
    cases hlookup

/-- What one successful call does to a network. -/
structure Grows (rs rs' : Routers) : Prop where
  ipv4Net : ∀ i, (rs' i).ipv4Net = (rs i).ipv4Net
  queue : ∀ i, (rs' i).queue = (rs i).queue
  pending : ∀ i, (rs' i).pending = (rs i).pending
  halted : ∀ i, (rs' i).halted = (rs i).halted
  entries : ∀ i key nic, (rs' i).nics.lookup key = some nic →
    (rs i).nics.lookup key = some nic ∨
      ((∃ ip, key = IPv4.string ip ∧ (rs i).ipv4Net.contains ip = true) ∧
        ∀ k, nic = .router k → (rs' k).parent.isSome)
  parents : ∀ i, ((rs' i).parent = (rs i).parent ∧ (rs' i).nat = (rs i).nat) ∨
    ∃ parent config nat ip, (rs' i).parent = some parent ∧ Attached rs' i parent config nat ip

theorem Grows.wired (h : Grows rs rs') (hkeeps : KeepsOwners rs rs') (hwired : Wired rs) :
    Wired rs' := by
  refine ⟨?_, fun i => (h.halted i).trans (hwired.serving i), ?_, ?_, ?_, ?_⟩
  · intro i
    rw [h.queue, h.pending]
    exact hwired.resting i
  · intro i ip nic hlookup
    rw [h.ipv4Net]
    rcases h.entries i _ nic hlookup with hold | ⟨⟨ip', hip, hinside⟩, -⟩
    · exact hwired.inside i ip nic hold
    · rw [IPv4.string_injective hip]
      exact hinside
  · intro i parent hparent
    rcases h.parents i with ⟨hp, hn⟩ | ⟨parent', config, nat, ip, hp, hattached⟩
    · rw [hp] at hparent
      obtain ⟨config, nat, ip, hattached⟩ := hwired.attached i parent hparent
      exact ⟨config, nat, ip, hn.trans hattached.nat_eq, hattached.new, hattached.mapped,
        by rw [h.ipv4Net, hattached.inside], hkeeps _ _ _ hattached.routed⟩
    · rw [hp] at hparent
      obtain rfl := Option.some.inj hparent
      exact ⟨config, nat, ip, hattached⟩
  · intro i key k hlookup
    rcases h.entries i key _ hlookup with hold | ⟨-, hnew⟩
    · rcases h.parents k with ⟨hp, -⟩ | ⟨parent, config, nat, ip, hp, -⟩
      · rw [hp]
        exact hwired.child i key k hold
      · rw [hp]
        rfl
    · exact hnew k rfl
  · intro i hparent
    rcases h.parents i with ⟨hp, hn⟩ | ⟨parent, config, nat, ip, hp, -⟩
    · rw [hn]
      exact hwired.orphan i (hp.symm.trans hparent)
    · rw [hp] at hparent
      cases hparent

theorem addNet_grows {host : Nat} {staticIPs : List IPv4}
    (h : rs.addNet i host staticIPs = (rs', none)) : Grows rs rs' := by
  obtain ⟨r, ips, -, hregistered, hset, -⟩ := addNIC_spec h
  obtain rfl := hset host rfl
  have hfield : ∀ {α : Type} (f : Router → α), f r = f (rs i) →
      ∀ m, f (rs.set i r m) = f (rs m) := by
    intro α f hf m
    by_cases hm : m = i
    · rw [hm, set_self, hf]
    · rw [set_ne rs hm]
  refine ⟨hfield _ hregistered.ipv4Net, hfield _ hregistered.queue, hfield _ hregistered.pending,
    hfield _ hregistered.halted, ?_,
    fun m => Or.inl ⟨hfield _ hregistered.parent m, hfield _ hregistered.nat m⟩⟩
  intro m key nic hlookup
  by_cases hm : m = i
  · subst hm
    rw [set_self] at hlookup
    rcases hregistered.only key nic hlookup with hold | ⟨rfl, ip, hip, hkey⟩
    · exact Or.inl hold
    · refine Or.inr ⟨⟨ip, hkey, (hregistered.owns ip hip).1⟩, fun k hk => ?_⟩
      cases hk
  · rw [set_ne rs hm] at hlookup
    exact Or.inl hlookup

theorem addRouter_grows {child : Nat} (hne : i ≠ child) (heth : (rs child).eth0 = [])
    (h : rs.addRouter i child = (rs', none)) : Grows rs rs' := by
  obtain ⟨r, ips, hips, hregistered, hset, hrs⟩ := addRouter_spec h
  rw [set_ne rs hne.symm] at hset
  obtain ⟨nat, hnat, -, hchild⟩ := Router.setRouter_spec (congrArg Prod.snd hset)
  rw [hset] at hchild
  have hself : rs' child = _ := (Prod.mk.inj hchild).1
  have hparent : rs' i = r := by rw [hrs, set_ne _ hne, set_self]
  have hother : ∀ m, m ≠ i → m ≠ child → rs' m = rs m := by
    intro m hi hc
    rw [hrs, set_ne _ hc, set_ne _ hi]
  have hfield : ∀ {α : Type} (f : Router → α), f r = f (rs i) → f (rs' child) = f (rs child) →
      ∀ m, f (rs' m) = f (rs m) := by
    intro α f hr hc m
    by_cases hmi : m = i
    · rw [hmi, hparent, hr]
    · by_cases hmc : m = child
      · rw [hmc, hc]
      · rw [hother m hmi hmc]
  refine ⟨hfield _ hregistered.ipv4Net (by rw [hself]; rfl),
    hfield _ hregistered.queue (by rw [hself]; rfl),
    hfield _ hregistered.pending (by rw [hself]; rfl),
    hfield _ hregistered.halted (by rw [hself]; rfl), ?_, ?_⟩
  · intro m key nic hlookup
    by_cases hmi : m = i
    · subst hmi
      rw [hparent] at hlookup
      rcases hregistered.only key nic hlookup with hold | ⟨rfl, ip, hip, hkey⟩
      · exact Or.inl hold
      · refine Or.inr ⟨⟨ip, hkey, (hregistered.owns ip hip).1⟩, ?_⟩
        rintro k ⟨⟩
        rw [hself]
        rfl
    · by_cases hmc : m = child
      · subst hmc
        rw [hself] at hlookup
        exact Or.inl hlookup
      · rw [hother m hmi hmc] at hlookup
        exact Or.inl hlookup
  · intro m
    by_cases hmc : m = child
    · subst hmc
      obtain ⟨ip, rest, rfl⟩ := List.exists_cons_of_ne_nil hips
      obtain ⟨hinside, howner⟩ := hregistered.owns ip List.mem_cons_self
      refine Or.inr ⟨i, _, nat, ip, by rw [hself], by rw [hself], hnat, ?_, ?_, ?_⟩
      · simp [Router.natConfig, Router.addAddresses, heth]
      · rw [hparent, hregistered.ipv4Net, hinside]
      · rw [hparent, howner]
    · by_cases hmi : m = i
      · rw [hmi, hparent]
        exact Or.inl ⟨hregistered.parent, hregistered.nat⟩
      · rw [hother m hmi hmc]
        exact Or.inl ⟨rfl, rfl⟩

/-- Every network that is built is wired. -/
theorem Built.wired (h : Built rs) : Wired rs := by
  induction h with
  | new hnew => exact wired_new hnew
  | addNet i host staticIPs _ hadd hkeeps ih => exact (addNet_grows hadd).wired hkeeps ih
  | addRouter i child _ hne heth hadd hkeeps ih =>
    exact (addRouter_grows hne heth hadd).wired hkeeps ih

end Routers

end PionTransport.Vnet
