import PionTransport.Core.Run
import PionTransport.Vnet.Tables

/-!
# The two tables of a translator are mutually inverse

A key is built from a chunk when a mapping is entered and from the mapping when it is
removed; both build the same text. So the tables hold the same mappings throughout,
each under its own two keys, whatever the times of the calls are. A port is never
given out twice, since the counter of its network has passed it.
-/

namespace PionTransport.Vnet

open PionTransport.Core

/-- The text of an endpoint determines it. -/
theorem hostPort_injective {ip ip' : IPv4} {port port' : Nat}
    (h : hostPort ip port = hostPort ip' port') : ip = ip' ∧ port = port' := by
  have hlist := congrArg String.toList h
  rw [toList_hostPort, toList_hostPort] at hlist
  obtain ⟨hip, hdigits⟩ := field_inj ip.colon_notMem ip'.colon_notMem hlist
  have hport := parseDecimal_toDigits port
  rw [hdigits, parseDecimal_toDigits] at hport
  exact ⟨IPv4.string_injective (String.toList_inj.mp hip), (Option.some.inj hport).symm⟩

/-- A network and an external address are determined by their key. -/
theorem inboundKey_hostPort {network network' : Network} {ip ip' : IPv4} {port port' : Nat}
    (h : inboundKey network.string (hostPort ip port) =
      inboundKey network'.string (hostPort ip' port')) :
    network = network' ∧ ip = ip' ∧ port = port' := by
  have hlist := congrArg String.toList h
  rw [toList_inboundKey, toList_inboundKey] at hlist
  obtain ⟨hn, ha⟩ := field_inj network.colon_notMem network'.colon_notMem hlist
  exact ⟨Network.string_injective (String.toList_inj.mp hn),
    hostPort_injective (String.toList_inj.mp ha)⟩

namespace NetworkAddressTranslator

variable {n n' n₁ : NetworkAddressTranslator} {now : Int} {c : Chunk} {p q : Nat} {m m' : Mapping}
  {key : String}

/-- The mapping has a port of its network that was given out before. -/
def Numbered (n : NetworkAddressTranslator) (m : Mapping) : Prop :=
  ∃ network ip port, m.proto = network.string ∧ n.mappedIPs[0]? = some ip ∧
    m.mapped = hostPort ip port ∧ port < portBase network + n.portCounter network

/-- What the calls of a normal translator keep. -/
structure Paired (n : NetworkAddressTranslator) : Prop where
  normal : n.natType.mode = .natModeNormal
  indexed : Indexed Mapping.oKey Mapping.iKey n.mappings n.outboundMap n.inboundMap
  numbered : ∀ m ∈ n.mappings, n.Numbered m
  filters : ∀ m ∈ n.mappings, m.filters ≠ []

/-- A look-up that finds nothing may remove a mapping that has expired. -/
inductive Lapses (n : NetworkAddressTranslator) (now : Int) : NetworkAddressTranslator → Prop
  | kept : Lapses n now n
  | removed {p : Nat} {m : Mapping} : n.mappings[p]? = some m →
      n.outboundMap.lookup m.oKey = some p → m.expires < now → Lapses n now (n.removeMapping m)

theorem deref_eq_some {table : AList fun _ : String => Nat} (h : n.deref table key = some (p, m)) :
    table.lookup key = some p ∧ n.mappings[p]? = some m := by
  unfold deref at h
  obtain ⟨q, hq, hm⟩ := Option.bind_eq_some_iff.mp h
  obtain ⟨m', hm', he⟩ := Option.map_eq_some_iff.mp hm
  obtain ⟨rfl, rfl⟩ := Prod.mk.inj he
  exact ⟨hq, hm'⟩

theorem Paired.deref_outbound (h : n.Paired) (hp : n.outboundMap.lookup key = some p) :
    ∃ m, n.deref n.outboundMap key = some (p, m) ∧ m.oKey = key := by
  obtain ⟨m, hm, hkey, -⟩ := h.indexed.left key p hp
  refine ⟨m, ?_, hkey⟩
  simp only [deref, hp, Option.bind_some, hm, Option.map_some]

/-- A look-up in the outbound table that finds nothing leaves the key free. -/
theorem Paired.findOutboundMapping_none (h : n.Paired)
    (hfind : n.findOutboundMapping now key = (n₁, none)) :
    n.Lapses now n₁ ∧ n₁.outboundMap.lookup key = none := by
  unfold findOutboundMapping at hfind
  cases hlookup : n.outboundMap.lookup key with
  | none =>
    have hderef : n.deref n.outboundMap key = none := by
      simp only [deref, hlookup, Option.bind_none]
    rw [hderef] at hfind
    cases hfind
    exact ⟨.kept, hlookup⟩
  | some p =>
    obtain ⟨m, hderef, rfl⟩ := h.deref_outbound hlookup
    obtain ⟨-, hm⟩ := deref_eq_some hderef
    simp only [hderef] at hfind
    split at hfind
    · cases hfind
      refine ⟨.removed hm hlookup ‹_›, ?_⟩
      rw [lookup_removeMapping_outbound, if_pos rfl]
    · cases hfind

/-- A mapping found is renewed. -/
theorem findOutboundMapping_some (hfind : n.findOutboundMapping now key = (n₁, some (p, m'))) :
    ∃ m, n.mappings[p]? = some m ∧ m' = { m with expires := now + n.natType.mappingLifeTime } ∧
      n₁ = { n with mappings := n.mappings.set p m' } := by
  unfold findOutboundMapping at hfind
  split at hfind
  · cases hfind
  next q m hderef =>
    split at hfind
    · cases hfind
    · cases hfind
      exact ⟨m, (deref_eq_some hderef).2, rfl, rfl⟩

/-- A look-up in the inbound table changes the tables only by a removal. -/
theorem Paired.findInboundMapping (h : n.Paired) (now : Int) (key : String) :
    n.Lapses now (n.findInboundMapping now key).1 := by
  unfold NetworkAddressTranslator.findInboundMapping
  split
  · exact .kept
  next p m hderef =>
    obtain ⟨hlookup, hm⟩ := deref_eq_some hderef
    split
    · obtain ⟨m', hm', -, hout⟩ := h.indexed.right key p hlookup
      obtain rfl := Option.some.inj (hm.symm.trans hm')
      exact .removed hm hout ‹_›
    · exact .kept

theorem portCounter_removeMapping (network : Network) :
    (n.removeMapping m).portCounter network = n.portCounter network := by
  cases network <;> rfl

/-- Removing expired mappings keeps the tables paired. -/
theorem Paired.lapses (h : n.Paired) (hlapses : n.Lapses now n₁) : n₁.Paired := by
  cases hlapses with
  | kept => exact h
  | removed hm hout _ =>
    refine ⟨h.normal, h.indexed.erase hm hout, fun m' hm' => ?_, h.filters⟩
    obtain ⟨network, ip, port, hproto, hip, hmapped, hport⟩ := h.numbered m' hm'
    refine ⟨network, ip, port, hproto, hip, hmapped, ?_⟩
    rwa [portCounter_removeMapping]

theorem portCounter_setMappings (mappings : List Mapping) (network : Network) :
    { n with mappings := mappings }.portCounter network = n.portCounter network := by
  cases network <;> rfl

/-- A mapping is used again. -/
theorem Paired.refresh (h : n.Paired) (hm : n.mappings[p]? = some m) (hsame : Refreshed m m')
    (hfilters : m'.filters ≠ []) : { n with mappings := n.mappings.set p m' }.Paired := by
  refine ⟨h.normal, h.indexed.set hm hsame.oKey_eq hsame.iKey_eq, fun x hx => ?_, fun x hx => ?_⟩
  · have hnumbered : n.Numbered x := by
      rcases List.mem_or_eq_of_mem_set hx with hx | rfl
      · exact h.numbered x hx
      · obtain ⟨network, ip, port, hproto, hip, hmapped, hport⟩ :=
          h.numbered m (List.mem_of_getElem? hm)
        exact ⟨network, ip, port, hsame.proto.trans hproto, hip, hsame.mapped.trans hmapped, hport⟩
    obtain ⟨network, ip, port, hproto, hip, hmapped, hport⟩ := hnumbered
    refine ⟨network, ip, port, hproto, hip, hmapped, ?_⟩
    rwa [portCounter_setMappings]
  · rcases List.mem_or_eq_of_mem_set hx with hx | rfl
    · exact h.filters x hx
    · exact hfilters

/-- The next port of a network has no mapping. -/
theorem Paired.next_free (h : n.Paired) (network : Network) (ip : IPv4) :
    n.inboundMap.lookup (inboundKey network.string
      (hostPort ip (portBase network + n.portCounter network))) = none := by
  by_contra hne
  obtain ⟨p, hp⟩ := Option.ne_none_iff_exists'.mp hne
  obtain ⟨m, hm, hkey, -⟩ := h.indexed.right _ p hp
  obtain ⟨network', ip', port, hproto, -, hmapped, hport⟩ :=
    h.numbered m (List.mem_of_getElem? hm)
  rw [Mapping.iKey, hproto, hmapped] at hkey
  obtain ⟨rfl, -, rfl⟩ := inboundKey_hostPort hkey
  exact Nat.lt_irrefl _ hport

theorem portCounter_addMapping (network other : Network) :
    (n.addMapping network m).portCounter other =
      if network = other then n.portCounter other + 1 else n.portCounter other := by
  rw [← portCounter_countPort]
  cases other <;> rfl

/-- A new mapping takes the next port. -/
theorem Paired.add (h : n.Paired) {network : Network} {ip : IPv4}
    (hnone : n.outboundMap.lookup m.oKey = none) (hproto : m.proto = network.string)
    (hip : n.mappedIPs[0]? = some ip)
    (hmapped : m.mapped = hostPort ip (portBase network + n.portCounter network))
    (hfilters : m.filters ≠ []) : (n.addMapping network m).Paired := by
  have hfree : n.inboundMap.lookup m.iKey = none := by
    rw [Mapping.iKey, hproto, hmapped]
    exact h.next_free network ip
  have hips : (n.addMapping network m).mappedIPs = n.mappedIPs := n.mappedIPs_countPort network
  refine ⟨?_, h.indexed.insert hnone hfree, fun x hx => ?_, fun x hx => ?_⟩
  · rw [← h.normal]
    exact congrArg NATType.mode (n.natType_countPort network)
  · unfold Numbered
    rw [hips]
    rcases List.mem_append.mp hx with hx | hx
    · obtain ⟨network', ip', port, hproto', hip', hmapped', hport⟩ := h.numbered x hx
      refine ⟨network', ip', port, hproto', hip', hmapped', ?_⟩
      rw [portCounter_addMapping]
      split <;> omega
    · obtain rfl := List.mem_singleton.mp hx
      refine ⟨network, ip, _, hproto, hip, hmapped, ?_⟩
      rw [portCounter_addMapping, if_pos rfl]
      omega
  · rcases List.mem_append.mp hx with hx | hx
    · exact h.filters x hx
    · obtain rfl := List.mem_singleton.mp hx
      exact hfilters

theorem setMappedSource_fst (n : NetworkAddressTranslator) (c : Chunk) (mapped : String) :
    (n.setMappedSource c mapped).1 = n := by
  unfold setMappedSource
  split <;> rfl

/-- An outbound chunk keeps the tables paired. -/
theorem Paired.translateOutbound {result : Except Failure (Option Chunk)} (h : n.Paired)
    (hstep : n.translateOutbound now c = some (n', result)) : n'.Paired := by
  simp only [NetworkAddressTranslator.translateOutbound, h.normal, translateOutboundNAPT] at hstep
  rcases hfind : n.findOutboundMapping now (outboundKey c.network.string c.sourceAddr.string
    (endpointKey n.natType.mappingBehavior c.destinationAddr)) with ⟨n₁, _ | ⟨p, m⟩⟩
  · obtain ⟨hlapses, hfree⟩ := h.findOutboundMapping_none hfind
    have h₁ := h.lapses hlapses
    simp only [hfind] at hstep
    split at hstep
    · cases hstep
      exact h₁
    · obtain ⟨ip, hip, hstep⟩ := Option.bind_eq_some_iff.mp hstep
      rw [mappedIPs_countPort] at hip
      simp only [mappings_countPort, outboundMap_countPort, inboundMap_countPort,
        Option.pure_def, Option.some.injEq] at hstep
      have hn' : _ = n' := congrArg Prod.fst hstep
      rw [setMappedSource_fst] at hn'
      rw [← hn']
      exact h₁.add hfree rfl hip rfl (by simp)
  · obtain ⟨m₀, hm₀, rfl, rfl⟩ := findOutboundMapping_some hfind
    simp only [hfind, Option.some.injEq] at hstep
    have hn' : _ = n' := congrArg Prod.fst hstep
    rw [setMappedSource_fst] at hn'
    rw [← hn']
    have hnonempty := h.filters m₀ (List.mem_of_getElem? hm₀)
    split
    · exact h.refresh hm₀ ⟨rfl, rfl, rfl, rfl⟩ hnonempty
    · rw [List.set_set]
      exact h.refresh hm₀ ⟨rfl, rfl, rfl, rfl⟩ (by simp)

/-- An inbound chunk changes the tables only by the removal of an expired mapping. -/
theorem Paired.translateInbound (h : n.Paired) (now : Int) (c : Chunk) :
    n.Lapses now (n.translateInbound now c).1 := by
  have hfind := h.findInboundMapping now (inboundKey c.network.string c.destinationAddr.string)
  simp only [NetworkAddressTranslator.translateInbound, h.normal, translateInboundNAPT]
  split
  next hnone =>
    rw [hnone] at hfind
    exact hfind
  next hsome =>
    rw [hsome] at hfind
    split
    · exact hfind
    · split
      · exact hfind
      · exact hfind

/-- A step keeps the tables paired. -/
theorem Paired.step {call : NATCall} {result : Except Failure (Option Chunk)} (h : n.Paired)
    (hstep : n.step call = some (n', result)) : n'.Paired := by
  cases call with
  | outbound now c => exact h.translateOutbound hstep
  | inbound now c =>
    have hn' : (n.translateInbound now c).1 = n' := congrArg Prod.fst (Option.some.inj hstep)
    rw [← hn']
    exact h.lapses (h.translateInbound now c)

/-- New tables are paired. -/
theorem paired_new {config : NATConfig} (hmode : config.natType.mode = .natModeNormal)
    (hnew : newNAT config = .ok n) : n.Paired := by
  simp only [newNAT, hmode] at hnew
  cases hnew
  exact ⟨rfl, .empty _ _ _, by simp, by simp⟩

/-- A table has the mapping with this pointer. -/
def Stored (n : NetworkAddressTranslator) (p : Nat) (m : Mapping) : Prop :=
  n.mappings[p]? = some m ∧ ∃ key, n.outboundMap.lookup key = some p

/-- The tables are mutually inverse. -/
structure Inverse (n : NetworkAddressTranslator) : Prop where
  same : ∀ p, (∃ key, n.outboundMap.lookup key = some p) ↔ ∃ key, n.inboundMap.lookup key = some p
  mapping : ∀ p, (∃ key, n.outboundMap.lookup key = some p) → ∃ m, n.Stored p m
  outbound : ∀ p m, n.Stored p m → ∀ key, n.outboundMap.lookup key = some p ↔
    key = outboundKey m.proto m.localAddr m.bound
  inbound : ∀ p m, n.Stored p m → ∀ key, n.inboundMap.lookup key = some p ↔
    key = inboundKey m.proto m.mapped
  apart : ∀ p q m m', n.Stored p m → n.Stored q m' → p ≠ q →
    ¬ (m.proto = m'.proto ∧ m.mapped = m'.mapped) ∧
    ¬ (m.proto = m'.proto ∧ m.localAddr = m'.localAddr ∧ m.bound = m'.bound)
  numbered : ∀ p m, n.Stored p m → n.Numbered m
  filters : ∀ p m, n.Stored p m → m.filters ≠ []

/-- One mapping is taken out of both tables, and nothing else changes. -/
structure Removes (n n' : NetworkAddressTranslator) (p : Nat) : Prop where
  outbound : ∀ key q, n'.outboundMap.lookup key = some q ↔
    n.outboundMap.lookup key = some q ∧ q ≠ p
  inbound : ∀ key q, n'.inboundMap.lookup key = some q ↔ n.inboundMap.lookup key = some q ∧ q ≠ p
  rest : n' = { n with outboundMap := n'.outboundMap, inboundMap := n'.inboundMap }

/-- A stored mapping is in both tables. -/
theorem Paired.stored (h : n.Paired) (hstored : n.Stored p m) :
    n.outboundMap.lookup m.oKey = some p ∧ n.inboundMap.lookup m.iKey = some p := by
  obtain ⟨hm, key, hkey⟩ := hstored
  obtain ⟨m', hm', rfl, hin⟩ := h.indexed.left key p hkey
  obtain rfl := Option.some.inj (hm.symm.trans hm')
  exact ⟨hkey, hin⟩

/-- Paired tables are inverse to each other. -/
theorem Paired.inverse (h : n.Paired) : n.Inverse where
  same p := by
    constructor
    · rintro ⟨key, hkey⟩
      obtain ⟨m, -, -, hin⟩ := h.indexed.left key p hkey
      exact ⟨_, hin⟩
    · rintro ⟨key, hkey⟩
      obtain ⟨m, -, -, hout⟩ := h.indexed.right key p hkey
      exact ⟨_, hout⟩
  mapping p := by
    rintro ⟨key, hkey⟩
    obtain ⟨m, hm, -, -⟩ := h.indexed.left key p hkey
    exact ⟨m, hm, key, hkey⟩
  outbound p m hp := h.indexed.lookup_iff hp.1 (h.stored hp).1
  inbound p m hp := h.indexed.symm.lookup_iff hp.1 (h.stored hp).2
  apart p q m m' hp hq hne := by
    obtain ⟨hout, hin⟩ := h.stored hp
    obtain ⟨hout', hin'⟩ := h.stored hq
    constructor
    · rintro ⟨hproto, hmapped⟩
      rw [Mapping.iKey, hproto, hmapped] at hin
      exact hne (Option.some.inj (hin.symm.trans hin'))
    · rintro ⟨hproto, hlocal, hbound⟩
      rw [Mapping.oKey, hproto, hlocal, hbound] at hout
      exact hne (Option.some.inj (hout.symm.trans hout'))
  numbered p m hp := h.numbered m (List.mem_of_getElem? hp.1)
  filters p m hp := h.filters m (List.mem_of_getElem? hp.1)

/-- Removing a mapping takes it out of both tables. -/
theorem Paired.removes (h : n.Paired) (hm : n.mappings[p]? = some m)
    (hout : n.outboundMap.lookup m.oKey = some p) : n.Removes (n.removeMapping m) p :=
  ⟨h.indexed.lookup_erase hm hout,
    h.indexed.symm.lookup_erase hm (h.indexed.lookup_right hm hout), rfl⟩

/-- In every run of a normal translator the tables are mutually inverse, and an inbound chunk
takes one expired mapping out of both at most. -/
theorem nat_tables_mutually_inverse {config : NATConfig} {n₀ : NetworkAddressTranslator}
    (hmode : config.natType.mode = .natModeNormal) (hnew : newNAT config = .ok n₀)
    {calls : List NATCall} {results : List (Except Failure (Option Chunk))}
    (hrun : run step n₀ calls = some (n, results)) :
    n.Inverse ∧ ∀ now c, (n.translateInbound now c).1 = n ∨
      ∃ p m, n.Stored p m ∧ m.expires < now ∧ n.Removes (n.translateInbound now c).1 p := by
  have h := keeps_of_step (I := Paired) (fun h hs => h.step hs) (paired_new hmode hnew) hrun
  refine ⟨h.inverse, fun now c => ?_⟩
  have hlapses := h.translateInbound now c
  generalize (n.translateInbound now c).1 = n' at hlapses ⊢
  cases hlapses with
  | kept => exact Or.inl rfl
  | removed hm hout hexpired =>
    exact Or.inr ⟨_, _, ⟨hm, _, hout⟩, hexpired, h.removes hm hout⟩

/-- A translator whose mappings depend on the remote address and live for ten nanoseconds. -/
def shortLived : NATConfig where
  natType := ⟨.natModeNormal, .endpointAddrDependent, .endpointAddrDependent, 10⟩
  mappedIPs := [⟨5, 6, 7, 1⟩]
  localIPs := []

/-- A flow of each network, and a reply to the first one when its mapping has expired. -/
def lateReply : List NATCall :=
  [.outbound 0 (.udp ⟨⟨0, ⟨10, 0, 0, 2⟩, ⟨8, 8, 8, 8⟩, "a", false⟩, 1234, 53, []⟩),
   .outbound 9 (.tcp ⟨⟨0, ⟨10, 0, 0, 2⟩, ⟨8, 8, 8, 8⟩, "b", false⟩, 1234, 80, 2, [], 0, 0⟩),
   .inbound 11 (.udp ⟨⟨0, ⟨8, 8, 8, 8⟩, ⟨5, 6, 7, 1⟩, "c", false⟩, 53, 0xC000, []⟩)]

/-- A reply after its mapping has expired. -/
theorem nat_tables_inverse_after_late_reply :
    ∃ n₀ n results, newNAT shortLived = .ok n₀ ∧ run step n₀ lateReply = some (n, results) ∧
      n.Inverse ∧ n.outboundMap.entries.length = 1 := by
  refine ⟨⟨shortLived.natType, shortLived.mappedIPs, [], [], ∅, ∅, 0, 0⟩, ?_⟩
  have hone : (run step ⟨shortLived.natType, shortLived.mappedIPs, [], [], ∅, ∅, 0, 0⟩
      lateReply).map (fun r => r.1.outboundMap.entries.length) = some 1 := by decide +kernel
  obtain ⟨⟨n, results⟩, hrun, hlength⟩ := Option.map_eq_some_iff.mp hone
  have hnew : newNAT shortLived =
      .ok ⟨shortLived.natType, shortLived.mappedIPs, [], [], ∅, ∅, 0, 0⟩ := rfl
  exact ⟨n, results, hnew, hrun, (nat_tables_mutually_inverse rfl hnew hrun).1, hlength⟩

end NetworkAddressTranslator

end PionTransport.Vnet
