import PionTransport.Vnet.Translation

/-!
# Filtering and mapping behaviour

Statements about every run of calls on a new translator at non-decreasing
times, in terms of the calls and their replies only. The uses of an external
address are one mapping; they are renewed by outbound chunks and by nothing
else, and their destinations are what the filter admits.
-/

namespace PionTransport.Vnet

open PionTransport.Core

/-- What becomes of an inbound chunk at `now`, given the uses of the mapping it is sent to. -/
structure Admission (t : NATType) (mapping : List Use) (now : Int) (c : Chunk)
    (reply : Except Failure (Option Chunk)) : Prop where
  succeeds_iff : (∃ result, reply = .ok result) ↔
    (∃ u ∈ mapping, now ≤ u.time + t.mappingLifeTime) ∧
      ∃ u ∈ mapping, t.filteringBehavior.endpoint u.chunk.destinationAddr =
        t.filteringBehavior.endpoint c.sourceAddr
  result : ∀ result, reply = .ok result → ∃ translated, result = some translated ∧
    translated.network = c.network ∧ translated.sourceAddr = c.sourceAddr ∧
    translated.userData = c.userData ∧ translated.tag = c.tag ∧
    ∀ u ∈ mapping, translated.destinationAddr = u.chunk.sourceAddr

/-- The specification of an inbound translation admits exactly the permitted chunks. -/
theorem Translations.admission {t : NATType} {ip : IPv4} {uses : List Use}
    (h : Translations t ip uses) (now : Int) (c : Chunk) :
    Admission t (bindings uses c.network c.destinationAddr) now c (t.inbound uses now c) := by
  unfold NATType.inbound
  by_cases hbinding : t.HasBinding uses now c
  · by_cases hpermits : t.Permits uses c
    · rw [if_neg (not_not.mpr hbinding), if_neg (not_not.mpr hpermits)]
      refine ⟨⟨fun _ => ⟨hbinding, hpermits⟩, fun _ => ⟨_, rfl⟩⟩, ?_⟩
      rintro result ⟨⟩
      obtain ⟨u, hu, -⟩ := hbinding
      cases hlist : bindings uses c.network c.destinationAddr with
      | nil =>
        rw [hlist] at hu
        cases hu
      | cons v rest =>
        refine ⟨c.clone.withDestination v.chunk.sourceAddr, rfl, by simp, by simp, by simp,
          by simp, fun w hw => ?_⟩
        rw [Chunk.destinationAddr_withDestination]
        rw [← hlist] at hw
        exact h.source_eq (hlist ▸ List.mem_cons_self) hw
    · rw [if_neg (not_not.mpr hbinding), if_pos hpermits]
      refine ⟨⟨?_, fun hboth => absurd hboth.2 hpermits⟩, ?_⟩
      · rintro ⟨result, hresult⟩
        cases hresult
      · rintro result ⟨⟩
  · rw [if_pos hbinding]
    refine ⟨⟨?_, fun hboth => absurd hboth.1 hbinding⟩, ?_⟩
    · rintro ⟨result, hresult⟩
      cases hresult
    · rintro result ⟨⟩

/-- Every external address is the mapped one, with a port in the range of its network. -/
theorem Translations.port_range {t : NATType} {ip : IPv4} {uses : List Use}
    (h : Translations t ip uses) {u : Use} (hu : u ∈ uses) :
    u.external.ip = ip ∧
      NetworkAddressTranslator.portBase u.chunk.network ≤ u.external.port.toNat ∧
      u.external.port.toNat ≤ 65535 := by
  obtain ⟨r, -, hmax, he⟩ := h.inRange u hu
  rw [he]
  refine ⟨rfl, ?_, ?_⟩
  · rw [UInt16.toNat_ofNat_of_lt' (Nat.lt_succ_of_le hmax)]
    exact Nat.le_add_right _ r
  · exact Nat.le_of_lt_succ (UInt16.toNat_lt _)

/-- The specification refuses an outbound chunk only when it needs a port and none is left. -/
theorem outbound_exhausted_iff (t : NATType) (ip : IPv4) (uses : List Use) (now : Int) (c : Chunk) :
    ((∃ translated, (t.outbound ip uses now c).2 = .ok (some translated)) ∨
        (t.outbound ip uses now c).2 = .error NATError.portSpaceExhausted.failure) ∧
      ((t.outbound ip uses now c).2 = .error NATError.portSpaceExhausted.failure ↔
        (∀ u, t.lastUse uses (t.flow c) = some u → u.time + t.mappingLifeTime < now) ∧
          65535 < NetworkAddressTranslator.portBase c.network +
            (externals uses c.network).length) := by
  unfold NATType.outbound
  cases hassign : t.assign ip uses now c with
  | none =>
    refine ⟨Or.inr rfl, fun _ => ?_, fun _ => rfl⟩
    unfold NATType.assign at hassign
    have hfull : nextExternal ip uses c.network = none → 65535 <
        NetworkAddressTranslator.portBase c.network + (externals uses c.network).length := by
      intro hnone
      by_contra hroom
      simp only [nextExternal, gt_iff_lt, if_neg hroom] at hnone
      cases hnone
    cases hlast : t.lastUse uses (t.flow c) with
    | none =>
      rw [hlast] at hassign
      refine ⟨fun u hu => ?_, hfull hassign⟩
      cases hu
    | some v =>
      simp only [hlast] at hassign
      split at hassign
      · cases hassign
      · refine ⟨fun u hu => ?_, hfull hassign⟩
        obtain rfl := Option.some.inj hu
        exact Int.not_le.mp ‹_›
  | some external =>
    refine ⟨Or.inl ⟨_, rfl⟩, fun herror => ?_, fun hexhausted => ?_⟩
    · cases herror
    · obtain ⟨hdead, hfull⟩ := hexhausted
      rcases assign_cases hassign with ⟨u, hu, halive, -⟩ | ⟨-, hnext⟩
      · exact absurd halive (Int.not_le.mpr (hdead u hu))
      · exact absurd (nextExternal_eq hnext).1 (Nat.not_le.mpr hfull)

/-- A symmetric translator with the default lifetime. -/
def symmetricConfig : NATConfig where
  natType := ⟨.natModeNormal, .endpointAddrPortDependent, .endpointAddrPortDependent, 0⟩
  mappedIPs := [⟨28, 1, 2, 3⟩]
  localIPs := []

/-- A datagram from an inside host to an outside one. -/
def datagram : Chunk :=
  .udp ⟨⟨0, ⟨10, 0, 0, 2⟩, ⟨5, 6, 7, 8⟩, "1", false⟩, 1234, 5678, [7]⟩

/-- The outside host's reply to the external address `datagram` is sent from. -/
def datagramReply : Chunk :=
  .udp ⟨⟨0, ⟨5, 6, 7, 8⟩, ⟨28, 1, 2, 3⟩, "2", false⟩, 5678, 49152, [8]⟩

/-- After every run an inbound chunk is admitted exactly when the mapping it is sent to is alive
and was used towards the chunk's source; replies to live uses reach the use's source. -/
theorem translateInbound_admission (config : NATConfig) (n : NetworkAddressTranslator)
    (hnew : newNAT config = .ok n) (hmode : config.natType.mode = .natModeNormal)
    (hips : config.mappedIPs ≠ []) (calls : List NATCall)
    (hordered : (calls.map NATCall.time).Pairwise (· ≤ ·)) :
    ∃ s replies, run NetworkAddressTranslator.step n calls = some (s, replies) ∧
      ∀ now c, (∀ call ∈ calls, call.time ≤ now) →
        Admission n.natType (bindings (history calls replies) c.network c.destinationAddr) now c
          (s.translateInbound now c).2 ∧
        ∀ u ∈ history calls replies, now ≤ u.time + n.natType.mappingLifeTime →
          c.network = u.chunk.network → c.sourceAddr = u.chunk.destinationAddr →
          c.destinationAddr = u.external →
          ∃ translated, (s.translateInbound now c).2 = .ok (some translated) ∧
            translated.userData = c.userData ∧
            translated.destinationAddr = u.chunk.sourceAddr := by
  obtain ⟨s, replies, hrun, -, hrepresents⟩ := run_represents hnew hmode hips calls hordered
  refine ⟨s, replies, hrun, fun now c hnow => ?_⟩
  have h := hrepresents now hnow
  obtain ⟨s', hinbound, -⟩ := translateInbound_spec h c
  rw [hinbound]
  have hadmission := h.history.admission now c
  refine ⟨hadmission, fun u hu halive hnetwork hsource hdestination => ?_⟩
  have hmem : u ∈ bindings (history calls replies) c.network c.destinationAddr := by
    simp only [bindings, List.mem_filter, decide_eq_true_eq]
    exact ⟨hu, hnetwork.symm, hdestination.symm⟩
  obtain ⟨result, hresult⟩ :=
    hadmission.succeeds_iff.mpr ⟨⟨u, hmem, halive⟩, u, hmem, by rw [hsource]⟩
  obtain ⟨translated, rfl, -, -, hdata, -, hall⟩ := hadmission.result result hresult
  exact ⟨translated, hresult, hdata, hall u hmem⟩

/-- The reply to the address that `datagram` got is admitted and reaches the inside host. -/
theorem translateInbound_admission_symmetric :
    ∃ n s replies translated, newNAT symmetricConfig = .ok n ∧
      run NetworkAddressTranslator.step n [.outbound 0 datagram] = some (s, replies) ∧
      (s.translateInbound 5 datagramReply).2 = .ok (some translated) ∧
      translated.userData = datagramReply.userData ∧
      translated.destinationAddr = datagram.sourceAddr := by
  obtain ⟨s, replies, hrun, h⟩ := translateInbound_admission symmetricConfig _ rfl rfl
    (List.cons_ne_nil _ _) [.outbound 0 datagram] (List.pairwise_singleton _ _)
  have hused := holds_of_run hrun (fun _ replies => history [.outbound 0 datagram] replies =
    [⟨0, datagram, datagramReply.destinationAddr⟩]) (by decide +kernel)
  obtain ⟨-, hreplies⟩ := h 5 datagramReply (by decide)
  obtain ⟨translated, hreply, hdata, hdestination⟩ := hreplies
    ⟨0, datagram, datagramReply.destinationAddr⟩ (hused ▸ List.mem_singleton_self _)
    (by decide) rfl rfl rfl
  exact ⟨_, s, replies, translated, rfl, hrun, hreply, hdata, hdestination⟩

/-- Over every run, outbound chunks of one network share their external address exactly when they
belong to one unbroken flow; ports stay in range and are refused only when all were handed out. -/
theorem translateOutbound_stability (config : NATConfig) (n : NetworkAddressTranslator)
    (hnew : newNAT config = .ok n) (hmode : config.natType.mode = .natModeNormal)
    (hips : config.mappedIPs ≠ []) (calls : List NATCall)
    (hordered : (calls.map NATCall.time).Pairwise (· ≤ ·)) :
    ∃ s replies, run NetworkAddressTranslator.step n calls = some (s, replies) ∧
      (∀ after later between earlier before,
        history calls replies = after ++ later :: between ++ earlier :: before →
        later.chunk.network = earlier.chunk.network →
        (later.external = earlier.external ↔
          (later.chunk.sourceAddr = earlier.chunk.sourceAddr ∧
            n.natType.mappingBehavior.endpoint later.chunk.destinationAddr =
              n.natType.mappingBehavior.endpoint earlier.chunk.destinationAddr) ∧
          n.natType.Unbroken ((later :: between ++ [earlier]).filter
            fun u => decide (n.natType.flow u.chunk = n.natType.flow earlier.chunk)))) ∧
      (∀ u ∈ history calls replies, u.external.ip = config.mappedIPs.head hips ∧
        NetworkAddressTranslator.portBase u.chunk.network ≤ u.external.port.toNat ∧
        u.external.port.toNat ≤ 65535) ∧
      ∀ now c, (∀ call ∈ calls, call.time ≤ now) →
        ∃ s' reply, s.translateOutbound now c = some (s', reply) ∧
          ((∃ translated, reply = .ok (some translated)) ∨
            reply = .error NATError.portSpaceExhausted.failure) ∧
          (reply = .error NATError.portSpaceExhausted.failure ↔
            (∀ u, n.natType.lastUse (history calls replies) (n.natType.flow c) = some u →
              u.time + n.natType.mappingLifeTime < now) ∧
            65535 < NetworkAddressTranslator.portBase c.network +
              (externals (history calls replies) c.network).length) := by
  obtain ⟨s, replies, hrun, hhistory, hrepresents⟩ :=
    run_represents hnew hmode hips calls hordered
  refine ⟨s, replies, hrun, ?_, fun u hu => hhistory.port_range hu, fun now c hnow => ?_⟩
  · intro after later between earlier before hsplit hnetwork
    rw [hsplit, List.append_assoc] at hhistory
    rw [hhistory.suffix.external_eq_iff hnetwork]
    simp only [NATType.flow, Flow.mk.injEq, hnetwork, true_and]
  · obtain ⟨s', houtbound, -⟩ := translateOutbound_spec (hrepresents now hnow) c
    exact ⟨s', _, houtbound, outbound_exhausted_iff _ _ _ _ _⟩

/-- Two datagrams of one flow get the same external address. -/
theorem translateOutbound_stability_symmetric :
    ∃ n s replies later earlier, newNAT symmetricConfig = .ok n ∧
      run NetworkAddressTranslator.step n [.outbound 0 datagram, .outbound 3 datagram] =
        some (s, replies) ∧
      history [.outbound 0 datagram, .outbound 3 datagram] replies = [later, earlier] ∧
      later.external = earlier.external ∧ earlier.external.ip = ⟨28, 1, 2, 3⟩ := by
  obtain ⟨s, replies, hrun, hstable, hrange, -⟩ := translateOutbound_stability symmetricConfig _
    rfl rfl (List.cons_ne_nil _ _) [.outbound 0 datagram, .outbound 3 datagram] (by decide)
  have hchunks := holds_of_run hrun (fun _ replies =>
    (history [.outbound 0 datagram, .outbound 3 datagram] replies).map
      (fun u => (u.time, u.chunk)) = [(3, datagram), (0, datagram)]) (by decide +kernel)
  obtain ⟨later, rest, hhistory, hlater, hrest⟩ := List.map_eq_cons_iff.mp hchunks
  obtain ⟨earlier, rest, rfl, hearlier, hnil⟩ := List.map_eq_cons_iff.mp hrest
  obtain rfl := List.map_eq_nil_iff.mp hnil
  obtain ⟨_, _, _⟩ := later
  obtain ⟨_, _, _⟩ := earlier
  obtain ⟨rfl, rfl⟩ := Prod.mk.inj hlater
  obtain ⟨rfl, rfl⟩ := Prod.mk.inj hearlier
  refine ⟨_, s, replies, _, _, rfl, hrun, hhistory, ?_, (hrange _ (by simp [hhistory])).1⟩
  refine (hstable [] _ [] _ [] hhistory rfl).mpr ⟨⟨rfl, rfl⟩, ?_⟩
  exact .cons_cons (show (3 : Int) ≤ 0 + defaultNATMappingLifeTime by decide) (.singleton _)

end PionTransport.Vnet
