import PionTransport.Core.Run
import PionTransport.Vnet.Tables

/-!
# The translator refines the history of flows

Every call on tables that represent a history returns what the specification
returns, and leaves tables that represent the specification's next history.
Over a run with non-decreasing times the history is read off the calls and
their replies.
-/

namespace PionTransport.Vnet

open PionTransport.Core

variable {t : NATType} {ip : IPv4} {n : NetworkAddressTranslator} {uses : List Use} {now : Int}

theorem flow_key_eq (t : NATType) (c : Chunk) :
    outboundKey c.network.string c.sourceAddr.string
      (endpointKey t.mappingBehavior c.destinationAddr) = (t.flow c).key := by
  rw [endpointKey_eq]
  rfl

theorem setMappedSource_eq (n : NetworkAddressTranslator) (c : Chunk) {mapped : String}
    {external : Addr} (h : mapped = external.string) :
    n.setMappedSource c mapped = (n, .ok (some (c.clone.withSource external))) := by
  simp only [h, NetworkAddressTranslator.setMappedSource, Chunk.setSourceAddr, resolveAddr_string,
    Option.map_some]

variable {c : Chunk} {u : Use}

/-- The mapping of a live flow is found and its expiry is renewed. -/
theorem findOutboundMapping_alive (h : Represents t ip n uses now)
    (hlast : t.lastUse uses (t.flow c) = some u) (halive : t.Alive now u) :
    ∃ p m, n.mappings[p]? = some m ∧ Names t m u ∧ n.inboundMap.lookup m.iKey = some p ∧
      n.outboundMap.lookup m.oKey = some p ∧
      n.findOutboundMapping now (t.flow c).key =
        ({ n with mappings := n.mappings.set p { m with expires := now + t.mappingLifeTime } },
          some (p, { m with expires := now + t.mappingLifeTime })) := by
  obtain ⟨hu, hflow⟩ := lastUse_flow hlast
  obtain ⟨p, m, hm, hnames, hin, hout, hlive⟩ := h.live_use hu halive
  have hkey : n.outboundMap.lookup (t.flow c).key = some p := by
    rw [← hflow, ← hnames.oKey_eq]
    exact hout
  refine ⟨p, m, hm, hnames, hin, hout, ?_⟩
  simp only [NetworkAddressTranslator.findOutboundMapping, NetworkAddressTranslator.deref, hkey,
    Option.bind_some, hm, Option.map_some, if_neg (Int.not_lt.mpr hlive), h.natType_eq]

/-- A flow without a live use has no mapping once it was looked up. -/
theorem findOutboundMapping_dead (h : Represents t ip n uses now)
    (hdead : ∀ u, t.lastUse uses (t.flow c) = some u → ¬ t.Alive now u) :
    ∃ n', n.findOutboundMapping now (t.flow c).key = (n', none) ∧
      Represents t ip n' uses now ∧ n'.outboundMap.lookup (t.flow c).key = none := by
  cases hkey : n.outboundMap.lookup (t.flow c).key with
  | none =>
    refine ⟨n, ?_, h, hkey⟩
    simp only [NetworkAddressTranslator.findOutboundMapping, NetworkAddressTranslator.deref, hkey,
      Option.bind_none]
  | some p =>
    obtain ⟨m, hm, hokey, hin⟩ := h.indexed.left _ _ hkey
    obtain ⟨u, hlast, hnames, hexpires⟩ := h.latest p m hm (hokey ▸ hkey)
    have hflow : t.flow u.chunk = t.flow c :=
      Flow.key_injective (hnames.oKey_eq.symm.trans hokey)
    have hexpired : m.expires < now := by
      rw [hexpires]
      exact Int.not_le.mp (hdead u (hflow ▸ hlast))
    refine ⟨n.removeMapping m, ?_, h.removeMapping hm hin hexpired, ?_⟩
    · simp only [NetworkAddressTranslator.findOutboundMapping, NetworkAddressTranslator.deref,
        hkey, Option.bind_some, hm, Option.map_some, if_pos hexpired]
    · rw [lookup_removeMapping_outbound, if_pos hokey.symm]

/-- A chunk of a live flow leaves under the flow's external address. -/
theorem translateOutbound_alive (h : Represents t ip n uses now)
    (hlast : t.lastUse uses (t.flow c) = some u) (halive : t.Alive now u) :
    ∃ n', n.translateOutbound now c = some (n', .ok (some (c.clone.withSource u.external))) ∧
      Represents t ip n' (⟨now, c, u.external⟩ :: uses) now := by
  obtain ⟨p, m, hm, hnames, hin, hout, hfind⟩ := findOutboundMapping_alive h hlast halive
  obtain rfl := h.natType_eq
  simp only [NetworkAddressTranslator.translateOutbound, h.normal,
    NetworkAddressTranslator.translateOutboundNAPT, flow_key_eq, hfind]
  by_cases hfilter : endpointKey n.natType.filteringBehavior c.destinationAddr ∈ m.filters
  · rw [if_pos hfilter]
    refine ⟨_, congrArg some (setMappedSource_eq _ c hnames.mapped), h.refresh hlast halive hm
      hnames hin ⟨rfl, rfl, rfl, rfl⟩ rfl fun key => ⟨Or.inl, ?_⟩⟩
    rintro (hkey | rfl)
    · exact hkey
    · exact hfilter
  · rw [if_neg hfilter, List.set_set]
    refine ⟨_, congrArg some (setMappedSource_eq _ c hnames.mapped), h.refresh hlast halive hm
      hnames hin ⟨rfl, rfl, rfl, rfl⟩ rfl fun key => ?_⟩
    rw [List.mem_cons, or_comm, eq_comm]

/-- The mapping that a chunk of a new flow creates. -/
def NATType.newMapping (t : NATType) (now : Int) (c : Chunk) (external : Addr) : Mapping where
  proto := c.network.string
  localAddr := c.sourceAddr.string
  bound := endpointKey t.mappingBehavior c.destinationAddr
  mapped := external.string
  filters := [endpointKey t.filteringBehavior c.destinationAddr]
  expires := now + t.mappingLifeTime

/-- A chunk without a live flow takes the next free port, unless there is none. -/
theorem translateOutbound_dead (h : Represents t ip n uses now)
    (hdead : ∀ u, t.lastUse uses (t.flow c) = some u → ¬ t.Alive now u) :
    ∃ n', n.translateOutbound now c = some (n', (t.outbound ip uses now c).2) ∧
      Represents t ip n' (t.outbound ip uses now c).1 now := by
  obtain ⟨n', hfind, h', hnone⟩ := findOutboundMapping_dead h hdead
  obtain rfl := h'.natType_eq
  have hassign : n'.natType.assign ip uses now c = nextExternal ip uses c.network := by
    unfold NATType.assign
    cases hlast : n'.natType.lastUse uses (n'.natType.flow c) with
    | none => rfl
    | some u => exact if_neg (hdead u hlast)
  simp only [NetworkAddressTranslator.translateOutbound, h.natType_eq, h.normal,
    NetworkAddressTranslator.translateOutboundNAPT, flow_key_eq, hfind, h'.counter,
    NATType.outbound, hassign]
  cases hnext : nextExternal ip uses c.network with
  | none =>
    have hfull : NetworkAddressTranslator.portBase c.network +
        (externals uses c.network).length > 65535 := by
      by_contra hroom
      simp only [nextExternal, if_neg hroom] at hnext
      cases hnext
    exact ⟨n', by rw [if_pos hfull], h'⟩
  | some external =>
    obtain ⟨hmax, hexternal⟩ := nextExternal_eq hnext
    have hmapped : hostPort ip (NetworkAddressTranslator.portBase c.network +
        (externals uses c.network).length) = external.string := by
      rw [hexternal, Addr.string, UInt16.toNat_ofNat_of_lt' (Nat.lt_succ_of_le hmax)]
    have hbound : Names n'.natType (n'.natType.newMapping now c external) ⟨now, c, external⟩ :=
      ⟨rfl, rfl, endpointKey_eq _ _, rfl⟩
    refine ⟨n'.addMapping c.network (n'.natType.newMapping now c external), ?_,
      h'.addMapping (hassign.trans hnext) (h.history.inRange.fresh hnext) hnone hbound rfl rfl⟩
    rw [if_neg (Nat.not_lt.mpr hmax)]
    simp only [NetworkAddressTranslator.mappedIPs_countPort, h'.mappedIP, Option.bind_eq_bind,
      Option.bind_some, hmapped, setMappedSource_eq _ c rfl]
    simp only [← flow_key_eq, NetworkAddressTranslator.addMapping,
      NetworkAddressTranslator.natType_countPort, NetworkAddressTranslator.mappedIPs_countPort,
      NetworkAddressTranslator.mappings_countPort,
      NetworkAddressTranslator.outboundMap_countPort,
      NetworkAddressTranslator.inboundMap_countPort]
    rfl

/-- An outbound call follows the specification. -/
theorem translateOutbound_spec (h : Represents t ip n uses now) (c : Chunk) :
    ∃ n', n.translateOutbound now c = some (n', (t.outbound ip uses now c).2) ∧
      Represents t ip n' (t.outbound ip uses now c).1 now := by
  cases hlast : t.lastUse uses (t.flow c) with
  | none =>
    apply translateOutbound_dead h
    intro u hu
    rw [hlast] at hu
    cases hu
  | some u =>
    by_cases halive : t.Alive now u
    · have hassign : t.assign ip uses now c = some u.external := by
        simp only [NATType.assign, hlast, if_pos halive]
      simp only [NATType.outbound, hassign]
      exact translateOutbound_alive h hlast halive
    · apply translateOutbound_dead h
      intro v hv
      obtain rfl := Option.some.inj (hlast.symm.trans hv)
      exact halive

/-- A live mapping is found under its external address and is not renewed. -/
theorem findInboundMapping_alive (h : Represents t ip n uses now)
    (hbinding : t.HasBinding uses now c) :
    ∃ u m, u ∈ bindings uses c.network c.destinationAddr ∧ Names t m u ∧ Records t uses m ∧
      n.findInboundMapping now (inboundKey c.network.string c.destinationAddr.string) =
        (n, some m) := by
  obtain ⟨u, hu, halive⟩ := hbinding
  have hmem := hu
  simp only [bindings, List.mem_filter, decide_eq_true_eq] at hmem
  obtain ⟨huses, hnetwork, hexternal⟩ := hmem
  obtain ⟨p, m, hm, hnames, hin, -, hlive⟩ := h.live_use huses halive
  rw [hnames.iKey_eq, hnetwork, hexternal] at hin
  refine ⟨u, m, hu, hnames, h.records p m hm, ?_⟩
  simp only [NetworkAddressTranslator.findInboundMapping, NetworkAddressTranslator.deref, hin,
    Option.bind_some, hm, Option.map_some, if_neg (Int.not_lt.mpr hlive)]

/-- An external address without a live use has no mapping once it was looked up. -/
theorem findInboundMapping_dead (h : Represents t ip n uses now)
    (hbinding : ¬ t.HasBinding uses now c) :
    ∃ n', n.findInboundMapping now (inboundKey c.network.string c.destinationAddr.string) =
      (n', none) ∧ Represents t ip n' uses now := by
  cases hkey : n.inboundMap.lookup (inboundKey c.network.string c.destinationAddr.string) with
  | none =>
    refine ⟨n, ?_, h⟩
    simp only [NetworkAddressTranslator.findInboundMapping, NetworkAddressTranslator.deref, hkey,
      Option.bind_none]
  | some p =>
    obtain ⟨m, hm, hikey, hout⟩ := h.indexed.right _ _ hkey
    obtain ⟨u, hu, hnames, hexpires, -⟩ := (h.records p m hm).newest
    rw [hnames.iKey_eq] at hikey
    obtain ⟨hnetwork, hexternal⟩ := inboundKey_injective hikey
    have hexpired : m.expires < now := by
      apply Int.not_le.mp
      intro hlive
      rw [hexpires] at hlive
      apply hbinding
      refine ⟨u, ?_, hlive⟩
      simp only [bindings, List.mem_filter, decide_eq_true_eq]
      exact ⟨hu, hnetwork, hexternal⟩
    rw [← hikey, ← hnames.iKey_eq] at hkey
    refine ⟨n.removeMapping m, ?_, h.removeMapping hm hkey hexpired⟩
    rw [← hikey, ← hnames.iKey_eq]
    simp only [NetworkAddressTranslator.findInboundMapping, NetworkAddressTranslator.deref, hkey,
      Option.bind_some, hm, Option.map_some, if_pos hexpired]

/-- The filters of a mapping are the endpoints that its uses went to. -/
theorem Records.mem_filters_iff {m : Mapping} (hh : Translations t ip uses) (h : Records t uses m)
    (hnames : Names t m u) (hu : u ∈ bindings uses c.network c.destinationAddr) :
    endpointKey t.filteringBehavior c.sourceAddr ∈ m.filters ↔ t.Permits uses c := by
  have hmem := hu
  simp only [bindings, List.mem_filter, decide_eq_true_eq] at hmem
  obtain ⟨huses, hnetwork, hexternal⟩ := hmem
  rw [h.filters]
  constructor
  · rintro ⟨v, hv, hnv, hkey⟩
    rw [hnames.iff_binding hh huses hv, hnetwork, hexternal] at hnv
    rw [endpointKey_eq, endpointKey_eq] at hkey
    exact ⟨v, hnv, Endpoint.string_injective hkey⟩
  · rintro ⟨v, hv, hkey⟩
    have hvuses : v ∈ uses := List.mem_of_mem_filter hv
    refine ⟨v, hvuses, ?_, ?_⟩
    · rw [hnames.iff_binding hh huses hvuses, hnetwork, hexternal]
      exact hv
    · rw [endpointKey_eq, endpointKey_eq, hkey]

/-- All uses of an external address have one source. -/
theorem Translations.source_eq (h : Translations t ip uses) {network : Network} {external : Addr}
    {v : Use} (hu : u ∈ bindings uses network external) (hv : v ∈ bindings uses network external) :
    u.chunk.sourceAddr = v.chunk.sourceAddr := by
  simp only [bindings, List.mem_filter, decide_eq_true_eq] at hu hv
  obtain ⟨huses, hn, he⟩ := hu
  obtain ⟨hvuses, hn', he'⟩ := hv
  exact congrArg Flow.source (h.flow_eq u v huses hvuses (hn.trans hn'.symm) (he.trans he'.symm))

/-- An inbound call follows the specification and leaves the history alone. -/
theorem translateInbound_spec (h : Represents t ip n uses now) (c : Chunk) :
    ∃ n', n.translateInbound now c = (n', t.inbound uses now c) ∧
      Represents t ip n' uses now := by
  obtain rfl := h.natType_eq
  simp only [NetworkAddressTranslator.translateInbound, h.normal,
    NetworkAddressTranslator.translateInboundNAPT, NATType.inbound]
  by_cases hbinding : n.natType.HasBinding uses now c
  · obtain ⟨u, m, hu, hnames, hrecords, hfind⟩ := findInboundMapping_alive h hbinding
    refine ⟨n, ?_, h⟩
    simp only [hfind, hrecords.mem_filters_iff h.history hnames hu, hbinding, not_true_eq_false,
      if_false]
    by_cases hpermits : n.natType.Permits uses c
    · cases hlist : bindings uses c.network c.destinationAddr with
      | nil =>
        rw [hlist] at hu
        cases hu
      | cons v rest =>
        have hsource : v.chunk.sourceAddr = u.chunk.sourceAddr :=
          h.history.source_eq (hlist ▸ List.mem_cons_self) hu
        simp only [hpermits, not_true_eq_false, if_false, List.head?_cons, Option.map_some,
          Chunk.setDestinationAddr, hnames.localAddr, resolveAddr_string, hsource]
    · simp only [hpermits, not_false_eq_true, if_true]
  · obtain ⟨n', hfind, h'⟩ := findInboundMapping_dead h hbinding
    refine ⟨n', ?_, h'⟩
    simp only [hfind, hbinding, not_false_eq_true, if_true]

/-- One call follows the specification. -/
theorem step_spec (h : Represents t ip n uses now) (call : NATCall) (hle : now ≤ call.time) :
    ∃ n', n.step call = some (n', (t.step ip uses call).2) ∧
      Represents t ip n' (t.step ip uses call).1 call.time := by
  cases call with
  | outbound time c => exact translateOutbound_spec (h.later hle) c
  | inbound time c =>
    obtain ⟨n', hstep, h'⟩ := translateInbound_spec (h.later hle) c
    exact ⟨n', congrArg some hstep, h'⟩

/-- Calls at non-decreasing times, none before `now`. -/
def Ordered (now : Int) (calls : List NATCall) : Prop :=
  (calls.map NATCall.time).Pairwise (· ≤ ·) ∧ ∀ call ∈ calls, now ≤ call.time

theorem Ordered.tail {call : NATCall} {calls : List NATCall} (h : Ordered now (call :: calls)) :
    Ordered call.time calls := by
  obtain ⟨hpair, -⟩ := h
  rw [List.map_cons, List.pairwise_cons] at hpair
  refine ⟨hpair.2, fun later hlater => hpair.1 later.time ?_⟩
  exact List.mem_map_of_mem hlater

/-- A run at non-decreasing times has the replies of the specification. -/
theorem run_refines_flows (calls : List NATCall) (h : Represents t ip n uses now)
    (hordered : Ordered now calls) :
    ∃ n' last, run NetworkAddressTranslator.step n calls =
        some (n', (replay (t.step ip) uses calls).2) ∧
      Represents t ip n' (replay (t.step ip) uses calls).1 last ∧
      (last = now ∨ ∃ call ∈ calls, last = call.time) := by
  induction calls generalizing n uses now with
  | nil => exact ⟨n, now, rfl, h, Or.inl rfl⟩
  | cons call calls ih =>
    obtain ⟨n₁, hstep, h₁⟩ := step_spec h call (hordered.2 call List.mem_cons_self)
    obtain ⟨n₂, last, hrun, h₂, hlast⟩ := ih h₁ hordered.tail
    refine ⟨n₂, last, run_cons_some hstep hrun, h₂, Or.inr ?_⟩
    · rcases hlast with rfl | ⟨later, hlater, rfl⟩
      · exact ⟨call, List.mem_cons_self, rfl⟩
      · exact ⟨later, List.mem_cons_of_mem call hlater, rfl⟩

/-- The use that a call and its reply record: a translated outbound chunk. -/
def NATCall.use : NATCall → Except Failure (Option Chunk) → Option Use
  | .outbound now c, .ok (some translated) => some ⟨now, c, translated.sourceAddr⟩
  | _, _ => none

/-- The translated outbound chunks of a run, newest first. -/
def history (calls : List NATCall) (replies : List (Except Failure (Option Chunk))) : List Use :=
  ((calls.zip replies).filterMap fun x => x.1.use x.2).reverse

theorem step_history (t : NATType) (ip : IPv4) (uses : List Use) (call : NATCall) :
    (t.step ip uses call).1 = (call.use (t.step ip uses call).2).toList ++ uses := by
  cases call with
  | outbound now c =>
    simp only [NATType.step, NATType.outbound]
    cases t.assign ip uses now c with
    | none => rfl
    | some external => simp [NATCall.use]
  | inbound now c => rfl

/-- The specification's history is read off the calls and the replies. -/
theorem replay_history (t : NATType) (ip : IPv4) (uses : List Use) (calls : List NATCall) :
    (replay (t.step ip) uses calls).1 =
      history calls (replay (t.step ip) uses calls).2 ++ uses := by
  induction calls generalizing uses with
  | nil => rfl
  | cons call calls ih =>
    simp only [replay]
    rw [ih, step_history]
    generalize (t.step ip uses call).2 = reply
    cases hu : call.use reply with
    | none | some => simp [history, hu]

/-- A translator made by `newNAT` represents the empty history. -/
theorem newNAT_represents {config : NATConfig} (hnew : newNAT config = .ok n)
    (hmode : config.natType.mode = .natModeNormal) (hips : config.mappedIPs ≠ []) (now : Int) :
    Represents n.natType (config.mappedIPs.head hips) n [] now := by
  simp only [newNAT, hmode] at hnew
  cases hnew
  exact represents_new rfl (List.head?_eq_getElem? ▸ List.head?_eq_some_head hips) now

/-- After any run from a new translator the tables represent the run's history. -/
theorem run_represents {config : NATConfig} (hnew : newNAT config = .ok n)
    (hmode : config.natType.mode = .natModeNormal) (hips : config.mappedIPs ≠ [])
    (calls : List NATCall) (hordered : (calls.map NATCall.time).Pairwise (· ≤ ·)) :
    ∃ s replies, run NetworkAddressTranslator.step n calls = some (s, replies) ∧
      Translations n.natType (config.mappedIPs.head hips) (history calls replies) ∧
      ∀ now, (∀ call ∈ calls, call.time ≤ now) →
        Represents n.natType (config.mappedIPs.head hips) s (history calls replies) now := by
  have hinit := newNAT_represents hnew hmode hips
  cases calls with
  | nil => exact ⟨n, [], rfl, .nil, fun now _ => hinit now⟩
  | cons call calls =>
    have hfirst : Ordered call.time (call :: calls) := by
      refine ⟨hordered, fun later hlater => ?_⟩
      rw [List.map_cons, List.pairwise_cons] at hordered
      rcases List.mem_cons.mp hlater with rfl | hlater
      · exact Int.le_refl _
      · exact hordered.1 later.time (List.mem_map_of_mem hlater)
    obtain ⟨s, last, hrun, h, hlast⟩ := run_refines_flows _ (hinit call.time) hfirst
    rw [replay_history, List.append_nil] at h
    refine ⟨s, _, hrun, h.history, fun now hnow => h.later ?_⟩
    rcases hlast with rfl | ⟨later, hlater, rfl⟩
    · exact hnow call List.mem_cons_self
    · exact hnow later hlater

end PionTransport.Vnet
