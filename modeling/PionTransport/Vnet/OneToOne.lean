import PionTransport.Vnet.RouterSteps

/-!
# 1:1 NAT

A router that is configured with pairs of an external and a local address
translates by them. The pairs pass through their text, a map from external
addresses, the addresses of `eth0` and two parallel lists; they survive since
`NewRouter` accepts every external address once only, and since `newNAT`
refuses an address of `eth0` that has no partner. What comes later, further
attachments or traffic, changes nothing about the translator.
-/

namespace PionTransport.Vnet

open PionTransport.Core

/-- An entry `external/local` of `RouterConfig.StaticIPs`. -/
def pairText (pair : IPv4 × IPv4) : String := pair.1.string ++ "/" ++ pair.2.string

/-- A pair in the configuration adds its two addresses. -/
theorem addStaticIP_pairText {ipv4Net : IPNet} {acc acc' : List IPv4 × AList fun _ : String => IPv4}
    {pair : IPv4 × IPv4} (h : addStaticIP ipv4Net acc (pairText pair) = .ok acc') :
    acc' = (acc.1 ++ [pair.1], acc.2.insert pair.1.string pair.2) := by
  have hslash : ∀ ip : IPv4, '/' ∉ ip.string.toList := fun ip =>
    ip.notMem_string (by decide) (by decide)
  have hsplit : (pairText pair).toList.splitOn '/' =
      [pair.1.string.toList, pair.2.string.toList] := by
    have htext : (pairText pair).toList =
        ['/'].intercalate [pair.1.string.toList, pair.2.string.toList] := by
      simp [pairText, List.intercalate, String.toList_append]
    rw [htext]
    apply List.splitOn_intercalate
    · simp [hslash]
    · simp
  simp only [addStaticIP, hsplit, List.head?_cons, Option.bind_some, parseIP_string,
    List.getElem?_cons_succ, List.getElem?_cons_zero] at h
  split at h
  · cases h
  · exact (Except.ok.inj h).symm

/-- The loop over `RouterConfig.StaticIPs` collects the pairs. -/
theorem foldlM_addStaticIP {ipv4Net : IPNet} {pairs : List (IPv4 × IPv4)}
    {acc acc' : List IPv4 × AList fun _ : String => IPv4}
    (h : (pairs.map pairText).foldlM (addStaticIP ipv4Net) acc = .ok acc') :
    acc' = (acc.1 ++ pairs.map Prod.fst,
      insertAll acc.2 (pairs.map fun pair => (pair.1.string, pair.2))) := by
  induction pairs generalizing acc with
  | nil =>
    rw [List.map_nil, List.foldlM_nil] at h
    cases h
    simp [insertAll]
  | cons pair pairs ih =>
    rw [List.map_cons, List.foldlM_cons] at h
    cases hadd : addStaticIP ipv4Net acc (pairText pair) with
    | error e =>
      rw [hadd] at h
      cases h
    | ok acc₁ =>
      rw [hadd] at h
      obtain rfl := addStaticIP_pairText hadd
      rw [ih h]
      simp [insertAll]

namespace Router

/-- A router that holds the pairs of its configuration. -/
structure Configured (pairs : List (IPv4 × IPv4)) (t : NATType) (r : Router) : Prop where
  staticIPs : r.staticIPs = pairs.map Prod.fst
  staticLocalIPs : ∀ e l, r.staticLocalIPs.lookup (IPv4.string e) = some l ↔ (e, l) ∈ pairs
  natType : r.natType = some t

/-- `NewRouter` accepts an external address once only, so that the map loses no pair. -/
theorem newRouter_configured {config : RouterConfig} {pairs : List (IPv4 × IPv4)} {t : NATType}
    {r : Router} (hpairs : config.staticIPs = pairs.map pairText) (hnat : config.natType = some t)
    (h : newRouter config = .ok r) : Configured pairs t r ∧ (pairs.map Prod.fst).Nodup := by
  unfold newRouter at h
  rw [hpairs] at h
  cases hfold : (pairs.map pairText).foldlM (addStaticIP config.ipv4Net) ([], ∅) with
  | error e =>
    rw [hfold] at h
    cases h
  | ok acc =>
    rw [hfold] at h
    obtain rfl := foldlM_addStaticIP hfold
    simp only [bind, Except.bind] at h
    split at h
    · cases h
    next hkeys =>
      cases h
      have htexts : ((pairs.map fun pair => (pair.1.string, pair.2)).map Prod.fst).Nodup := by
        apply nodup_of_length_insertAll
        by_contra hne
        refine hkeys ⟨?_, by simpa using hne⟩
        -- With pairs there is at least one key.
        cases pairs with
        | nil => simp [insertAll] at hne
        | cons pair pairs =>
          refine List.length_pos_of_mem (a := pair.1.string) ?_
          exact mem_insertAll.mpr (Or.inl (by simp))
      have hnodup : (pairs.map Prod.fst).Nodup := by
        refine List.Nodup.of_map IPv4.string ?_
        simpa [Function.comp_def] using htexts
      refine ⟨⟨by simp, fun e l => ?_, hnat⟩, hnodup⟩
      rw [lookup_insertAll htexts]
      constructor
      · rintro (hmem | ⟨-, hlookup⟩)
        · obtain ⟨⟨e', l'⟩, hpair, he⟩ := List.mem_map.mp hmem
          obtain ⟨htext, rfl⟩ := Prod.mk.inj he
          rw [← IPv4.string_injective htext]
          exact hpair
        · cases hlookup
      · intro hpair
        exact Or.inl (List.mem_map.mpr ⟨_, hpair, rfl⟩)

/-- The fields that decide how a router translates, but for the translator. -/
def setup (r : Router) :
    List IPv4 × (AList fun _ : String => IPv4) × Option NATType × List IPv4 :=
  (r.staticIPs, r.staticLocalIPs, r.natType, r.eth0)

/-- A router whose setup has not changed, nor its translator if that is a 1:1 one. -/
structure Steady (r r' : Router) : Prop where
  setup : r'.setup = r.setup
  nat : ∀ n, r.nat = some n → n.natType.mode = .natModeNAT1To1 → r'.nat = some n

section Steady

variable {r r' r'' : Router} {pairs : List (IPv4 × IPv4)} {t : NATType}

theorem Steady.refl (r : Router) : Steady r r := ⟨rfl, fun _ h _ => h⟩

/-- Steady changes follow each other. -/
theorem Steady.trans (h : Steady r r') (h' : Steady r' r'') : Steady r r'' :=
  ⟨h'.setup.trans h.setup, fun n hn hmode => h'.nat n (h.nat n hn hmode) hmode⟩

/-- What is configured depends on the setup only. -/
theorem Configured.of_setup (h : Configured pairs t r) (he : r'.setup = r.setup) :
    Configured pairs t r' := by
  simp only [setup, Prod.mk.injEq] at he
  obtain ⟨hstatic, hlocal, hnat, -⟩ := he
  exact ⟨hstatic.trans h.staticIPs, by rw [hlocal]; exact h.staticLocalIPs, hnat.trans h.natType⟩

end Steady

end Router

/-- A translator that implements the pairs. -/
structure Implements (pairs : List (IPv4 × IPv4)) (n : NetworkAddressTranslator) : Prop where
  mode : n.natType.mode = .natModeNAT1To1
  lengths : n.mappedIPs.length = n.localIPs.length
  pairs : ∀ e l, (e, l) ∈ n.mappedIPs.zip n.localIPs ↔ (e, l) ∈ pairs
  tables : n.mappings = [] ∧ n.outboundMap = ∅ ∧ n.inboundMap = ∅

namespace Router

/-- A router that is attached and translates by its pairs. -/
structure Serving (pairs : List (IPv4 × IPv4)) (t : NATType) (r : Router) : Prop
    extends Configured pairs t r where
  eth0 : r.eth0 ⊆ pairs.map Prod.fst
  nonempty : pairs ≠ []
  nat : ∃ n, r.nat = some n ∧ Implements pairs n

section Translator

variable {r r' : Router} {pairs : List (IPv4 × IPv4)} {t : NATType}

/-- A steady change keeps the service. -/
theorem Serving.steady (h : Serving pairs t r) (hsteady : Steady r r') : Serving pairs t r' := by
  have he := hsteady.setup
  have hconfigured := h.toConfigured.of_setup he
  simp only [setup, Prod.mk.injEq] at he
  obtain ⟨-, -, -, heth⟩ := he
  obtain ⟨n, hn, himplements⟩ := h.nat
  exact ⟨hconfigured, heth ▸ h.eth0, h.nonempty, n, hsteady.nat n hn himplements.mode,
    himplements⟩

/-- When a one-to-one translator can be made. -/
theorem newNAT_1To1 {config : NATConfig} {n : NetworkAddressTranslator}
    (hmode : config.natType.mode = .natModeNAT1To1) :
    newNAT config = .ok n ↔
      config.mappedIPs ≠ [] ∧ config.mappedIPs.length = config.localIPs.length ∧
        n = { natType :=
                { config.natType with
                  mappingBehavior := .endpointIndependent
                  filteringBehavior := .endpointIndependent
                  mappingLifeTime := 0 }
              mappedIPs := config.mappedIPs, localIPs := config.localIPs
              mappings := [], outboundMap := ∅, inboundMap := ∅
              udpPortCounter := 0, tcpPortCounter := 0 } := by
  simp only [newNAT, hmode, List.length_eq_zero_iff]
  split
  next hnil => simp [hnil]
  next hne =>
    split
    next hlength => simp [hlength]
    next hlength =>
      rw [not_not] at hlength
      simp [hne, hlength, eq_comm]

/-- The addresses of `eth0` that a 1:1 translator accepts are external ones with their partners. -/
theorem Configured.newNAT (h : Configured pairs t r) (hmode : t.mode = .natModeNAT1To1)
    {n : NetworkAddressTranslator} (hnew : newNAT r.natConfig = .ok n)
    (hall : pairs.map Prod.fst ⊆ r.eth0) :
    Implements pairs n ∧ r.eth0 ⊆ pairs.map Prod.fst ∧ pairs ≠ [] := by
  have hmode' : r.natConfig.natType.mode = .natModeNAT1To1 := by
    simp only [natConfig, h.natType, Option.getD_some]
    exact hmode
  obtain ⟨hne, hlengths, rfl⟩ := (newNAT_1To1 hmode').mp hnew
  have hpartner : ∀ ip ∈ r.eth0, (r.staticLocalIPs.lookup ip.string).isSome :=
    List.filterMap_length_eq_length.mp hlengths.symm
  have hsub : r.eth0 ⊆ pairs.map Prod.fst := by
    intro ip hip
    obtain ⟨l, hl⟩ := Option.isSome_iff_exists.mp (hpartner ip hip)
    exact List.mem_map_of_mem (f := Prod.fst) ((h.staticLocalIPs ip l).mp hl)
  refine ⟨⟨hmode', hlengths, fun e l => ?_, rfl, rfl, rfl⟩, hsub, ?_⟩
  · show (e, l) ∈ r.eth0.zip (r.eth0.filterMap fun ip => r.staticLocalIPs.lookup ip.string) ↔ _
    rw [mem_zip_filterMap hpartner, h.staticLocalIPs]
    exact and_iff_right_of_imp fun hpair => hall (List.mem_map_of_mem (f := Prod.fst) hpair)
  · rintro rfl
    exact hne (List.subset_nil.mp hsub)

/-- Setting the parent keeps the configuration. -/
theorem Configured.setRouter (h : Configured pairs t r) (parent : Nat) :
    Configured pairs t (r.setRouter parent).1 := by
  have htype : r.natConfig.natType = t := by
    simp only [natConfig, h.natType, Option.getD_some]
  unfold Router.setRouter
  split
  · exact h.of_setup rfl
  · split <;> exact ⟨h.staticIPs, h.staticLocalIPs, by rw [htype]⟩

/-- A successful `setRouter` makes the translator that the configuration asks for. -/
theorem Configured.serves (h : Configured pairs t r) (parent : Nat)
    (hmode : t.mode = .natModeNAT1To1) (hall : pairs.map Prod.fst ⊆ r.eth0)
    (hset : (r.setRouter parent).2 = none) :
    Serving pairs t (r.setRouter parent).1 := by
  have hconfigured := h.setRouter parent
  obtain ⟨n, hnew, -, he⟩ := setRouter_spec hset
  rw [he] at hconfigured ⊢
  obtain ⟨himplements, hsub, hne⟩ := h.newNAT hmode hnew hall
  exact ⟨hconfigured, hsub, hne, n, rfl, himplements⟩

/-- With external addresses only `setRouter` succeeds. -/
theorem Configured.setRouter_ok (h : Configured pairs t r) (parent : Nat)
    (hmode : t.mode = .natModeNAT1To1) (hne : r.eth0 ≠ [])
    (hsub : r.eth0 ⊆ pairs.map Prod.fst) : (r.setRouter parent).2 = none := by
  have hmode' : r.natConfig.natType.mode = .natModeNAT1To1 := by
    simp only [natConfig, h.natType, Option.getD_some]
    exact hmode
  have hlengths : r.natConfig.mappedIPs.length = r.natConfig.localIPs.length := by
    symm
    apply List.filterMap_length_eq_length.mpr
    intro ip hip
    obtain ⟨⟨e, l⟩, hpair, rfl⟩ := List.mem_map.mp (hsub hip)
    rw [(h.staticLocalIPs e l).mpr hpair]
    rfl
  have hnew := (newNAT_1To1 hmode').mpr ⟨hne, hlengths, rfl⟩
  simp only [Router.setRouter, hne, if_false, hnew]

end Translator

section Attachment

/-- Choosing addresses is steady, and takes those requested. -/
theorem addresses_steady (r : Router) (staticIPs : List IPv4) :
    Steady r (r.addresses staticIPs).1 ∧
      (staticIPs ≠ [] → (r.addresses staticIPs).2 = .ok staticIPs) := by
  unfold addresses assignIPAddress
  split
  next hnil =>
    split <;> exact ⟨⟨rfl, fun _ h _ => h⟩, fun hne => absurd hnil hne⟩
  · exact ⟨Steady.refl r, fun _ => rfl⟩

/-- Registering a NIC is steady. -/
theorem register_steady (r : Router) (nic : NIC) (ips : List IPv4) :
    Steady r (r.register nic ips).1 ∧ (r.register nic ips).2.1 ⊆ ips ∧
      ((r.register nic ips).2.2 = none → (r.register nic ips).2.1 = ips) := by
  refine ⟨?_, ?_, fun h => (register_spec h).1⟩
  · rw [register_eq]
    exact ⟨rfl, fun _ h _ => h⟩
  · rw [register_eq]
    exact (List.takeWhile_sublist _).subset

end Attachment

end Router

namespace Routers

open Router

variable {rs rs' : Routers} {i k : Nat}

/-- A steady change of one router. -/
theorem steady_set {r : Router} (h : Steady (rs i) r) (m : Nat) :
    Steady (rs m) (rs.set i r m) := by
  by_cases hm : m = i
  · rw [hm, set_self]
    exact h
  · rw [set_ne rs hm]
    exact Steady.refl _

/-- Adding a host is steady. -/
theorem addNet_steady (rs : Routers) (i host : Nat) (staticIPs : List IPv4) (m : Nat) :
    Steady (rs m) ((rs.addNet i host staticIPs).1 m) := by
  unfold addNet addNIC
  obtain ⟨haddresses, -⟩ := addresses_steady (rs i) staticIPs
  split
  next r e he =>
    rw [he] at haddresses
    exact steady_set haddresses m
  next r ips he =>
    rw [he] at haddresses
    exact steady_set (haddresses.trans (register_steady r _ ips).1) m

/-- What `addNIC` does with a child: it is given addresses, its static ones if it has any, and its
router is set if all of them were accepted. -/
structure Attaches (rs rs' : Routers) (i k : Nat) (err : Option RouterError) : Prop where
  others : ∀ m, m ≠ k → Steady (rs m) (rs' m)
  child : ∃ r ips, Steady (rs k) r ∧ ((rs k).staticIPs ≠ [] → ips = (rs k).staticIPs) ∧
    ((err.isSome ∧ ∃ added ⊆ ips, rs' k = r.addAddresses added) ∨
      (r.addAddresses ips).setRouter i = (rs' k, err))

/-- Adding a router attaches it. -/
theorem addNIC_attaches (rs : Routers) (i k : Nat) :
    Attaches rs (rs.addNIC i (.router k) (rs k).staticIPs).1 i k
      (rs.addNIC i (.router k) (rs k).staticIPs).2 := by
  obtain ⟨haddresses, hstatic⟩ := addresses_steady (rs i) (rs k).staticIPs
  rcases he : (rs i).addresses (rs k).staticIPs with ⟨r, e | ips⟩
  · simp only [he] at haddresses hstatic
    simp only [addNIC, he]
    refine ⟨fun m _ => steady_set haddresses m, _, [], steady_set haddresses k, ?_, Or.inl
      ⟨rfl, [], List.Subset.refl _, by simp [addAddresses]⟩⟩
    intro hne
    cases hstatic hne
  · simp only [he, Except.ok.injEq] at haddresses hstatic
    obtain ⟨hregister, hsub, hadded⟩ := register_steady r (.router k) ips
    rcases hr : r.register (.router k) ips with ⟨r', added, err⟩
    rw [hr] at hregister hsub hadded
    have hsteady := haddresses.trans hregister
    have hothers : ∀ child m, m ≠ k → Steady (rs m) ((rs.set i r').set k child m) := by
      intro child m hm
      rw [set_ne _ hm]
      exact steady_set hsteady m
    cases err with
    | some e =>
      simp only [addNIC, he, hr]
      refine ⟨hothers _, _, ips, steady_set hsteady k, hstatic, Or.inl ⟨rfl, added, hsub, ?_⟩⟩
      rw [set_self]
    | none =>
      obtain rfl : added = ips := hadded rfl
      simp only [addNIC, he, hr]
      refine ⟨hothers _, _, added, steady_set hsteady k, hstatic, Or.inr ?_⟩
      rw [set_self]

/-- The second `setRouter` of `AddRouter` repeats the first. -/
theorem addRouter_attaches (rs : Routers) (i k : Nat) :
    Attaches rs (rs.addRouter i k).1 i k (rs.addRouter i k).2 := by
  have h := addNIC_attaches rs i k
  rcases he : rs.addNIC i (.router k) (rs k).staticIPs with ⟨rs₁, _ | e⟩
  · simp only [he] at h
    obtain ⟨hothers, r, ips, hsteady, hips, ⟨hsome, -⟩ | hset⟩ := h
    · cases hsome
    have hagain := setRouter_setRouter (congrArg Prod.snd hset)
    rw [hset] at hagain
    simp only [addRouter, he, hagain]
    refine ⟨fun m hm => ?_, r, ips, hsteady, hips, Or.inr ?_⟩
    · rw [set_ne _ hm]
      exact hothers m hm
    · rw [set_self]
      exact hset
  · simp only [he] at h
    simp only [addRouter, he]
    exact h

section Pairs

variable {pairs : List (IPv4 × IPv4)} {t : NATType} {err : Option RouterError}

/-- Attaching keeps what is configured. -/
theorem Attaches.configured (h : Attaches rs rs' i k err) {m : Nat}
    (hm : Configured pairs t (rs m)) : Configured pairs t (rs' m) := by
  by_cases hk : m = k
  · subst hk
    obtain ⟨r, ips, hsteady, -, ⟨-, added, -, he⟩ | hset⟩ := h.child
    · rw [he]
      obtain ⟨hstatic, hlocal, hnat⟩ := hm.of_setup hsteady.setup
      exact ⟨hstatic, hlocal, hnat⟩
    · obtain ⟨hstatic, hlocal, hnat⟩ := hm.of_setup hsteady.setup
      have := Configured.setRouter (r := r.addAddresses ips) ⟨hstatic, hlocal, hnat⟩ i
      rw [hset] at this
      exact this
  · exact hm.of_setup (h.others m hk).setup

/-- A successful attachment makes the child serve its pairs. -/
theorem Attaches.serving (h : Attaches rs rs' i k none) (hmode : t.mode = .natModeNAT1To1)
    (hk : Configured pairs t (rs k)) : Serving pairs t (rs' k) := by
  obtain ⟨r, ips, hsteady, hips, ⟨hsome, -⟩ | hset⟩ := h.child
  · cases hsome
  · obtain ⟨hstatic, hlocal, hnat⟩ := hk.of_setup hsteady.setup
    have hall : pairs.map Prod.fst ⊆ (r.addAddresses ips).eth0 := by
      intro e he
      rw [← hk.staticIPs] at he
      rw [hips (List.ne_nil_of_mem he)]
      exact List.mem_append_right _ he
    have := Configured.serves (r := r.addAddresses ips) ⟨hstatic, hlocal, hnat⟩ i
      hmode hall (by rw [hset])
    rw [hset] at this
    exact this

/-- A router that serves its pairs goes on doing so when something is attached to it, or it is
attached once more. -/
theorem Attaches.keeps_serving (h : Attaches rs rs' i k err) (hmode : t.mode = .natModeNAT1To1)
    {m : Nat} (hm : Serving pairs t (rs m)) : Serving pairs t (rs' m) := by
  by_cases hk : m = k
  · subst hk
    obtain ⟨r, ips, hsteady, hips, ⟨-, added, hsub, he⟩ | hset⟩ := h.child
    all_goals
      have hr := hm.steady hsteady
      have hstatics : (rs m).staticIPs = pairs.map Prod.fst := hm.staticIPs
      have hnonempty : pairs.map Prod.fst ≠ [] := by simpa using hm.nonempty
      obtain rfl : ips = pairs.map Prod.fst := (hips (hstatics ▸ hnonempty)).trans hstatics
    · rw [he]
      exact ⟨⟨hr.staticIPs, hr.staticLocalIPs, hr.natType⟩,
        List.append_subset.mpr ⟨hr.eth0, hsub⟩, hr.nonempty, hr.nat⟩
    · have hconfigured : Configured pairs t (r.addAddresses (pairs.map Prod.fst)) :=
        ⟨hr.staticIPs, hr.staticLocalIPs, hr.natType⟩
      have hok := hconfigured.setRouter_ok i hmode
        (List.append_ne_nil_of_right_ne_nil _ hnonempty)
        (List.append_subset.mpr ⟨hr.eth0, List.Subset.refl _⟩)
      have := hconfigured.serves i hmode (List.subset_append_right _ _) hok
      rw [hset] at this
      exact this
  · exact hm.steady (h.others m hk)

end Pairs

section Events

/-- A call leaves a 1:1 translator as it is. -/
theorem step_1To1 {n n' : NetworkAddressTranslator} {call : NATCall}
    {result : Except Failure (Option Chunk)} (hmode : n.natType.mode = .natModeNAT1To1)
    (h : n.step call = some (n', result)) : n' = n := by
  cases call with
  | outbound now c =>
    simp only [NetworkAddressTranslator.step, NetworkAddressTranslator.translateOutbound, hmode,
      Option.some.injEq] at h
    rw [← translateOutboundNAT1To1_fst n c, h]
  | inbound now c =>
    simp only [NetworkAddressTranslator.step, NetworkAddressTranslator.translateInbound, hmode,
      Option.some.injEq] at h
    rw [← (translateInboundNAT1To1_spec n c).1, h]

/-- A call of the translator is steady. -/
theorem steady_nat {r : Router} {n n' : NetworkAddressTranslator} (call : NATCall)
    {result : Except Failure (Option Chunk)} (hn : r.nat = some n)
    (h : n.step call = some (n', result)) : Steady r { r with nat := some n' } := by
  refine ⟨rfl, fun m hm hmode => ?_⟩
  obtain rfl := Option.some.inj (hn.symm.trans hm)
  rw [step_1To1 hmode h]

/-- Routing is steady. -/
theorem route_steady {r r' : Router} {now : Int} {c : Chunk} {result : Except Fate Handover}
    (h : r.route now c = some (r', result)) : Steady r r' := by
  cases Router.route_cases h with
  | blocked | unreachable | toNIC | noRoute => exact Steady.refl r
  | failed _ _ hnat htranslate =>
    have hsteady := steady_nat (.outbound now c) hnat htranslate
    exact ⟨hsteady.setup, hsteady.nat⟩
  | untranslated _ _ hnat htranslate | toParent _ _ hnat htranslate =>
    exact steady_nat (.outbound now c) hnat htranslate

/-- Queueing is steady. -/
theorem steady_push (r : Router) (now : Int) (c : Chunk) : Steady r (r.push now c).1 := by
  unfold Router.push
  split
  · exact ⟨rfl, fun _ h _ => h⟩
  · exact Steady.refl r

/-- Handing over is steady. -/
theorem steady_setPending (rs : Routers) (i : Nat) (next : Option Handover) (m : Nat) :
    Steady (rs m) (rs.setPending i next m) := by
  refine steady_set ?_ m
  exact ⟨rfl, fun _ h _ => h⟩

/-- Processing a chunk is steady. -/
theorem process_steady {entered now : Int} {o : Outcome}
    (h : rs.process i entered now = some (rs', o)) (m : Nat) : Steady (rs m) (rs' m) := by
  cases process_cases h with
  | idle => exact Steady.refl _
  | finished _ _ hroute =>
    have hsteady := route_steady hroute
    exact steady_set ⟨hsteady.setup, hsteady.nat⟩ m
  | routed _ _ hroute =>
    have hsteady := route_steady hroute
    refine steady_set ?_ m
    exact ⟨hsteady.setup, hsteady.nat⟩

/-- Delivering a chunk is steady. -/
theorem handOver_steady {now : Int} {o : Outcome} (h : rs.handOver i now = some (rs', o))
    (m : Nat) : Steady (rs m) (rs' m) := by
  have hset : ∀ {k nat nat' c result next}, (rs k).nat = some nat →
      nat.translateInbound now c = (nat', result) →
      Steady (rs m) (((rs.setNAT k nat').setPending i next) m) := by
    intro k nat nat' c result next hnat htranslate
    have hsteady := steady_nat (.inbound now c) hnat (congrArg some htranslate)
    exact (steady_set hsteady m).trans (steady_setPending _ i next m)
  cases handOver_cases h with
  | idle _ => exact Steady.refl _
  | delivered | dropped => exact steady_setPending rs i none m
  | refused _ hnat htranslate | translated _ hnat htranslate => exact hset hnat htranslate
  | forwarded _ _ =>
    refine (steady_setPending rs i none m).trans (steady_set ?_ m)
    exact ⟨rfl, fun _ hnat _ => hnat⟩

/-- A step is steady. -/
theorem step_steady {ev : Event} {o : Outcome} (h : rs.step ev = some (rs', o)) (m : Nat) :
    Steady (rs m) (rs' m) := by
  cases ev with
  | push i now c =>
    cases h
    exact steady_set (steady_push (rs i) now c) m
  | process i entered now => exact process_steady h m
  | handOver i now => exact handOver_steady h m

end Events

end Routers

/-- A call that attaches something, or an event of the network. -/
inductive Act
  | addNet (router host : Nat) (staticIPs : List IPv4)
  | addRouter (router child : Nat)
  | event (ev : Event)
  deriving DecidableEq, Repr

/-- Perform a call, whatever it returns, or an event. -/
def Routers.act (rs : Routers) : Act → Option (Routers × (Option RouterError ⊕ Outcome))
  | .addNet i host staticIPs =>
    some ((rs.addNet i host staticIPs).1, .inl (rs.addNet i host staticIPs).2)
  | .addRouter i child => some ((rs.addRouter i child).1, .inl (rs.addRouter i child).2)
  | .event ev => (rs.step ev).map fun result => (result.1, .inr result.2)

namespace Routers

open Router

variable {rs rs' : Routers} {pairs : List (IPv4 × IPv4)} {t : NATType} {k : Nat} {act : Act}
  {answer : Option RouterError ⊕ Outcome}

/-- An action keeps what is configured. -/
theorem act_configured (hk : Configured pairs t (rs k)) (h : rs.act act = some (rs', answer)) :
    Configured pairs t (rs' k) := by
  cases act with
  | addNet i host staticIPs =>
    cases h
    exact hk.of_setup (addNet_steady rs i host staticIPs k).setup
  | addRouter i child =>
    cases h
    exact (addRouter_attaches rs i child).configured hk
  | event ev =>
    obtain ⟨⟨rs₁, o⟩, hstep, he⟩ := Option.map_eq_some_iff.mp h
    cases he
    exact hk.of_setup (step_steady hstep k).setup

/-- An action keeps the service. -/
theorem act_serving (hmode : t.mode = .natModeNAT1To1) (hk : Serving pairs t (rs k))
    (h : rs.act act = some (rs', answer)) : Serving pairs t (rs' k) := by
  cases act with
  | addNet i host staticIPs =>
    cases h
    exact hk.steady (addNet_steady rs i host staticIPs k)
  | addRouter i child =>
    cases h
    exact (addRouter_attaches rs i child).keeps_serving hmode hk
  | event ev =>
    obtain ⟨⟨rs₁, o⟩, hstep, he⟩ := Option.map_eq_some_iff.mp h
    cases he
    exact hk.steady (step_steady hstep k)

end Routers

namespace Implements

variable {pairs : List (IPv4 × IPv4)} {n : NetworkAddressTranslator} {c : Chunk} {e l : IPv4}

/-- A local address is mapped to an external address of one of its pairs. -/
theorem getPairedMappedIP (h : Implements pairs n) :
    match n.getPairedMappedIP l with
    | some e => (e, l) ∈ pairs
    | none => ∀ e, (e, l) ∉ pairs := by
  have hswap : ∀ e, (l, e) ∈ n.localIPs.zip n.mappedIPs ↔ (e, l) ∈ pairs := by
    intro e
    rw [← h.pairs]
    simp only [List.mem_iff_getElem?, List.getElem?_zip_eq_some, and_comm]
  cases hpaired : n.getPairedMappedIP l with
  | some e => exact (hswap e).mp (mem_zip_of_idxOf? hpaired)
  | none =>
    intro e hpair
    have hmem := (List.of_mem_zip ((hswap e).mpr hpair)).1
    obtain ⟨e', he'⟩ := exists_idxOf?_of_mem h.lengths.symm hmem
    exact absurd (hpaired.symm.trans he') (by simp)

/-- An external address belongs to one pair, by which it is mapped. -/
theorem getPairedLocalIP (h : Implements pairs n) (hnodup : (pairs.map Prod.fst).Nodup) :
    n.getPairedLocalIP e = some l ↔ (e, l) ∈ pairs := by
  constructor
  · intro hpaired
    exact (h.pairs e l).mp (mem_zip_of_idxOf? hpaired)
  · intro hpair
    have hmem := (List.of_mem_zip ((h.pairs e l).mpr hpair)).1
    obtain ⟨l', hl'⟩ := exists_idxOf?_of_mem h.lengths hmem
    have hpair' := (h.pairs e l').mp (mem_zip_of_idxOf? hl')
    have he := List.inj_on_of_nodup_map hnodup hpair hpair' rfl
    rw [(Prod.mk.inj he).2]
    exact hl'

/-- What becomes of an outbound chunk. -/
theorem translateOutbound (h : Implements pairs n) (now : Int) (c : Chunk) :
    (∃ e, (e, c.getSourceIP) ∈ pairs ∧ n.translateOutbound now c =
        some (n, .ok (some (c.clone.withSource ⟨e, c.sourceAddr.port⟩)))) ∨
      ((∀ e, (e, c.getSourceIP) ∉ pairs) ∧ n.translateOutbound now c = some (n, .ok none)) := by
  have hpaired := h.getPairedMappedIP (l := c.getSourceIP)
  simp only [NetworkAddressTranslator.translateOutbound, h.mode,
    NetworkAddressTranslator.translateOutboundNAT1To1]
  cases he : n.getPairedMappedIP c.getSourceIP with
  | some e =>
    rw [he] at hpaired
    exact Or.inl ⟨e, hpaired, congrArg some (setMappedSource_eq n c rfl)⟩
  | none =>
    rw [he] at hpaired
    exact Or.inr ⟨hpaired, rfl⟩

/-- An inbound chunk to an external address goes to its partner. -/
theorem translateInbound (h : Implements pairs n) (hnodup : (pairs.map Prod.fst).Nodup)
    (hpair : (c.getDestinationIP, l) ∈ pairs) (now : Int) :
    n.translateInbound now c =
      (n, .ok (some (c.clone.withDestination ⟨l, c.destinationAddr.port⟩))) := by
  have hresolve : resolveAddr (hostPort l c.destinationAddr.port.toNat) =
      some ⟨l, c.destinationAddr.port⟩ := resolveAddr_string ⟨l, _⟩
  simp only [NetworkAddressTranslator.translateInbound, h.mode,
    NetworkAddressTranslator.translateInboundNAT1To1, (h.getPairedLocalIP hnodup).mpr hpair,
    Chunk.setDestinationAddr, hresolve, Option.map_some]

/-- An inbound chunk to any other address is refused. -/
theorem translateInbound_refused (h : Implements pairs n) (hnodup : (pairs.map Prod.fst).Nodup)
    (hpair : ∀ l, (c.getDestinationIP, l) ∉ pairs) (now : Int) :
    ∃ message, n.translateInbound now c =
      (n, .error ⟨.noAssociatedLocalAddress, message⟩) := by
  have hnone : n.getPairedLocalIP c.getDestinationIP = none := by
    rw [Option.eq_none_iff_forall_ne_some]
    intro l hl
    exact hpair l ((h.getPairedLocalIP hnodup).mp hl)
  simp only [NetworkAddressTranslator.translateInbound, h.mode,
    NetworkAddressTranslator.translateInboundNAT1To1, hnone]
  exact ⟨_, rfl⟩

end Implements

/-- The router was made by `NewRouter` from a configuration of 1:1 pairs. Whatever was attached and
whatever was sent before it was attached itself and afterwards, its translator implements the
pairs, and its tables are empty. -/
theorem nat_implements_pairs {config : RouterConfig} {pairs : List (IPv4 × IPv4)} {t : NATType}
    {rs₀ rs rs₁ rs' : Routers} {i k : Nat} {r₀ : Router} {filters : List (Chunk → Bool)}
    {started : Bool} {before after : List Act}
    {answers answers' : List (Option RouterError ⊕ Outcome)}
    (hpairs : config.staticIPs = pairs.map pairText) (hnat : config.natType = some t)
    (hmode : t.mode = .natModeNAT1To1) (hnew : newRouter config = .ok r₀)
    (hk : rs₀ k = { r₀ with chunkFilters := filters, started := started })
    (hbefore : run Routers.act rs₀ before = some (rs, answers))
    (hadd : rs.addRouter i k = (rs₁, none))
    (hafter : run Routers.act rs₁ after = some (rs', answers')) :
    ∃ n, (rs' k).nat = some n ∧ n.mappings = [] ∧ n.outboundMap = ∅ ∧ n.inboundMap = ∅ ∧
      (∀ c now, (∃ e, (e, c.getSourceIP) ∈ pairs ∧
          n.translateOutbound now c =
            some (n, .ok (some (c.clone.withSource ⟨e, c.sourceAddr.port⟩))) ∧
          ∀ reply now', reply.destinationAddr = ⟨e, c.sourceAddr.port⟩ →
            n.translateInbound now' reply =
              (n, .ok (some (reply.clone.withDestination c.sourceAddr)))) ∨
        ((∀ e, (e, c.getSourceIP) ∉ pairs) ∧ n.translateOutbound now c = some (n, .ok none))) ∧
      (∀ c now, (∀ l, (c.getDestinationIP, l) ∈ pairs →
          n.translateInbound now c =
            (n, .ok (some (c.clone.withDestination ⟨l, c.destinationAddr.port⟩)))) ∧
        ((∀ l, (c.getDestinationIP, l) ∉ pairs) →
          ∃ message, n.translateInbound now c =
            (n, .error ⟨.noAssociatedLocalAddress, message⟩))) := by
  obtain ⟨hconfigured, hnodup⟩ := Router.newRouter_configured hpairs hnat hnew
  have hconfigured₀ : Router.Configured pairs t (rs₀ k) := by
    rw [hk]
    exact hconfigured.of_setup rfl
  have hconfigured₁ : Router.Configured pairs t (rs k) :=
    keeps_of_step (I := fun rs : Routers => Router.Configured pairs t (rs k))
      Routers.act_configured hconfigured₀ hbefore
  have hattaches := Routers.addRouter_attaches rs i k
  rw [hadd] at hattaches
  have hserving : Router.Serving pairs t (rs' k) :=
    keeps_of_step (I := fun rs : Routers => Router.Serving pairs t (rs k))
      (Routers.act_serving hmode) (hattaches.serving hmode hconfigured₁) hafter
  obtain ⟨n, hn, himplements⟩ := hserving.nat
  obtain ⟨hmappings, houtbound, hinbound⟩ := himplements.tables
  refine ⟨n, hn, hmappings, houtbound, hinbound, fun c now => ?_, fun c now => ⟨?_, ?_⟩⟩
  · rcases himplements.translateOutbound now c with ⟨e, hpair, he⟩ | hdropped
    · refine Or.inl ⟨e, hpair, he, fun reply now' hreply => ?_⟩
      have hpair' : (reply.getDestinationIP, c.getSourceIP) ∈ pairs := by
        rw [Chunk.getDestinationIP, hreply]
        exact hpair
      rw [himplements.translateInbound hnodup hpair', hreply]
      rfl
    · exact Or.inr hdropped
  · intro l hpair
    exact himplements.translateInbound hnodup hpair now
  · intro hpair
    exact himplements.translateInbound_refused hnodup hpair now

/-- Three pairs, two of them of one local address. -/
def threePairs : List (IPv4 × IPv4) :=
  [(⟨1, 2, 3, 4⟩, ⟨10, 0, 0, 2⟩), (⟨1, 2, 3, 5⟩, ⟨10, 0, 0, 2⟩), (⟨1, 2, 3, 6⟩, ⟨10, 0, 0, 3⟩)]

/-- The configurations of a network, and of one below it that has the pairs. -/
def pairedConfig : Nat → RouterConfig
  | 0 => ⟨⟨⟨1, 2, 3, 0⟩, 24⟩, [], 0, none, 0⟩
  | _ => ⟨⟨⟨10, 0, 0, 0⟩, 24⟩, threePairs.map pairText, 0,
      some ⟨.natModeNAT1To1, .endpointAddrDependent, .endpointAddrDependent, 0⟩, 0⟩

/-- The routers of the two networks. -/
def pairedRouters : Routers := fun i =>
  { ipv4Net := (pairedConfig i).ipv4Net
    staticIPs := if i = 0 then [] else threePairs.map Prod.fst
    staticLocalIPs :=
      if i = 0 then ∅ else insertAll ∅ (threePairs.map fun pair => (pair.1.string, pair.2))
    lastID := 0, eth0 := [], queue := newChunkQueue 0 0, parent := none
    natType := (pairedConfig i).natType, nat := none, nics := ∅
    chunkFilters := [], minDelay := 0, started := false, halted := false, pending := none }

/-- Three pairs, of which the second is used. -/
theorem nat_implements_three_pairs : ∃ rs rs₁ rs' answers answers' n,
    run Routers.act pairedRouters [.addNet 1 7 []] = some (rs, answers) ∧
      rs.addRouter 0 1 = (rs₁, none) ∧
      run Routers.act rs₁ [.addNet 0 8 [⟨1, 2, 3, 9⟩]] = some (rs', answers') ∧
      (rs' 1).nat = some n ∧ n.inboundMap = ∅ ∧
      n.translateInbound 0 (.udp ⟨⟨0, ⟨1, 2, 3, 9⟩, ⟨1, 2, 3, 5⟩, "1", false⟩, 53, 80, [7]⟩) =
        (n, .ok (some (.udp ⟨⟨0, ⟨1, 2, 3, 9⟩, ⟨10, 0, 0, 2⟩, "1", false⟩, 53, 80, [7]⟩))) := by
  have hnew : newRouter (pairedConfig 1) = .ok (pairedRouters 1) := rfl
  have hbefore : run Routers.act pairedRouters [.addNet 1 7 []] = some _ := rfl
  have hadd : ((pairedRouters.addNet 1 7 []).1.addRouter 0 1).2 = none := by decide +kernel
  have hafter : run Routers.act ((pairedRouters.addNet 1 7 []).1.addRouter 0 1).1
      [.addNet 0 8 [⟨1, 2, 3, 9⟩]] = some _ := rfl
  obtain ⟨n, hn, -, -, hinbound, -, htranslate⟩ :=
    nat_implements_pairs (k := 1) rfl rfl rfl hnew rfl hbefore (Prod.ext rfl hadd) hafter
  exact ⟨_, _, _, _, _, n, rfl, Prod.ext rfl hadd, rfl, hn, hinbound,
    (htranslate _ 0).1 ⟨10, 0, 0, 2⟩ (by decide)⟩

end PionTransport.Vnet
