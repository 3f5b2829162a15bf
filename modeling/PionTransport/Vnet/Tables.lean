import PionTransport.Core.Indexed
import PionTransport.Vnet.Flows

/-!
# Tables that represent a history of flows

Every mapping on the heap stands for one external address of one network, and
records its uses: their filter keys and the newest of their times. The two
tables hold the same mappings, each under its own key; a mapping that is in
neither has expired. The keys are injective text.
-/

namespace PionTransport.Vnet

open PionTransport.Core

/-- The text of an endpoint. -/
def Endpoint.string : Endpoint → String
  | .any => ""
  | .ip remote => remote.string
  | .addr remote => remote.string

theorem endpointKey_eq (behavior : EndpointDependencyType) (remote : Addr) :
    endpointKey behavior remote = (behavior.endpoint remote).string := by
  cases behavior <;> rfl

theorem IPv4.toList_string_ne_nil (ip : IPv4) : ip.string.toList ≠ [] := by
  intro h
  have hparse := parseIP_string ip
  rw [h] at hparse
  cases hparse

theorem Addr.toList_string (addr : Addr) :
    addr.string.toList = addr.ip.string.toList ++ ':' :: Nat.toDigits 10 addr.port.toNat :=
  toList_hostPort addr.ip addr.port.toNat

/-- Endpoints are determined by their text. -/
theorem Endpoint.string_injective {e e' : Endpoint} (h : e.string = e'.string) : e = e' := by
  have hempty : "".toList = [] := by decide
  have hip : ∀ ip : IPv4, ip.string ≠ "" := fun ip he =>
    ip.toList_string_ne_nil (by rw [he, hempty])
  have haddr : ∀ addr : Addr, ':' ∈ addr.string.toList := fun addr => by
    rw [addr.toList_string]
    simp
  cases e with
  | any =>
    cases e' with
    | any => rfl
    | ip x' => exact absurd h.symm (hip x')
    | addr x' => exact absurd (haddr x') (by rw [← (show "" = x'.string from h), hempty]; simp)
  | ip x =>
    cases e' with
    | any => exact absurd h (hip x)
    | ip x' => rw [IPv4.string_injective (show x.string = x'.string from h)]
    | addr x' => exact absurd (haddr x') ((show x.string = x'.string from h) ▸ x.colon_notMem)
  | addr x =>
    cases e' with
    | any => exact absurd (haddr x) (by rw [show x.string = "" from h, hempty]; simp)
    | ip x' => exact absurd (haddr x) ((show x.string = x'.string from h) ▸ x'.colon_notMem)
    | addr x' => rw [Addr.string_injective (show x.string = x'.string from h)]

theorem Network.string_injective {network network' : Network}
    (h : network.string = network'.string) : network = network' := by
  cases network <;> cases network' <;> first | rfl | exact absurd h (by decide)

theorem Network.colon_notMem (network : Network) : ':' ∉ network.string.toList := by
  cases network <;> decide

/-- The key of a flow in the outbound table. -/
def Flow.key (f : Flow) : String := outboundKey f.network.string f.source.string f.bound.string

theorem toList_inboundKey (proto mapped : String) :
    (inboundKey proto mapped).toList = proto.toList ++ ':' :: mapped.toList := by
  have hcolon : ":".toList = [':'] := by decide
  simp only [inboundKey, String.toList_append, hcolon, List.append_assoc, List.singleton_append]

/-- Keys of the inbound table are determined by network and address. -/
theorem inboundKey_injective {network network' : Network} {addr addr' : Addr}
    (h : inboundKey network.string addr.string = inboundKey network'.string addr'.string) :
    network = network' ∧ addr = addr' := by
  have hlist := congrArg String.toList h
  rw [toList_inboundKey, toList_inboundKey] at hlist
  obtain ⟨hn, ha⟩ := field_inj network.colon_notMem network'.colon_notMem hlist
  exact ⟨Network.string_injective (String.toList_inj.mp hn),
    Addr.string_injective (String.toList_inj.mp ha)⟩

theorem toList_flow_key (f : Flow) :
    f.key.toList = f.network.string.toList ++ ':' :: (f.source.ip.string.toList ++ ':' ::
      (Nat.toDigits 10 f.source.port.toNat ++ ':' :: f.bound.string.toList)) := by
  have hcolon : ":".toList = [':'] := by decide
  simp only [Flow.key, outboundKey, String.toList_append, hcolon, f.source.toList_string,
    List.append_assoc, List.cons_append, List.nil_append]

/-- Keys of the outbound table are determined by the flow. -/
theorem Flow.key_injective {f f' : Flow} (h : f.key = f'.key) : f = f' := by
  have hlist := congrArg String.toList h
  have hdigits := notMem_toDigits (c := ':') (by decide)
  rw [toList_flow_key, toList_flow_key] at hlist
  obtain ⟨hn, hlist⟩ := field_inj f.network.colon_notMem f'.network.colon_notMem hlist
  obtain ⟨hip, hlist⟩ := field_inj f.source.ip.colon_notMem f'.source.ip.colon_notMem hlist
  obtain ⟨hport, hbound⟩ := field_inj (hdigits _) (hdigits _) hlist
  have hsource : f.source = f'.source := by
    apply Addr.string_injective
    apply String.toList_inj.mp
    rw [f.source.toList_string, f'.source.toList_string, hip, hport]
  obtain ⟨network, source, bound⟩ := f
  obtain ⟨network', source', bound'⟩ := f'
  obtain rfl := Network.string_injective (String.toList_inj.mp hn)
  obtain rfl := Endpoint.string_injective (String.toList_inj.mp hbound)
  obtain rfl : source = source' := hsource
  rfl

/-- The mapping belongs to the flow and the external address of a use. -/
structure Names (t : NATType) (m : Mapping) (u : Use) : Prop where
  proto : m.proto = u.chunk.network.string
  localAddr : m.localAddr = u.chunk.sourceAddr.string
  bound : m.bound = (t.mappingBehavior.endpoint u.chunk.destinationAddr).string
  mapped : m.mapped = u.external.string

variable {t : NATType} {ip : IPv4} {m : Mapping} {u v : Use} {uses : List Use}

theorem Names.oKey_eq (h : Names t m u) : m.oKey = (t.flow u.chunk).key := by
  rw [Mapping.oKey, h.proto, h.localAddr, h.bound]
  rfl

theorem Names.iKey_eq (h : Names t m u) :
    m.iKey = inboundKey u.chunk.network.string u.external.string := by
  rw [Mapping.iKey, h.proto, h.mapped]

/-- A mapping has one network and one external address. -/
theorem Names.binding_eq (h : Names t m u) (h' : Names t m v) :
    u.chunk.network = v.chunk.network ∧ u.external = v.external :=
  ⟨Network.string_injective (h.proto.symm.trans h'.proto),
    Addr.string_injective (h.mapped.symm.trans h'.mapped)⟩

/-- A mapping names every use of its flow and external address. -/
theorem Names.of_flow (h : Names t m u) (hflow : t.flow v.chunk = t.flow u.chunk)
    (hexternal : v.external = u.external) : Names t m v := by
  have hn : v.chunk.network = u.chunk.network := congrArg Flow.network hflow
  have hs : v.chunk.sourceAddr = u.chunk.sourceAddr := congrArg Flow.source hflow
  have hb : t.mappingBehavior.endpoint v.chunk.destinationAddr =
      t.mappingBehavior.endpoint u.chunk.destinationAddr := congrArg Flow.bound hflow
  exact ⟨by rw [h.proto, hn], by rw [h.localAddr, hs], by rw [h.bound, hb],
    by rw [h.mapped, hexternal]⟩

/-- The uses that a mapping names are the bindings of its external address. -/
theorem Names.iff_binding (hh : Translations t ip uses) (h : Names t m u) (hu : u ∈ uses)
    (hv : v ∈ uses) :
    Names t m v ↔ v ∈ bindings uses u.chunk.network u.external := by
  simp only [bindings, List.mem_filter, hv, true_and, decide_eq_true_eq]
  constructor
  · intro h'
    exact h'.binding_eq h
  · rintro ⟨hn, he⟩
    exact h.of_flow (hh.flow_eq v u hv hu hn he) he

/-- The mapping records the newest time and the filter keys of its uses. -/
structure Records (t : NATType) (uses : List Use) (m : Mapping) : Prop where
  newest : ∃ u ∈ uses, Names t m u ∧ m.expires = u.time + t.mappingLifeTime ∧
    ∀ v ∈ uses, Names t m v → v.time ≤ u.time
  filters : ∀ key, key ∈ m.filters ↔
    ∃ u ∈ uses, Names t m u ∧ endpointKey t.filteringBehavior u.chunk.destinationAddr = key

/-- The translator's state is that of a history whose last call was not after `now`. -/
structure Represents (t : NATType) (ip : IPv4) (n : NetworkAddressTranslator) (uses : List Use)
    (now : Int) : Prop where
  natType_eq : n.natType = t
  normal : t.mode = .natModeNormal
  mappedIP : n.mappedIPs[0]? = some ip
  history : Translations t ip uses
  counter : ∀ network, n.portCounter network = (externals uses network).length
  past : ∀ u ∈ uses, u.time ≤ now
  records : ∀ (p : Nat) (m : Mapping), n.mappings[p]? = some m → Records t uses m
  stored : ∀ u ∈ uses, ∃ (p : Nat) (m : Mapping), n.mappings[p]? = some m ∧ Names t m u
  unique : ∀ (p q : Nat) (m m' : Mapping), n.mappings[p]? = some m → n.mappings[q]? = some m' →
    m.iKey = m'.iKey → p = q
  indexed : Indexed Mapping.oKey Mapping.iKey n.mappings n.outboundMap n.inboundMap
  latest : ∀ (p : Nat) (m : Mapping), n.mappings[p]? = some m →
    n.outboundMap.lookup m.oKey = some p → ∃ u, t.lastUse uses (t.flow u.chunk) = some u ∧
      Names t m u ∧ m.expires = u.time + t.mappingLifeTime
  removed : ∀ (p : Nat) (m : Mapping), n.mappings[p]? = some m →
    n.inboundMap.lookup m.iKey ≠ some p → m.expires < now

variable {n : NetworkAddressTranslator} {now now' : Int}

/-- A new translator represents the empty history. -/
theorem represents_new {t : NATType} {mappedIPs localIPs : List IPv4}
    (hmode : t.mode = .natModeNormal) (hip : mappedIPs[0]? = some ip) (now : Int) :
    Represents t ip ⟨t, mappedIPs, localIPs, [], ∅, ∅, 0, 0⟩ [] now := by
  refine ⟨rfl, hmode, hip, .nil, ?_, by simp, by simp, by simp, by simp, .empty .., by simp,
    by simp⟩
  intro network
  cases network <;> rfl

/-- Time may pass between calls. -/
theorem Represents.later (h : Represents t ip n uses now) (hle : now ≤ now') :
    Represents t ip n uses now' :=
  { h with
    past := fun u hu => Int.le_trans (h.past u hu) hle
    removed := fun p m hm hr => Int.lt_of_lt_of_le (h.removed p m hm hr) hle }

/-- A mapping outlives all its uses by the lifetime. -/
theorem Records.le_expires (h : Records t uses m) (hu : u ∈ uses) (hn : Names t m u) :
    u.time + t.mappingLifeTime ≤ m.expires := by
  obtain ⟨v, -, -, he, hmax⟩ := h.newest
  have := hmax u hu hn
  omega

/-- The mapping of a live use is in both tables. -/
theorem Represents.live_use (h : Represents t ip n uses now) (hu : u ∈ uses) (ha : t.Alive now u) :
    ∃ p m, n.mappings[p]? = some m ∧ Names t m u ∧ n.inboundMap.lookup m.iKey = some p ∧
      n.outboundMap.lookup m.oKey = some p ∧ now ≤ m.expires := by
  obtain ⟨p, m, hm, hn⟩ := h.stored u hu
  have hexpires := (h.records p m hm).le_expires hu hn
  have hlive : now ≤ m.expires := Int.le_trans ha hexpires
  have hin : n.inboundMap.lookup m.iKey = some p := by
    by_contra hr
    have := h.removed p m hm hr
    omega
  exact ⟨p, m, hm, hn, hin, h.indexed.symm.lookup_right hm hin, hlive⟩

theorem lookup_removeMapping_outbound (n : NetworkAddressTranslator) (m : Mapping) (key : String) :
    (n.removeMapping m).outboundMap.lookup key =
      if key = m.oKey then none else n.outboundMap.lookup key := by
  unfold NetworkAddressTranslator.removeMapping
  exact lookup_erase_eq

/-- Removing an expired mapping keeps the representation. -/
theorem Represents.removeMapping (h : Represents t ip n uses now) {p : Nat}
    (hm : n.mappings[p]? = some m) (hin : n.inboundMap.lookup m.iKey = some p)
    (hexpired : m.expires < now) : Represents t ip (n.removeMapping m) uses now := by
  have hout := h.indexed.symm.lookup_right hm hin
  refine { h with counter := ?_, indexed := h.indexed.erase hm hout, latest := ?_, removed := ?_ }
  · intro network
    rw [← h.counter network]
    cases network <;> rfl
  · intro q m' hm' hq
    exact h.latest q m' hm' (lookup_erase_iff.mp hq).2
  · intro q m' hm' hr
    by_cases hqp : q = p
    · subst hqp
      obtain rfl : m = m' := Option.some.inj (hm.symm.trans hm')
      exact hexpired
    · refine h.removed q m' hm' fun hq => hr ?_
      exact (h.indexed.symm.lookup_erase hm hin _ q).mpr ⟨hq, hqp⟩

/-- A mapping that does not name a new use records the same history. -/
theorem Records.cons_of_not_names (h : Records t uses m) (hu : ¬ Names t m u) :
    Records t (u :: uses) m := by
  refine ⟨?_, ?_⟩
  · obtain ⟨v, hv, hn, he, hmax⟩ := h.newest
    refine ⟨v, List.mem_cons_of_mem u hv, hn, he, fun w hw hnw => ?_⟩
    rcases List.mem_cons.mp hw with rfl | hw
    · exact absurd hnw hu
    · exact hmax w hw hnw
  · intro key
    rw [h.filters]
    constructor
    · rintro ⟨v, hv, hn, hk⟩
      exact ⟨v, List.mem_cons_of_mem u hv, hn, hk⟩
    · rintro ⟨v, hv, hn, hk⟩
      rcases List.mem_cons.mp hv with rfl | hv
      · exact absurd hn hu
      · exact ⟨v, hv, hn, hk⟩

/-- A new use is the last one of its own flow and changes no other flow. -/
theorem lastUse_cons (t : NATType) (u : Use) (uses : List Use) (flow : Flow) :
    t.lastUse (u :: uses) flow =
      if t.flow u.chunk = flow then some u else t.lastUse uses flow := by
  unfold NATType.lastUse
  by_cases hflow : t.flow u.chunk = flow
  · rw [if_pos hflow, List.find?_cons_of_pos (by simpa using hflow)]
  · rw [if_neg hflow, List.find?_cons_of_neg (by simpa using hflow)]

theorem getElem?_set_iff {mappings : List Mapping} {p q : Nat} {m m' x : Mapping}
    (hm : mappings[p]? = some m) :
    (mappings.set p m')[q]? = some x ↔ (q = p ∧ x = m') ∨ (q ≠ p ∧ mappings[q]? = some x) := by
  obtain ⟨hp, -⟩ := List.getElem?_eq_some_iff.mp hm
  by_cases hq : q = p
  · subst hq
    rw [List.getElem?_set_self hp]
    simp [eq_comm]
  · rw [List.getElem?_set_ne (Ne.symm hq)]
    simp [hq]

/-- The same mapping with another expiry and other filters. -/
structure Refreshed (m m' : Mapping) : Prop where
  proto : m'.proto = m.proto
  localAddr : m'.localAddr = m.localAddr
  mapped : m'.mapped = m.mapped
  bound : m'.bound = m.bound

theorem Refreshed.names_iff {m' : Mapping} (h : Refreshed m m') : Names t m' u ↔ Names t m u := by
  constructor
  · rintro ⟨hp, hl, hb, hm⟩
    exact ⟨h.proto ▸ hp, h.localAddr ▸ hl, h.bound ▸ hb, h.mapped ▸ hm⟩
  · rintro ⟨hp, hl, hb, hm⟩
    exact ⟨h.proto.trans hp, h.localAddr.trans hl, h.bound.trans hb, h.mapped.trans hm⟩

theorem Refreshed.oKey_eq {m' : Mapping} (h : Refreshed m m') : m'.oKey = m.oKey := by
  rw [Mapping.oKey, Mapping.oKey, h.proto, h.localAddr, h.bound]

theorem Refreshed.iKey_eq {m' : Mapping} (h : Refreshed m m') : m'.iKey = m.iKey := by
  rw [Mapping.iKey, Mapping.iKey, h.proto, h.mapped]

/-- The mapping `m'` at `p` takes in the use `u`; the others stay, with their entries, and none has
the same inbound key. -/
theorem Represents.use (h : Represents t ip n uses now) {n' : NetworkAddressTranslator} {p : Nat}
    {m' : Mapping} (hnow : u.time = now) (htype : n'.natType = t)
    (hip : n'.mappedIPs[0]? = some ip) (hhistory : Translations t ip (u :: uses))
    (hcounter : ∀ network, n'.portCounter network = (externals (u :: uses) network).length)
    (hindexed : Indexed Mapping.oKey Mapping.iKey n'.mappings n'.outboundMap n'.inboundMap)
    (hnames : Names t m' u) (hexpires : m'.expires = now + t.mappingLifeTime)
    (hfilters : ∀ key, key ∈ m'.filters ↔ ∃ v ∈ u :: uses, Names t m' v ∧
      endpointKey t.filteringBehavior v.chunk.destinationAddr = key)
    (hheap : ∀ q x, n'.mappings[q]? = some x ↔ q = p ∧ x = m' ∨ q ≠ p ∧ n.mappings[q]? = some x)
    (holder : ∀ m v, n.mappings[p]? = some m → Names t m v → Names t m' v)
    (hin : n'.inboundMap.lookup m'.iKey = some p)
    (hother : ∀ q x, q ≠ p → n.mappings[q]? = some x → x.iKey ≠ m'.iKey ∧
      n'.inboundMap.lookup x.iKey = n.inboundMap.lookup x.iKey ∧
      (n'.outboundMap.lookup x.oKey = some q → n.outboundMap.lookup x.oKey = some q)) :
    Represents t ip n' (u :: uses) now := by
  subst hnow
  have hpast : ∀ v ∈ u :: uses, v.time ≤ u.time := by
    intro v hv
    rcases List.mem_cons.mp hv with rfl | hv
    · exact Int.le_refl _
    · exact h.past v hv
  have hm' := (hheap p m').mpr (.inl ⟨rfl, rfl⟩)
  have hout := hindexed.symm.lookup_right hm' hin
  refine ⟨htype, h.normal, hip, hhistory, hcounter, hpast, ?_, ?_, ?_, hindexed, ?_, ?_⟩
  · intro q x hx
    rcases (hheap q x).mp hx with ⟨rfl, rfl⟩ | ⟨hq, hx⟩
    · exact ⟨⟨u, List.mem_cons_self, hnames, hexpires, fun v hv _ => hpast v hv⟩, hfilters⟩
    · refine (h.records q x hx).cons_of_not_names fun hn => (hother q x hq hx).1 ?_
      rw [hn.iKey_eq, hnames.iKey_eq]
  · intro v hv
    rcases List.mem_cons.mp hv with rfl | hv
    · exact ⟨p, m', hm', hnames⟩
    · obtain ⟨q, x, hx, hn⟩ := h.stored v hv
      by_cases hq : q = p
      · exact ⟨p, m', hm', holder x v (hq ▸ hx) hn⟩
      · exact ⟨q, x, (hheap q x).mpr (.inr ⟨hq, hx⟩), hn⟩
  · intro q r x y hx hy he
    rcases (hheap q x).mp hx with ⟨rfl, rfl⟩ | ⟨hq, hx⟩ <;>
      rcases (hheap r y).mp hy with ⟨rfl, rfl⟩ | ⟨hr, hy⟩
    · rfl
    · exact absurd he.symm (hother r y hr hy).1
    · exact absurd he (hother q x hq hx).1
    · exact h.unique q r x y hx hy he
  · intro q x hx hlookup
    rcases (hheap q x).mp hx with ⟨rfl, rfl⟩ | ⟨hq, hx⟩
    · exact ⟨u, by rw [lastUse_cons, if_pos rfl], hnames, hexpires⟩
    · obtain ⟨v, hlast, hn, he⟩ := h.latest q x hx ((hother q x hq hx).2.2 hlookup)
      refine ⟨v, ?_, hn, he⟩
      rw [lastUse_cons, if_neg, hlast]
      intro hflow
      have hkeys : x.oKey = m'.oKey := by rw [hn.oKey_eq, hnames.oKey_eq, hflow]
      rw [hkeys, hout] at hlookup
      exact hq (Option.some.inj hlookup).symm
  · intro q x hx hr
    rcases (hheap q x).mp hx with ⟨rfl, rfl⟩ | ⟨hq, hx⟩
    · exact absurd hin hr
    · rw [(hother q x hq hx).2.1] at hr
      exact h.removed q x hx hr

/-- Using a live mapping again: its expiry is renewed and its filters grow. -/
theorem Represents.refresh (h : Represents t ip n uses now) {c : Chunk} {p : Nat} {m' : Mapping}
    (hlast : t.lastUse uses (t.flow c) = some u) (halive : t.Alive now u)
    (hm : n.mappings[p]? = some m) (hnames : Names t m u)
    (hin : n.inboundMap.lookup m.iKey = some p) (hsame : Refreshed m m')
    (hexpires : m'.expires = now + t.mappingLifeTime)
    (hfilters : ∀ key, key ∈ m'.filters ↔
      key ∈ m.filters ∨ endpointKey t.filteringBehavior c.destinationAddr = key) :
    Represents t ip { n with mappings := n.mappings.set p m' }
      (⟨now, c, u.external⟩ :: uses) now := by
  obtain ⟨hu, hflow⟩ := lastUse_flow hlast
  have hnew : Names t m ⟨now, c, u.external⟩ := hnames.of_flow hflow.symm rfl
  have hexternal : u.external ∈ externals uses c.network :=
    mem_externals.mpr ⟨u, hu, congrArg Flow.network hflow, rfl⟩
  have hassign : t.assign ip uses now c = some u.external := by
    simp only [NATType.assign, hlast, halive, ite_true]
  refine h.use rfl h.natType_eq h.mappedIP (h.history.cons hassign) ?_
    (h.indexed.set hm hsame.oKey_eq hsame.iKey_eq) (hsame.names_iff.mpr hnew) hexpires ?_
    (fun q x => getElem?_set_iff hm) ?_ (hsame.iKey_eq ▸ hin) ?_
  · intro network
    rw [externals_cons, if_neg (by rintro ⟨rfl, hfresh⟩; exact hfresh hexternal)]
    exact h.counter network
  · intro key
    rw [hfilters, (h.records p m hm).filters]
    simp only [List.mem_cons, exists_eq_or_imp, hsame.names_iff, hnew, true_and]
    exact or_comm
  · intro m₀ v hm₀ hn
    cases hm.symm.trans hm₀
    exact hsame.names_iff.mpr hn
  · intro q x hq hx
    exact ⟨fun he => hq (h.unique q p x m hx hm (he.trans hsame.iKey_eq)), rfl, id⟩

/-- The state after a new mapping was added under both its keys. -/
def NetworkAddressTranslator.addMapping (n : NetworkAddressTranslator) (network : Network)
    (m : Mapping) : NetworkAddressTranslator :=
  { n.countPort network with
    mappings := n.mappings ++ [m]
    outboundMap := n.outboundMap.insert m.oKey n.mappings.length
    inboundMap := n.inboundMap.insert m.iKey n.mappings.length }

/-- Adding the mapping of a new external address extends the history by its first use. -/
theorem Represents.addMapping (h : Represents t ip n uses now) {c : Chunk} {external : Addr}
    (hassign : t.assign ip uses now c = some external)
    (hfresh : external ∉ externals uses c.network)
    (hnone : n.outboundMap.lookup (t.flow c).key = none) (hnames : Names t m ⟨now, c, external⟩)
    (hexpires : m.expires = now + t.mappingLifeTime)
    (hfilters : m.filters = [endpointKey t.filteringBehavior c.destinationAddr]) :
    Represents t ip (n.addMapping c.network m) (⟨now, c, external⟩ :: uses) now := by
  have hother : ∀ (q : Nat) (mq : Mapping), n.mappings[q]? = some mq → mq.iKey ≠ m.iKey := by
    intro q mq hmq hkey
    obtain ⟨v, hv, hnv, -, -⟩ := (h.records q mq hmq).newest
    rw [hnv.iKey_eq, hnames.iKey_eq] at hkey
    obtain ⟨hnetwork, hexternal⟩ := inboundKey_injective hkey
    exact hfresh (mem_externals.mpr ⟨v, hv, hnetwork, hexternal⟩)
  have honly : ∀ v ∈ uses, ¬ Names t m v := by
    intro v hv hnv
    obtain ⟨hnetwork, hexternal⟩ := hnv.binding_eq hnames
    exact hfresh (mem_externals.mpr ⟨v, hv, hnetwork, hexternal⟩)
  have hokey : n.outboundMap.lookup m.oKey = none := hnames.oKey_eq ▸ hnone
  have hikey : n.inboundMap.lookup m.iKey = none := by
    by_contra hsome
    obtain ⟨q, hq⟩ := Option.ne_none_iff_exists'.mp hsome
    obtain ⟨mq, hmq, hkey, -⟩ := h.indexed.right _ _ hq
    exact hother q mq hmq hkey
  have hlt : ∀ {q x}, n.mappings[q]? = some x → q ≠ n.mappings.length :=
    fun hx => Nat.ne_of_lt (List.getElem?_eq_some_iff.mp hx).1
  refine h.use rfl ?_ ?_ (h.history.cons hassign) ?_ (h.indexed.insert hokey hikey) hnames
    hexpires ?_ (fun q x => ?_) (fun _ _ hm => absurd rfl (hlt hm)) (AList.lookup_insert _) ?_
  · rw [← h.natType_eq]
    exact n.natType_countPort c.network
  · rw [← h.mappedIP]
    exact congrArg (·[0]?) (n.mappedIPs_countPort c.network)
  · intro network
    have hcounter : (n.addMapping c.network m).portCounter network =
        (n.countPort c.network).portCounter network := by
      cases network <;> rfl
    rw [hcounter, n.portCounter_countPort, externals_cons, h.counter]
    by_cases hn : c.network = network
    · subst hn
      rw [if_pos rfl, if_pos ⟨rfl, hfresh⟩, List.length_cons]
    · rw [if_neg hn, if_neg (fun he => hn he.1)]
  · intro key
    rw [hfilters, List.mem_singleton]
    simp only [List.mem_cons, exists_eq_or_imp, hnames, true_and]
    constructor
    · rintro rfl
      exact Or.inl rfl
    · rintro (he | ⟨v, hv, hnv, -⟩)
      · exact he.symm
      · exact absurd hnv (honly v hv)
  · exact getElem?_snoc_iff.trans (or_congr_right ⟨fun hx => ⟨hlt hx, hx⟩, And.right⟩)
  · intro q x hq hx
    refine ⟨hother q x hx, AList.lookup_insert_ne (hother q x hx), fun hlookup => ?_⟩
    rcases lookup_insert_iff.mp hlookup with ⟨-, he⟩ | ⟨-, hlookup⟩
    · exact absurd he hq
    · exact hlookup

end PionTransport.Vnet
