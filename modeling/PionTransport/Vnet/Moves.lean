import PionTransport.Vnet.Attach
import PionTransport.Vnet.Behavior

/-!
# Where chunks are and how they move

Every chunk of a running network is in a router's queue or in the call that a
router's goroutine makes. A step moves at most one chunk. The relation `Moves`
lists the ways in terms of the network's wiring, which a run never changes, and
of the history of every router's translator.
-/

namespace PionTransport.Vnet

open PionTransport.Core

/-- Where in a router a chunk is. -/
inductive Place
  | queue
  | toNIC (nic : NIC)
  | toRouter (router : Nat)
  deriving DecidableEq, Repr

/-- A chunk at a place of a router. -/
structure Location where
  router : Nat
  place : Place
  chunk : Chunk
  deriving DecidableEq, Repr

/-- The location of a chunk that is handed over. -/
def Handover.location (i : Nat) : Handover → Location
  | .toNIC nic c => ⟨i, .toNIC nic, c⟩
  | .toRouter k c => ⟨i, .toRouter k, c⟩

/-- The locations of a router's chunks. -/
def Router.locations (r : Router) (i : Nat) : List Location :=
  r.queue.chunks.map (fun c => ⟨i, .queue, c⟩) ++ (r.pending.map (Handover.location i)).toList

/-- The chunk is at this location. -/
def Routers.Carries (rs : Routers) (x : Location) : Prop := x ∈ (rs x.router).locations x.router

/-- The router takes every chunk that is pushed. -/
def Router.Open (r : Router) : Prop :=
  r.started = true ∧ r.queue.maxSize ≤ 0 ∧ r.queue.maxBytes ≤ 0

instance (r : Router) : Decidable r.Open :=
  inferInstanceAs (Decidable (r.started = true ∧ r.queue.maxSize ≤ 0 ∧ r.queue.maxBytes ≤ 0))

/-- The part of a router that a run never changes. -/
structure SameConfig (r₀ r : Router) : Prop where
  ipv4Net : r.ipv4Net = r₀.ipv4Net
  nics : r.nics = r₀.nics
  parent : r.parent = r₀.parent
  chunkFilters : r.chunkFilters = r₀.chunkFilters
  started : r.started = r₀.started
  maxSize : r.queue.maxSize = r₀.queue.maxSize
  maxBytes : r.queue.maxBytes = r₀.queue.maxBytes

/-- The state of a translator that started as `nat₀` and has translated `uses`. -/
structure Follows (nat₀ nat : NetworkAddressTranslator) (uses : List Use) (now : Int) : Prop where
  normal : nat₀.natType.mode = .natModeNormal →
    ∃ ip, nat₀.mappedIPs[0]? = some ip ∧ Represents nat₀.natType ip nat uses now
  paired : nat₀.natType.mode = .natModeNAT1To1 → nat = nat₀

section Translators

variable {nat₀ nat : NetworkAddressTranslator} {uses : List Use} {now now' : Int}

/-- Time may pass. -/
theorem Follows.later (h : Follows nat₀ nat uses now) (hle : now ≤ now') :
    Follows nat₀ nat uses now' := by
  refine ⟨fun hmode => ?_, h.paired⟩
  obtain ⟨ip, hip, hrepresents⟩ := h.normal hmode
  exact ⟨ip, hip, hrepresents.later hle⟩

/-- A new translator has translated nothing. -/
theorem newNAT_follows {config : NATConfig} {ip : IPv4} (hnew : newNAT config = .ok nat)
    (hip : config.mappedIPs[0]? = some ip) (now : Int) : Follows nat nat [] now := by
  refine ⟨fun hmode => ?_, fun _ => rfl⟩
  cases hconfig : config.natType.mode with
  | natModeNormal =>
    simp only [newNAT, hconfig] at hnew
    cases hnew
    exact ⟨ip, hip, represents_new rfl hip now⟩
  | natModeNAT1To1 =>
    simp only [newNAT, hconfig] at hnew
    split at hnew
    · cases hnew
    · split at hnew
      · cases hnew
      · cases hnew
        cases hmode

theorem newNAT_mappedIPs {config : NATConfig} (h : newNAT config = .ok nat) :
    nat.mappedIPs = config.mappedIPs := by
  unfold newNAT at h
  split at h
  · split at h
    · cases h
    · split at h <;> cases h
      rfl
  · cases h
    rfl

theorem translateOutboundNAT1To1_fst (nat : NetworkAddressTranslator) (c : Chunk) :
    (nat.translateOutboundNAT1To1 c).1 = nat := by
  unfold NetworkAddressTranslator.translateOutboundNAT1To1
    NetworkAddressTranslator.setMappedSource
  split
  · rfl
  · split <;> rfl

/-- Setting the mapped address changes the source only. -/
theorem setMappedSource_ok {c c' : Chunk} {mapped : String}
    (h : (nat.setMappedSource c mapped).2 = .ok (some c')) :
    ∃ external, c' = c.clone.withSource external := by
  unfold NetworkAddressTranslator.setMappedSource at h
  split at h
  · cases h
  next translated hset =>
    cases h
    obtain ⟨addr, -, rfl⟩ := Option.map_eq_some_iff.mp hset
    exact ⟨addr, rfl⟩

/-- A one-to-one translator changes the source only. -/
theorem translateOutboundNAT1To1_ok {c c' : Chunk}
    (h : (nat.translateOutboundNAT1To1 c).2 = .ok (some c')) :
    ∃ external, c' = c.clone.withSource external := by
  unfold NetworkAddressTranslator.translateOutboundNAT1To1 at h
  split at h
  · cases h
  · exact setMappedSource_ok h

/-- A one-to-one translator does not change, and keeps the tag. -/
theorem translateInboundNAT1To1_spec (nat : NetworkAddressTranslator) (c : Chunk) :
    (nat.translateInboundNAT1To1 c).1 = nat ∧
      ∀ result, (nat.translateInboundNAT1To1 c).2 = .ok result →
        ∃ c', result = some c' ∧ c'.tag = c.tag := by
  unfold NetworkAddressTranslator.translateInboundNAT1To1
  split
  · exact ⟨rfl, fun result h => by cases h⟩
  · split
    · exact ⟨rfl, fun result h => by cases h⟩
    · rename_i translated hset
      obtain ⟨addr, -, rfl⟩ := Option.map_eq_some_iff.mp hset
      refine ⟨rfl, fun result h => ?_⟩
      cases h
      exact ⟨_, rfl, by simp⟩

/-- What an outbound translation can return, and what it adds to the history. -/
structure Outbound (nat₀ : NetworkAddressTranslator) (uses' : List Use) (now : Int) (c : Chunk)
    (result : Except Failure (Option Chunk)) : Prop where
  ok : ∀ c', result = .ok (some c') → ∃ external, c' = c.clone.withSource external ∧
    (nat₀.natType.mode = .natModeNormal → ⟨now, c, external⟩ ∈ uses')
  skipped : result = .ok none → nat₀.natType.mode = .natModeNAT1To1
  error : ∀ e, result = .error e → nat₀.natType.mode = .natModeNormal →
    e = NATError.portSpaceExhausted.failure

/-- An outbound chunk adds its use. -/
theorem Follows.outbound (h : Follows nat₀ nat uses now) (c : Chunk) :
    ∃ nat' result uses', nat.translateOutbound now c = some (nat', result) ∧
      Follows nat₀ nat' uses' now ∧ uses ⊆ uses' ∧ Outbound nat₀ uses' now c result := by
  cases hmode : nat₀.natType.mode with
  | natModeNormal =>
    obtain ⟨ip, hip, hrepresents⟩ := h.normal hmode
    obtain ⟨nat', houtbound, h'⟩ := translateOutbound_spec hrepresents c
    refine ⟨nat', _, _, houtbound, ⟨fun _ => ⟨ip, hip, h'⟩, fun hpaired => ?_⟩, ?_, ?_⟩
    · rw [hmode] at hpaired
      cases hpaired
    · simp only [NATType.outbound]
      cases nat₀.natType.assign ip uses now c with
      | none => exact List.Subset.refl uses
      | some external => exact List.subset_cons_self _ _
    · simp only [NATType.outbound]
      cases nat₀.natType.assign ip uses now c with
      | none =>
        refine ⟨fun c' hc' => ?_, fun hnone => ?_, fun e he _ => ?_⟩
        · cases hc'
        · cases hnone
        · cases he
          rfl
      | some external =>
        refine ⟨fun c' hc' => ?_, fun hnone => ?_, fun e he _ => ?_⟩
        · cases hc'
          exact ⟨external, rfl, fun _ => List.mem_cons_self⟩
        · cases hnone
        · cases he
  | natModeNAT1To1 =>
    obtain rfl := h.paired hmode
    refine ⟨nat, (nat.translateOutboundNAT1To1 c).2, uses, ?_, h, List.Subset.refl uses, ?_⟩
    · simp only [NetworkAddressTranslator.translateOutbound, hmode]
      exact congrArg some (Prod.ext (translateOutboundNAT1To1_fst nat c) rfl)
    · refine ⟨fun c' hc' => ?_, fun _ => hmode, fun e _ hnormal => ?_⟩
      · obtain ⟨external, he⟩ := translateOutboundNAT1To1_ok hc'
        refine ⟨external, he, fun hnormal => ?_⟩
        rw [hmode] at hnormal
        cases hnormal
      · rw [hmode] at hnormal
        cases hnormal

/-- An inbound translation returns what the history admits and never skips a chunk. -/
theorem Follows.inbound (h : Follows nat₀ nat uses now) (c : Chunk) :
    Follows nat₀ (nat.translateInbound now c).1 uses now ∧
      (∀ result, (nat.translateInbound now c).2 = .ok result →
        ∃ c', result = some c' ∧ c'.tag = c.tag) ∧
      (nat₀.natType.mode = .natModeNormal →
        (nat.translateInbound now c).2 = nat₀.natType.inbound uses now c) := by
  cases hmode : nat₀.natType.mode with
  | natModeNormal =>
    obtain ⟨ip, hip, hrepresents⟩ := h.normal hmode
    obtain ⟨nat', hinbound, h'⟩ := translateInbound_spec hrepresents c
    rw [hinbound]
    refine ⟨⟨fun _ => ⟨ip, hip, h'⟩, fun hpaired => ?_⟩, fun result hresult => ?_, fun _ => rfl⟩
    · rw [hmode] at hpaired
      cases hpaired
    · obtain ⟨c', hc', -, -, -, htag, -⟩ :=
        (hrepresents.history.admission now c).result result hresult
      exact ⟨c', hc', htag⟩
  | natModeNAT1To1 =>
    obtain rfl := h.paired hmode
    simp only [NetworkAddressTranslator.translateInbound, hmode]
    obtain ⟨hsame, hresult⟩ := translateInboundNAT1To1_spec nat c
    rw [hsame]
    refine ⟨h, hresult, fun hnormal => ?_⟩
    cases hnormal

/-- A mapping of this external address is in the tables and has not expired. -/
def NetworkAddressTranslator.HasMapping (nat : NetworkAddressTranslator) (now : Int)
    (network : Network) (external : Addr) : Prop :=
  ∃ x ∈ nat.deref nat.inboundMap (inboundKey network.string external.string), now ≤ x.2.expires

instance (nat : NetworkAddressTranslator) (now : Int) (network : Network) (external : Addr) :
    Decidable (nat.HasMapping now network external) :=
  inferInstanceAs (Decidable (∃ x ∈ nat.deref nat.inboundMap
    (inboundKey network.string external.string), now ≤ x.2.expires))

/-- A live mapping in the tables is a live binding of the history. -/
theorem Represents.hasBinding {t : NATType} {ip : IPv4} {c : Chunk}
    (h : Represents t ip nat uses now)
    (hmapping : nat.HasMapping now' c.network c.destinationAddr) : t.HasBinding uses now' c := by
  obtain ⟨⟨p, m⟩, hderef, hlive⟩ := hmapping
  obtain ⟨q, hlookup, hm⟩ := Option.bind_eq_some_iff.mp hderef
  obtain ⟨m', hm', he⟩ := Option.map_eq_some_iff.mp hm
  obtain ⟨rfl, rfl⟩ := Prod.mk.inj he
  obtain ⟨m₂, hm₂, hkey, -⟩ := h.indexed.right _ _ hlookup
  obtain rfl : m' = m₂ := Option.some.inj (hm'.symm.trans hm₂)
  obtain ⟨u, hu, hnames, hexpires, -⟩ := (h.records q m' hm').newest
  rw [hnames.iKey_eq] at hkey
  obtain ⟨hnetwork, hexternal⟩ := inboundKey_injective hkey
  rw [hexpires] at hlive
  refine ⟨u, ?_, hlive⟩
  simp only [bindings, List.mem_filter, decide_eq_true_eq]
  exact ⟨hu, hnetwork, hexternal⟩

end Translators

section Locations

variable {rs : Routers} {i k : Nat} {r : Router} {x y : Location}

/-- Where chunks are after one router has changed. -/
theorem Routers.carries_set :
    (rs.set i r).Carries y ↔
      (y.router = i ∧ y ∈ r.locations i) ∨ (y.router ≠ i ∧ rs.Carries y) := by
  unfold Routers.Carries
  by_cases hy : y.router = i
  · rw [hy, Routers.set_self]
    simp
  · rw [Routers.set_ne rs hy]
    simp [hy]

/-- One chunk leaves its location, and possibly arrives at another one. -/
structure Routers.Relocates (rs rs' : Routers) (x : Location) (next : Option Location) : Prop where
  origin : ∀ y, rs'.Carries y → rs.Carries y ∨ next = some y
  others : ∀ y, rs.Carries y → y = x ∨ rs'.Carries y
  target : ∀ y, next = some y → rs'.Carries y

theorem mem_locations_router (h : y ∈ r.locations i) : y.router = i := by
  simp only [Router.locations, List.mem_append, List.mem_map, Option.mem_toList,
    Option.map_eq_some_iff] at h
  rcases h with ⟨c, -, rfl⟩ | ⟨handover, -, rfl⟩
  · rfl
  · cases handover <;> rfl

/-- A change of one router relocates a chunk if it does so inside that router. -/
theorem Routers.relocates_set {next : Option Location}
    (horigin : ∀ y ∈ r.locations i, y ∈ (rs i).locations i ∨ next = some y)
    (hothers : ∀ y ∈ (rs i).locations i, y = x ∨ y ∈ r.locations i)
    (htarget : ∀ y, next = some y → y ∈ r.locations i) : rs.Relocates (rs.set i r) x next := by
  refine ⟨fun y hy => ?_, fun y hy => ?_, fun y hy => ?_⟩
  · rcases carries_set.mp hy with ⟨rfl, hmem⟩ | ⟨-, hcarries⟩
    · exact horigin y hmem
    · exact Or.inl hcarries
  · by_cases hi : y.router = i
    · subst hi
      rcases hothers y hy with he | hmem
      · exact Or.inl he
      · exact Or.inr (carries_set.mpr (Or.inl ⟨rfl, hmem⟩))
    · exact Or.inr (carries_set.mpr (Or.inr ⟨hi, hy⟩))
  · have hmem := htarget y hy
    exact carries_set.mpr (Or.inl ⟨mem_locations_router hmem, hmem⟩)

/-- Taking the head of the queue of an idle router. -/
theorem Routers.relocates_pop {c : Chunk} {rest : List Chunk}
    (hqueue : (rs i).queue.chunks = c :: rest) (hidle : (rs i).pending = none)
    (hrest : r.queue.chunks = rest) :
    rs.Relocates (rs.set i r) ⟨i, .queue, c⟩ (r.pending.map (Handover.location i)) := by
  apply relocates_set
  · intro y hy
    simp only [Router.locations, hqueue, hidle, hrest, List.mem_append, Option.mem_toList,
      List.map_cons, List.mem_cons] at hy ⊢
    rcases hy with hy | hy
    · exact Or.inl (Or.inl (Or.inr hy))
    · exact Or.inr hy
  · intro y hy
    simp only [Router.locations, hqueue, hidle, hrest, List.mem_append, List.map_cons,
      List.mem_cons, Option.map_none, Option.toList_none, List.not_mem_nil, or_false] at hy ⊢
    rcases hy with hy | hy
    · exact Or.inl hy
    · exact Or.inr (Or.inl hy)
  · intro y hy
    simp only [Router.locations, List.mem_append, Option.mem_toList]
    exact Or.inr hy

/-- Completing a call, or going on with the next one. -/
theorem Routers.relocates_setPending {handover : Handover} (h : (rs i).pending = some handover)
    (next : Option Handover) :
    rs.Relocates (rs.setPending i next) (handover.location i)
      (next.map (Handover.location i)) := by
  apply relocates_set
  · intro y hy
    simp only [Router.locations, List.mem_append, Option.mem_toList] at hy ⊢
    rcases hy with hy | hy
    · exact Or.inl (Or.inl hy)
    · exact Or.inr hy
  · intro y hy
    simp only [Router.locations, h, List.mem_append, Option.mem_toList, Option.map_some,
      Option.some.injEq] at hy ⊢
    rcases hy with hy | hy
    · exact Or.inr (Or.inl hy)
    · exact Or.inl hy.symm
  · intro y hy
    simp only [Router.locations, List.mem_append, Option.mem_toList]
    exact Or.inr hy

/-- A translator carries nothing. -/
theorem Routers.carries_setNAT {nat : NetworkAddressTranslator} :
    (rs.setNAT k nat).Carries y ↔ rs.Carries y := by
  unfold Routers.setNAT
  rw [carries_set]
  by_cases hy : y.router = k
  · subst hy
    simp only [true_and, ne_eq, not_true_eq_false, false_and, or_false]
    exact Iff.rfl
  · simp [hy]

theorem Routers.Relocates.of_setNAT {nat : NetworkAddressTranslator} {rs' : Routers}
    {next : Option Location} (h : (rs.setNAT k nat).Relocates rs' x next) :
    rs.Relocates rs' x next :=
  ⟨fun y hy => (h.origin y hy).imp_left carries_setNAT.mp,
    fun y hy => h.others y (carries_setNAT.mpr hy), h.target⟩

/-- A push puts the chunk at the end of the queue, or changes nothing. -/
theorem Router.push_cases (r : Router) (now : Int) (c : Chunk) :
    (∃ queue, r.push now c = ({ r with queue := queue }, true) ∧
      queue.chunks = r.queue.chunks ++ [c.setTimestamp now] ∧
      queue.maxSize = r.queue.maxSize ∧ queue.maxBytes = r.queue.maxBytes) ∨
    (r.push now c = (r, false) ∧ ¬ r.Open) := by
  unfold Router.push ChunkQueue.push Router.Open
  by_cases hstarted : r.started = true
  · rw [if_pos hstarted]
    split
    · rename_i hfull
      refine Or.inr ⟨rfl, fun hopen => ?_⟩
      exact absurd hfull.1 (Int.not_lt.mpr hopen.2.1)
    · split
      · rename_i hbytes
        refine Or.inr ⟨rfl, fun hopen => ?_⟩
        exact absurd hbytes.1 (Int.not_lt.mpr hopen.2.2)
      · exact Or.inl ⟨_, rfl, rfl, rfl, rfl⟩
  · rw [if_neg hstarted]
    exact Or.inr ⟨rfl, fun hopen => hstarted hopen.1⟩

/-- A queued chunk is carried too. -/
theorem Routers.carries_push {queue : ChunkQueue} {c : Chunk}
    (hqueue : queue.chunks = (rs k).queue.chunks ++ [c]) :
    (rs.set k { rs k with queue := queue }).Carries y ↔ rs.Carries y ∨ y = ⟨k, .queue, c⟩ := by
  rw [carries_set]
  by_cases hy : y.router = k
  · subst hy
    simp only [true_and, ne_eq, not_true_eq_false, false_and, or_false, Routers.Carries,
      Router.locations, hqueue, List.map_append, List.map_cons, List.map_nil, List.mem_append,
      List.mem_singleton]
    tauto
  · have hne : y ≠ ⟨k, .queue, c⟩ := fun he => hy (congrArg Location.router he)
    simp [hy, hne]

/-- A chunk that has left arrives. -/
theorem Routers.Relocates.arrive {rs' rs'' : Routers} (h : rs.Relocates rs' x none)
    (hiff : ∀ z, rs''.Carries z ↔ rs'.Carries z ∨ z = y) : rs.Relocates rs'' x (some y) := by
  refine ⟨fun z hz => ?_, fun z hz => ?_, fun z hz => ?_⟩
  · rcases (hiff z).mp hz with hold | rfl
    · rcases h.origin z hold with hcarries | hnone
      · exact Or.inl hcarries
      · cases hnone
    · exact Or.inr rfl
  · exact (h.others z hz).imp_right fun hold => (hiff z).mpr (Or.inl hold)
  · exact (hiff z).mpr (Or.inr (Option.some.inj hz).symm)

end Locations

/-- The ways in which an event moves a chunk, with their outcome and the chunk's next location.
The wiring is that of the network before the run, and `hist'` extends `hist` by the event. -/
inductive Moves (rs₀ : Routers) (hist hist' : Nat → List Use) :
    Event → Location → Outcome → Option Location → Prop
  | blocked {i : Nat} {entered now : Int} {c : Chunk} :
      (rs₀ i).chunkFilters.all (fun filter => filter c) = false →
      Moves rs₀ hist hist' (.process i entered now) ⟨i, .queue, c⟩ (.finished i .blocked c) none
  | unreachable {i : Nat} {entered now : Int} {c : Chunk} :
      (rs₀ i).ipv4Net.contains c.getDestinationIP = true →
      (rs₀ i).nics.lookup c.getDestinationIP.string = none →
      Moves rs₀ hist hist' (.process i entered now) ⟨i, .queue, c⟩ (.finished i .unreachable c) none
  | toNIC {i : Nat} {entered now : Int} {c : Chunk} {nic : NIC} :
      (rs₀ i).ipv4Net.contains c.getDestinationIP = true →
      (rs₀ i).nics.lookup c.getDestinationIP.string = some nic →
      Moves rs₀ hist hist' (.process i entered now) ⟨i, .queue, c⟩ (.routed i c)
        (some ⟨i, .toNIC nic, c⟩)
  | noRoute {i : Nat} {entered now : Int} {c : Chunk} :
      (rs₀ i).ipv4Net.contains c.getDestinationIP = false → (rs₀ i).parent = none →
      Moves rs₀ hist hist' (.process i entered now) ⟨i, .queue, c⟩ (.finished i .noRoute c) none
  | failed {i parent : Nat} {entered now : Int} {c : Chunk} {nat : NetworkAddressTranslator}
      {e : Failure} :
      (rs₀ i).ipv4Net.contains c.getDestinationIP = false → (rs₀ i).parent = some parent →
      (rs₀ i).nat = some nat →
      (nat.natType.mode = .natModeNormal → e = NATError.portSpaceExhausted.failure) →
      Moves rs₀ hist hist' (.process i entered now) ⟨i, .queue, c⟩ (.finished i (.failed e) c) none
  | untranslated {i parent : Nat} {entered now : Int} {c : Chunk}
      {nat : NetworkAddressTranslator} :
      (rs₀ i).ipv4Net.contains c.getDestinationIP = false → (rs₀ i).parent = some parent →
      (rs₀ i).nat = some nat → nat.natType.mode = .natModeNAT1To1 →
      Moves rs₀ hist hist' (.process i entered now) ⟨i, .queue, c⟩ (.finished i .untranslated c)
        none
  | up {i parent : Nat} {entered now : Int} {c : Chunk} {nat : NetworkAddressTranslator}
      {external : Addr} :
      (rs₀ i).ipv4Net.contains c.getDestinationIP = false → (rs₀ i).parent = some parent →
      (rs₀ i).nat = some nat →
      (nat.natType.mode = .natModeNormal → ⟨now, c, external⟩ ∈ hist' i) →
      Moves rs₀ hist hist' (.process i entered now) ⟨i, .queue, c⟩ (.routed i c)
        (some ⟨i, .toRouter parent, c.clone.withSource external⟩)
  | delivered {i host : Nat} {now : Int} {c : Chunk} :
      Moves rs₀ hist hist' (.handOver i now) ⟨i, .toNIC (.host host), c⟩
        (.finished i (.delivered host) c) none
  | refused {i k : Nat} {now : Int} {c : Chunk} {nat : NetworkAddressTranslator} {e : Failure} :
      (rs₀ k).nat = some nat →
      (nat.natType.mode = .natModeNormal → nat.natType.inbound (hist k) now c = .error e) →
      Moves rs₀ hist hist' (.handOver i now) ⟨i, .toNIC (.router k), c⟩
        (.finished i (.refused k e) c) none
  | down {i k : Nat} {now : Int} {c c' : Chunk} {nat : NetworkAddressTranslator} :
      (rs₀ k).nat = some nat →
      (nat.natType.mode = .natModeNormal → nat.natType.inbound (hist k) now c = .ok (some c')) →
      c'.tag = c.tag →
      Moves rs₀ hist hist' (.handOver i now) ⟨i, .toNIC (.router k), c⟩ (.routed i c)
        (some ⟨i, .toRouter k, c'⟩)
  | dropped {i k : Nat} {now : Int} {c : Chunk} :
      ¬ (rs₀ k).Open →
      Moves rs₀ hist hist' (.handOver i now) ⟨i, .toRouter k, c⟩ (.finished i (.dropped k) c) none
  | forwarded {i k : Nat} {now : Int} {c : Chunk} :
      Moves rs₀ hist hist' (.handOver i now) ⟨i, .toRouter k, c⟩ (.forwarded i k c)
        (some ⟨k, .queue, c.setTimestamp now⟩)

/-- What a step does to the locations of chunks. -/
inductive Effect (rs₀ rs rs' : Routers) (hist hist' : Nat → List Use) (ev : Event)
    (o : Outcome) : Prop
  | quiet : rs' = rs → o = .idle → Effect rs₀ rs rs' hist hist' ev o
  | arrived {i : Nat} {now : Int} {c : Chunk} : ev = .push i now c → o = .received i c →
      (∀ y, rs'.Carries y → rs.Carries y ∨ y = ⟨i, .queue, c.setTimestamp now⟩) →
      (∀ y, rs.Carries y → rs'.Carries y) →
      ((rs₀ i).Open → rs'.Carries ⟨i, .queue, c.setTimestamp now⟩) →
      Effect rs₀ rs rs' hist hist' ev o
  | moved {x : Location} {next : Option Location} : rs.Carries x →
      Moves rs₀ hist hist' ev x o next → rs.Relocates rs' x next →
      Effect rs₀ rs rs' hist hist' ev o

/-- The state of a network that started as `rs₀` and whose translators have the histories `hist`. -/
structure Running (rs₀ rs : Routers) (hist : Nat → List Use) (now : Int) : Prop where
  config : ∀ i, SameConfig (rs₀ i) (rs i)
  nat : ∀ i nat₀, (rs₀ i).nat = some nat₀ →
    ∃ nat, (rs i).nat = some nat ∧ Follows nat₀ nat (hist i) now
  handing : ∀ i k c, (rs i).pending = some (.toNIC (.router k) c) → (rs₀ k).parent.isSome

section Runs

variable {rs₀ rs : Routers} {hist : Nat → List Use} {now now' : Int} {i : Nat} {r : Router}

/-- Time may pass. -/
theorem Running.later (h : Running rs₀ rs hist now) (hle : now ≤ now') :
    Running rs₀ rs hist now' := by
  refine { h with nat := fun i nat₀ hnat₀ => ?_ }
  obtain ⟨nat, hnat, hfollows⟩ := h.nat i nat₀ hnat₀
  exact ⟨nat, hnat, hfollows.later hle⟩

/-- Replacing one router by one with the same configuration. -/
theorem Running.set (h : Running rs₀ rs hist now) (uses : List Use)
    (hconfig : SameConfig (rs₀ i) r)
    (hnat : ∀ nat₀, (rs₀ i).nat = some nat₀ →
      ∃ nat, r.nat = some nat ∧ Follows nat₀ nat uses now)
    (hhanding : ∀ k c, r.pending = some (.toNIC (.router k) c) → (rs₀ k).parent.isSome) :
    Running rs₀ (rs.set i r) (Function.update hist i uses) now := by
  refine ⟨fun m => ?_, fun m => ?_, fun m => ?_⟩ <;> by_cases hm : m = i
  · subst hm
    rw [Routers.set_self]
    exact hconfig
  · rw [Routers.set_ne rs hm]
    exact h.config m
  · subst hm
    rw [Routers.set_self, Function.update_self]
    exact hnat
  · rw [Routers.set_ne rs hm, Function.update_of_ne hm]
    exact h.nat m
  · subst hm
    rw [Routers.set_self]
    exact hhanding
  · rw [Routers.set_ne rs hm]
    exact h.handing m

/-- Replacing one router by one with the same configuration and the same translator. -/
theorem Running.set_same (h : Running rs₀ rs hist now) (hconfig : SameConfig (rs₀ i) r)
    (hnat : r.nat = (rs i).nat)
    (hhanding : ∀ k c, r.pending = some (.toNIC (.router k) c) → (rs₀ k).parent.isSome) :
    Running rs₀ (rs.set i r) hist now := by
  have h' := h.set (hist i) hconfig (by rw [hnat]; exact h.nat i) hhanding
  rw [Function.update_eq_self] at h'
  exact h'

/-- Whether a router is open is configured. -/
theorem SameConfig.open_iff {r₀ : Router} (h : SameConfig r₀ r) : r.Open ↔ r₀.Open := by
  unfold Router.Open
  rw [h.started, h.maxSize, h.maxBytes]

/-- A push to a router adds at most one chunk to its queue. -/
theorem Running.push (h : Running rs₀ rs hist now) (i : Nat) (c : Chunk) :
    Running rs₀ (rs.set i ((rs i).push now c).1) hist now ∧
      ((((rs i).push now c).2 = true ∧
        ∀ y, (rs.set i ((rs i).push now c).1).Carries y ↔
          rs.Carries y ∨ y = ⟨i, .queue, c.setTimestamp now⟩) ∨
      (((rs i).push now c).2 = false ∧ rs.set i ((rs i).push now c).1 = rs ∧
        ¬ (rs₀ i).Open)) := by
  have hconfig := h.config i
  rcases (rs i).push_cases now c with ⟨queue, hpush, hchunks, hsize, hbytes⟩ | ⟨hpush, hclosed⟩
  · rw [hpush]
    refine ⟨h.set_same ?_ rfl (h.handing i), Or.inl ⟨rfl, fun y => Routers.carries_push hchunks⟩⟩
    exact { hconfig with
      maxSize := hsize.trans hconfig.maxSize, maxBytes := hbytes.trans hconfig.maxBytes }
  · rw [hpush]
    have hsame : rs.set i (rs i) = rs := Function.update_eq_self i rs
    rw [hsame]
    exact ⟨h, Or.inr ⟨rfl, rfl, fun hopen => hclosed (hconfig.open_iff.mpr hopen)⟩⟩

/-- Handing over keeps the invariant. -/
theorem Running.setPending (h : Running rs₀ rs hist now) (i : Nat) (next : Option Handover)
    (hhanding : ∀ k c, next = some (.toNIC (.router k) c) → (rs₀ k).parent.isSome) :
    Running rs₀ (rs.setPending i next) hist now :=
  h.set_same { h.config i with } rfl hhanding

/-- A translator that follows its uses keeps the invariant. -/
theorem Running.setNAT (h : Running rs₀ rs hist now) {k : Nat}
    {nat₀ nat : NetworkAddressTranslator} (hnat₀ : (rs₀ k).nat = some nat₀)
    (hfollows : Follows nat₀ nat (hist k) now) : Running rs₀ (rs.setNAT k nat) hist now := by
  have h' := h.set (hist k) (r := { rs k with nat := some nat }) { h.config k with }
    (fun nat₁ hnat₁ => ⟨nat, rfl, Option.some.inj (hnat₀.symm.trans hnat₁) ▸ hfollows⟩)
    (h.handing k)
  rw [Function.update_eq_self] at h'
  exact h'

theorem pending_setNAT (rs : Routers) (k i : Nat) (nat : NetworkAddressTranslator) :
    (rs.setNAT k nat i).pending = (rs i).pending := by
  unfold Routers.setNAT
  by_cases hi : i = k
  · rw [hi, Routers.set_self]
  · rw [Routers.set_ne rs hi]

/-- The invariant of a router's translator. -/
def Translates (r₀ r : Router) (uses : List Use) (now : Int) : Prop :=
  ∀ nat₀, r₀.nat = some nat₀ → ∃ nat, r.nat = some nat ∧ Follows nat₀ nat uses now

/-- The moves of a chunk that is routed, when the translator has the history `uses` afterwards. -/
def Routed (rs₀ : Routers) (i : Nat) (now : Int) (c : Chunk) (uses : List Use) :
    Except Fate Handover → Prop
  | .error fate => ∀ hist hist' entered, hist' i = uses →
    Moves rs₀ hist hist' (.process i entered now) ⟨i, .queue, c⟩ (.finished i fate c) none
  | .ok handover => (∀ hist hist' entered, hist' i = uses →
    Moves rs₀ hist hist' (.process i entered now) ⟨i, .queue, c⟩ (.routed i c)
      (some (handover.location i))) ∧
    ∀ k c, handover = .toNIC (.router k) c → (rs₀ k).parent.isSome

/-- Routing a chunk never panics in a wired network, and moves it. -/
theorem route_moves (hwired : Routers.Wired rs₀) (hconfig : SameConfig (rs₀ i) r)
    {uses : List Use} (hnat : Translates (rs₀ i) r uses now) (c : Chunk) :
    ∃ r' result uses', r.route now c = some (r', result) ∧ SameConfig (rs₀ i) r' ∧
      Translates (rs₀ i) r' uses' now ∧ uses ⊆ uses' ∧ r'.queue = r.queue ∧
      r'.pending = r.pending ∧ Routed rs₀ i now c uses' result := by
  unfold Router.route
  rw [hconfig.chunkFilters, hconfig.ipv4Net, hconfig.nics, hconfig.parent]
  by_cases hfilters : (rs₀ i).chunkFilters.all (fun filter => filter c) = true
  · rw [if_neg (not_not.mpr hfilters)]
    by_cases hinside : (rs₀ i).ipv4Net.contains c.getDestinationIP = true
    · rw [if_pos hinside]
      cases hlookup : (rs₀ i).nics.lookup c.getDestinationIP.string with
      | none =>
        exact ⟨r, _, uses, rfl, hconfig, hnat, List.Subset.refl uses, rfl, rfl,
          fun _ _ _ _ => .unreachable hinside hlookup⟩
      | some nic =>
        refine ⟨r, _, uses, rfl, hconfig, hnat, List.Subset.refl uses, rfl, rfl,
          fun _ _ _ _ => .toNIC hinside hlookup, fun k c' he => ?_⟩
        cases he
        exact hwired.child i _ k hlookup
    · rw [if_neg hinside]
      have houtside := Bool.eq_false_iff.mpr hinside
      cases hparent : (rs₀ i).parent with
      | none =>
        exact ⟨r, _, uses, rfl, hconfig, hnat, List.Subset.refl uses, rfl, rfl,
          fun _ _ _ _ => .noRoute houtside hparent⟩
      | some parent =>
        obtain ⟨config, nat₀, ip, hattached⟩ := hwired.attached i parent hparent
        obtain ⟨nat, hn, hfollows⟩ := hnat nat₀ hattached.nat_eq
        obtain ⟨nat', result, uses', htranslate, hfollows', hsub, hout⟩ := hfollows.outbound c
        have hnat' : ∀ halted, Translates (rs₀ i) { r with nat := some nat', halted := halted }
            uses' now := by
          intro halted nat₁ hnat₁
          rw [hattached.nat_eq] at hnat₁
          cases hnat₁
          exact ⟨nat', rfl, hfollows'⟩
        have hconfig' : ∀ halted, SameConfig (rs₀ i)
            { r with
              ipv4Net := (rs₀ i).ipv4Net, parent := some parent, nat := some nat'
              nics := (rs₀ i).nics, chunkFilters := (rs₀ i).chunkFilters, halted := halted } :=
          fun _ => ⟨rfl, rfl, hparent.symm, rfl, hconfig.started, hconfig.maxSize,
            hconfig.maxBytes⟩
        simp only [hn, htranslate]
        cases result with
        | error e =>
          exact ⟨_, _, uses', rfl, hconfig' _, hnat' true, hsub, rfl, rfl,
            fun _ _ _ _ => .failed houtside hparent hattached.nat_eq (hout.error e rfl)⟩
        | ok result =>
          cases result with
          | none =>
            exact ⟨_, _, uses', rfl, hconfig' _, hnat' r.halted, hsub, rfl, rfl,
              fun _ _ _ _ => .untranslated houtside hparent hattached.nat_eq (hout.skipped rfl)⟩
          | some c' =>
            obtain ⟨external, rfl, hmem⟩ := hout.ok c' rfl
            refine ⟨_, _, uses', rfl, hconfig' _, hnat' r.halted, hsub, rfl, rfl,
              fun _ _ _ hhist => .up houtside hparent hattached.nat_eq (hhist ▸ hmem),
              fun k c' he => ?_⟩
            cases he
  · rw [if_pos hfilters]
    exact ⟨r, _, uses, rfl, hconfig, hnat, List.Subset.refl uses, rfl, rfl,
      fun _ _ _ _ => .blocked (Bool.eq_false_iff.mpr hfilters)⟩

/-- A step succeeds, keeps the invariant, extends the histories and moves at most one chunk. -/
def Proceeds (rs₀ rs : Routers) (hist : Nat → List Use) (ev : Event) : Prop :=
  ∃ rs' o hist', rs.step ev = some (rs', o) ∧ Running rs₀ rs' hist' ev.time ∧
    (∀ i, hist i ⊆ hist' i) ∧ Effect rs₀ rs rs' hist hist' ev o

/-- What a push does. -/
theorem proceeds_push (h : Running rs₀ rs hist now) (i : Nat) (c : Chunk) :
    Proceeds rs₀ rs hist (.push i now c) := by
  obtain ⟨hrunning, heffect⟩ := h.push i c
  refine ⟨_, _, hist, rfl, hrunning, fun _ => List.Subset.refl _, ?_⟩
  rcases heffect with ⟨-, hcarries⟩ | ⟨-, hsame, hclosed⟩
  · exact .arrived rfl rfl (fun y hy => (hcarries y).mp hy)
      (fun y hy => (hcarries y).mpr (Or.inl hy)) fun _ => (hcarries _).mpr (Or.inr rfl)
  · refine .arrived rfl rfl (fun y hy => Or.inl ?_) (fun y hy => ?_)
      fun hopen => absurd hopen hclosed
    · rw [hsame] at hy
      exact hy
    · rw [hsame]
      exact hy

/-- An idle step does nothing. -/
theorem proceeds_idle (h : Running rs₀ rs hist now) {ev : Event}
    (hstep : rs.step ev = some (rs, .idle)) (htime : ev.time = now) : Proceeds rs₀ rs hist ev :=
  ⟨rs, .idle, hist, hstep, htime ▸ h, fun _ => List.Subset.refl _, .quiet rfl rfl⟩

/-- What processing a chunk does. -/
theorem proceeds_process (hwired : Routers.Wired rs₀) (h : Running rs₀ rs hist now) (i : Nat)
    (entered : Int) : Proceeds rs₀ rs hist (.process i entered now) := by
  have hidle : rs.process i entered now = some (rs, .idle) →
      Proceeds rs₀ rs hist (.process i entered now) := fun hstep => proceeds_idle h hstep rfl
  by_cases hbusy : ¬ (rs i).started ∨ (rs i).halted ∨ (rs i).pending.isSome
  · exact hidle (by rw [Routers.process, if_pos hbusy])
  cases hchunks : (rs i).queue.chunks with
  | nil =>
    apply hidle
    rw [Routers.process, if_neg hbusy, ChunkQueue.peek, hchunks]
    rfl
  | cons c rest =>
    have hpending : (rs i).pending = none := by
      cases hp : (rs i).pending with
      | none => rfl
      | some handover => exact absurd (Or.inr (Or.inr (by rw [hp]; rfl))) hbusy
    by_cases hdue : c.getTimestamp > entered - (rs i).minDelay
    · apply hidle
      simp only [Routers.process, if_neg hbusy, ChunkQueue.peek, hchunks, List.head?_cons,
        if_pos hdue]
    obtain ⟨r, result, uses, hroute, hconfig, hnat, hsub, hqueue, hpending', hmoves⟩ :=
      route_moves hwired (r := { rs i with queue :=
        { (rs i).queue with
          chunks := rest
          currentBytes := (rs i).queue.currentBytes - c.userData.length } })
        { h.config i with } (h.nat i) c
    have hstep : rs.process i entered now = match result with
        | .error fate => some (rs.set i r, .finished i fate c)
        | .ok handover =>
          some (rs.set i { r with pending := some handover }, .routed i c) := by
      simp only [Routers.process, if_neg hbusy, ChunkQueue.peek, ChunkQueue.pop, hchunks,
        List.head?_cons, if_neg hdue, hroute]
      cases result <;> rfl
    have hgrow : ∀ m, hist m ⊆ Function.update hist i uses m := by
      intro m
      by_cases hm : m = i
      · subst hm
        rw [Function.update_self]
        exact hsub
      · rw [Function.update_of_ne hm]
        exact List.Subset.refl _
    have hcarries : rs.Carries ⟨i, .queue, c⟩ := by
      simp [Routers.Carries, Router.locations, hchunks]
    cases result with
    | error fate =>
      have hnone : r.pending = none := hpending'.trans hpending
      refine ⟨_, _, _, hstep, h.set uses hconfig hnat fun k c' hp => ?_, hgrow,
        .moved hcarries (hmoves hist _ entered (Function.update_self ..)) ?_⟩
      · rw [hnone] at hp
        cases hp
      · have hpop := Routers.relocates_pop hchunks hpending (congrArg ChunkQueue.chunks hqueue)
        rw [hnone] at hpop
        exact hpop
    | ok handover =>
      refine ⟨_, _, _, hstep, h.set uses { hconfig with } hnat fun k c' hp => ?_, hgrow,
        .moved hcarries (hmoves.1 hist _ entered (Function.update_self ..)) ?_⟩
      · exact hmoves.2 k c' (Option.some.inj hp)
      · exact Routers.relocates_pop hchunks hpending (congrArg ChunkQueue.chunks hqueue)

/-- What a hand-over does. -/
theorem proceeds_handOver (hwired : Routers.Wired rs₀) (h : Running rs₀ rs hist now) (i : Nat) :
    Proceeds rs₀ rs hist (.handOver i now) := by
  have hcarries : ∀ handover, (rs i).pending = some handover →
      rs.Carries (handover.location i) := by
    intro handover hp
    have hrouter : (handover.location i).router = i := by cases handover <;> rfl
    simp [Routers.Carries, hrouter, Router.locations, hp]
  cases hpending : (rs i).pending with
  | none =>
    exact proceeds_idle h (by simp only [Routers.step, Routers.handOver, hpending]) rfl
  | some handover =>
    have hrelease : Running rs₀ (rs.setPending i none) hist now := by
      refine h.setPending i none fun k c hp => ?_
      cases hp
    cases handover with
    | toNIC nic c =>
      cases nic with
      | host host =>
        refine ⟨rs.setPending i none, .finished i (.delivered host) c, hist, ?_, hrelease,
          fun _ => List.Subset.refl _, .moved (hcarries _ hpending) .delivered
            (Routers.relocates_setPending hpending none)⟩
        simp only [Routers.step, Routers.handOver, hpending]
      | router k =>
        obtain ⟨parent, hparent⟩ := Option.isSome_iff_exists.mp (h.handing i k c hpending)
        obtain ⟨config, nat₀, ip, hattached⟩ := hwired.attached k parent hparent
        obtain ⟨nat, hnat, hfollows⟩ := h.nat k nat₀ hattached.nat_eq
        obtain ⟨hfollows', hok, hnormal⟩ := hfollows.inbound c
        cases htranslate : nat.translateInbound now c with
        | mk nat' result =>
          rw [htranslate] at hfollows' hok hnormal
          have hrunning := h.setNAT hattached.nat_eq hfollows'
          have hpending' : (rs.setNAT k nat' i).pending = some (.toNIC (.router k) c) :=
            (pending_setNAT rs k i nat').trans hpending
          cases result with
          | error e =>
            refine ⟨_, .finished i (.refused k e) c, hist, ?_,
              hrunning.setPending i none fun k c hp => ?_, fun _ => List.Subset.refl _,
              .moved (hcarries _ hpending)
                (.refused hattached.nat_eq fun hmode => (hnormal hmode).symm)
                (Routers.relocates_setPending hpending' none).of_setNAT⟩
            · simp only [Routers.step, Routers.handOver, hpending, hnat, htranslate]
            · cases hp
          | ok result =>
            obtain ⟨c', rfl, htag⟩ := hok result rfl
            refine ⟨_, .routed i c, hist, ?_,
              hrunning.setPending i (some (.toRouter k c')) fun k c hp => ?_,
              fun _ => List.Subset.refl _, .moved (hcarries _ hpending)
                (.down hattached.nat_eq (fun hmode => (hnormal hmode).symm) htag)
                (Routers.relocates_setPending hpending' _).of_setNAT⟩
            · simp only [Routers.step, Routers.handOver, hpending, hnat, htranslate]
            · cases hp
    | toRouter k c =>
      obtain ⟨hrunning, heffect⟩ := hrelease.push k c
      have hmoved := Routers.relocates_setPending hpending none
      cases hpush : (rs.setPending i none k).push now c with
      | mk r taken =>
        rw [hpush] at hrunning heffect
        rcases heffect with ⟨htaken, hiff⟩ | ⟨htaken, hsame, hclosed⟩
        · obtain rfl : taken = true := htaken
          refine ⟨_, .forwarded i k c, hist, ?_, hrunning, fun _ => List.Subset.refl _,
            .moved (hcarries _ hpending) .forwarded (hmoved.arrive hiff)⟩
          simp only [Routers.step, Routers.handOver, hpending, hpush]
        · obtain rfl : taken = false := htaken
          have hsame : (rs.setPending i none).set k r = rs.setPending i none := hsame
          refine ⟨_, .finished i (.dropped k) c, hist, ?_, hrunning, fun _ => List.Subset.refl _,
            .moved (hcarries _ hpending) (.dropped hclosed) ?_⟩
          · simp only [Routers.step, Routers.handOver, hpending, hpush]
          · rw [hsame]
            exact hmoved

/-- Every step of a wired network proceeds. -/
theorem Running.proceeds (hwired : Routers.Wired rs₀) (h : Running rs₀ rs hist now) (ev : Event)
    (hle : now ≤ ev.time) : Proceeds rs₀ rs hist ev := by
  cases ev with
  | push i time c => exact proceeds_push (h.later hle) i c
  | process i entered time => exact proceeds_process hwired (h.later hle) i entered
  | handOver i time => exact proceeds_handOver hwired (h.later hle) i

/-- A network that was just built is running. -/
theorem Routers.Wired.running (h : Routers.Wired rs₀) (now : Int) :
    Running rs₀ rs₀ (fun _ => []) now := by
  refine ⟨fun i => ⟨rfl, rfl, rfl, rfl, rfl, rfl, rfl⟩, fun i nat₀ hnat₀ => ?_, fun i k c hp => ?_⟩
  · cases hparent : (rs₀ i).parent with
    | none =>
      rw [h.orphan i hparent] at hnat₀
      cases hnat₀
    | some parent =>
      obtain ⟨config, nat, ip, hattached⟩ := h.attached i parent hparent
      obtain rfl : nat₀ = nat := Option.some.inj (hnat₀.symm.trans hattached.nat_eq)
      exact ⟨nat₀, hnat₀, newNAT_follows hattached.new hattached.mapped now⟩
  · rw [(h.resting i).2] at hp
    cases hp

end Runs

end PionTransport.Vnet
