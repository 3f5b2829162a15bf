import PionTransport.Vnet.Itinerary

/-!
# Replies cross nested routers

The chunk of a host that climbs through nested translators has one itinerary, the
reply that descends through the same translators another. Both lead to a host, as long
as the routers between the hosts keep running and none of them lacks a port.
-/

namespace PionTransport.Vnet

open PionTransport.Core

/-- A chain of routers from `R 0` down to `R k`, each attached to the one before, with
one host at `R k` and another at `R j`. The subnets below `R j` do not contain the second host. -/
structure Path (rs₀ : Routers) where
  R : Nat → Nat
  j : Nat
  k : Nat
  hostA : Nat
  hostB : Nat
  source : Addr
  remote : Addr
  lt : j < k
  parent : ∀ i < k, (rs₀ (R (i + 1))).parent = some (R i)
  accepts : ∀ i ≤ k, (rs₀ (R i)).Open
  passes : ∀ i ≤ k, ∀ filter ∈ (rs₀ (R i)).chunkFilters, ∀ c, filter c = true
  normal : ∀ i ≤ k, ∀ nat, (rs₀ (R i)).nat = some nat → nat.natType.mode = .natModeNormal
  attachedA : (rs₀ (R k)).nics.lookup source.ip.string = some (.host hostA)
  attachedB : (rs₀ (R j)).nics.lookup remote.ip.string = some (.host hostB)
  outside : ∀ i, j < i → i ≤ k → (rs₀ (R i)).ipv4Net.contains remote.ip = false

namespace Path

variable {rs₀ : Routers} (p : Path rs₀)

/-- The addresses under which the flow from `source` to `remote` was seen above each router. -/
structure Trail (hist : Nat → List Use) (addr : Nat → Addr) (i : Nat) : Prop where
  start : addr p.k = p.source
  uses : ∀ m, i ≤ m → m < p.k → ∃ u ∈ hist (p.R (m + 1)), u.chunk.network = .udp ∧
    u.chunk.sourceAddr = addr (m + 1) ∧ u.chunk.destinationAddr = p.remote ∧
    u.external = addr m

variable {hist hist' : Nat → List Use} {i n : Nat}

theorem Trail.mono {p : Path rs₀} {addr : Nat → Addr} (h : p.Trail hist addr i)
    (hgrow : ∀ i, hist i ⊆ hist' i) : p.Trail hist' addr i := by
  refine ⟨h.start, fun m him hmk => ?_⟩
  obtain ⟨u, hu, hfacts⟩ := h.uses m him hmk
  exact ⟨u, hgrow _ hu, hfacts⟩

/-- The trail grows by the router that translated last. -/
theorem Trail.extend {p : Path rs₀} {addr : Nat → Addr} {m : Nat} (h : p.Trail hist addr (m + 1))
    (hgrow : ∀ i, hist i ⊆ hist' i) (hm : m < p.k) {u : Use} (hu : u ∈ hist' (p.R (m + 1)))
    (hnetwork : u.chunk.network = .udp) (hsource : u.chunk.sourceAddr = addr (m + 1))
    (hdest : u.chunk.destinationAddr = p.remote) :
    p.Trail hist' (Function.update addr m u.external) m := by
  refine ⟨?_, fun n hmn hnk => ?_⟩
  · rw [Function.update_of_ne (Nat.ne_of_gt hm)]
    exact h.start
  · have hsucc : n + 1 ≠ m := Nat.ne_of_gt (Nat.lt_succ_of_le hmn)
    rw [Function.update_of_ne hsucc]
    by_cases he : n = m
    · subst he
      rw [Function.update_self]
      exact ⟨u, hu, hnetwork, hsource, hdest, rfl⟩
    · rw [Function.update_of_ne he]
      obtain ⟨v, hv, hfacts⟩ := h.uses n (Nat.lt_of_le_of_ne hmn (Ne.symm he)) hnk
      exact ⟨v, hgrow _ hv, hfacts⟩

/-- The places of the chunk from `source` to `remote`, when `R i` is the next to process it, with
the moves that it has left. -/
inductive Climbing (i : Nat) : Nat → Nat → Place → Prop
  | queued : Climbing i (2 * (i - p.j) + 2) (p.R i) .queue
  | handed : i < p.k → Climbing i (2 * (i - p.j) + 3) (p.R (i + 1)) (.toRouter (p.R i))
  | arriving : i = p.j → Climbing i (2 * (i - p.j) + 1) (p.R p.j) (.toNIC (.host p.hostB))

/-- Where the chunk from `source` to `remote` may be. -/
def Outgoing (userData : List UInt8) (n : Nat) (hist : Nat → List Use) (x : Location) : Prop :=
  x.chunk.network = .udp ∧ x.chunk.destinationAddr = p.remote ∧ x.chunk.userData = userData ∧
    ∃ i addr, p.j ≤ i ∧ i ≤ p.k ∧ p.Trail hist addr i ∧ x.chunk.sourceAddr = addr i ∧
      p.Climbing i n x.router x.place

/-- How the chunk from `source` to `remote` may end: at the remote host, or for want of a port. -/
def OutgoingEnds (userData : List UInt8) (hist : Nat → List Use) (r : Nat) (fate : Fate)
    (d : Chunk) : Prop :=
  (r = p.R p.j ∧ fate = .delivered p.hostB ∧ d.userData = userData ∧
    d.destinationAddr = p.remote ∧ ∃ addr, p.Trail hist addr p.j ∧ d.sourceAddr = addr p.j) ∨
  ∃ m, p.j < m ∧ m ≤ p.k ∧ r = p.R m ∧ fate = .failed NATError.portSpaceExhausted.failure

theorem passes_all (hi : i ≤ p.k) (c : Chunk) :
    (rs₀ (p.R i)).chunkFilters.all (fun filter => filter c) = true :=
  List.all_eq_true.mpr fun filter hfilter => p.passes i hi filter hfilter c

theorem inside_remote (hwired : Routers.Wired rs₀) :
    (rs₀ (p.R p.j)).ipv4Net.contains p.remote.ip = true :=
  hwired.inside _ _ _ p.attachedB

/-- The subnet of `R i` contains the remote host exactly at the host's own router. -/
theorem contains_remote_iff (hwired : Routers.Wired rs₀) (hj : p.j ≤ i) (hk : i ≤ p.k) :
    (rs₀ (p.R i)).ipv4Net.contains p.remote.ip = true ↔ i = p.j := by
  constructor
  · intro hinside
    by_contra hne
    rw [p.outside i (Nat.lt_of_le_of_ne hj (Ne.symm hne)) hk] at hinside
    cases hinside
  · rintro rfl
    exact p.inside_remote hwired

/-- A router below the remote host's translates what is sent to it. -/
theorem parent_of_outside (hwired : Routers.Wired rs₀) (hj : p.j ≤ i) (hk : i ≤ p.k)
    (houtside : (rs₀ (p.R i)).ipv4Net.contains p.remote.ip = false) :
    ∃ m, i = m + 1 ∧ p.j ≤ m ∧ (rs₀ (p.R (m + 1))).parent = some (p.R m) := by
  have hne : i ≠ p.j := by
    intro he
    rw [(p.contains_remote_iff hwired hj hk).mpr he] at houtside
    cases houtside
  cases i with
  | zero => exact absurd (Nat.le_zero.mp hj).symm hne
  | succ m =>
    exact ⟨m, rfl, Nat.le_of_lt_succ (Nat.lt_of_le_of_ne hj (Ne.symm hne)), p.parent m hk⟩

variable {userData : List UInt8} {ev : Event} {x : Location}

theorem outgoing_move (hwired : Routers.Wired rs₀) {y : Location} {o : Outcome}
    (hgrow : ∀ i, hist i ⊆ hist' i) (h : p.Outgoing userData n hist x)
    (hmoves : Moves rs₀ hist hist' ev x o (some y)) : ∃ m < n, p.Outgoing userData m hist' y := by
  obtain ⟨hnetwork, hdest, hdata, i, addr, hj, hk, htrail, hsource, hplace⟩ := h
  cases hmoves with
  | toNIC hinside hlookup =>
    cases hplace
    rw [Chunk.getDestinationIP, hdest] at hinside hlookup
    obtain rfl := (p.contains_remote_iff hwired hj hk).mp hinside
    rw [p.attachedB] at hlookup
    cases hlookup
    exact ⟨_, Nat.lt_succ_self _, hnetwork, hdest, hdata, p.j, addr, hj, hk, htrail.mono hgrow,
      hsource, .arriving rfl⟩
  | @up r parent entered now c nat external houtside hparent hnat hmem =>
    cases hplace
    rw [Chunk.getDestinationIP, hdest] at houtside
    obtain ⟨m, rfl, hjm, hm⟩ := p.parent_of_outside hwired hj hk houtside
    rw [hm] at hparent
    cases hparent
    have hmem := hmem (p.normal _ hk nat hnat)
    refine ⟨_, by omega, by simpa using hnetwork, by simpa using hdest, by simpa using hdata, m, _,
      hjm, Nat.le_of_succ_le hk, htrail.extend hgrow hk hmem hnetwork hsource hdest, ?_, .handed hk⟩
    rw [Function.update_self]
    simp
  | down hnat hinbound htag => cases hplace
  | forwarded =>
    cases hplace
    exact ⟨_, Nat.lt_succ_self _, by simpa using hnetwork, by simpa using hdest,
      by simpa using hdata, i, addr, hj, hk, htrail.mono hgrow, by simpa using hsource, .queued⟩

theorem outgoing_finish (hwired : Routers.Wired rs₀) {r : Nat} {fate : Fate}
    (hgrow : ∀ i, hist i ⊆ hist' i) (h : p.Outgoing userData n hist x)
    (hmoves : Moves rs₀ hist hist' ev x (.finished r fate x.chunk) none) :
    p.OutgoingEnds userData hist' r fate x.chunk := by
  obtain ⟨hnetwork, hdest, hdata, i, addr, hj, hk, htrail, hsource, hplace⟩ := h
  cases hmoves with
  | blocked hfilters =>
    cases hplace
    rw [p.passes_all hk] at hfilters
    cases hfilters
  | unreachable hinside hlookup =>
    cases hplace
    rw [Chunk.getDestinationIP, hdest] at hinside hlookup
    obtain rfl := (p.contains_remote_iff hwired hj hk).mp hinside
    rw [p.attachedB] at hlookup
    cases hlookup
  | noRoute houtside hparent =>
    cases hplace
    rw [Chunk.getDestinationIP, hdest] at houtside
    obtain ⟨m, rfl, -, hm⟩ := p.parent_of_outside hwired hj hk houtside
    rw [hm] at hparent
    cases hparent
  | @failed _ parent entered now c nat e houtside hparent hnat he =>
    cases hplace
    rw [Chunk.getDestinationIP, hdest] at houtside
    obtain ⟨m, rfl, hjm, -⟩ := p.parent_of_outside hwired hj hk houtside
    exact Or.inr ⟨m + 1, Nat.lt_succ_of_le hjm, hk, rfl, by rw [he (p.normal _ hk nat hnat)]⟩
  | @untranslated _ parent entered now c nat houtside hparent hnat hmode =>
    cases hplace
    rw [Chunk.getDestinationIP, hdest] at houtside
    obtain ⟨m, rfl, -, -⟩ := p.parent_of_outside hwired hj hk houtside
    rw [p.normal _ hk nat hnat] at hmode
    cases hmode
  | delivered =>
    cases hplace with
    | arriving he =>
      subst he
      exact Or.inl ⟨rfl, rfl, hdata, hdest, addr, htrail.mono hgrow, hsource⟩
  | refused hnat hinbound => cases hplace
  | dropped hclosed =>
    cases hplace
    exact absurd (p.accepts i hk) hclosed

/-- The chunk climbs to the remote host's router and reaches the host, unless a router on the way
has no port left. -/
theorem outgoing_itinerary (hwired : Routers.Wired rs₀) (tag : String) (userData : List UInt8) :
    Itinerary rs₀ tag (fun _ _ => True) (p.Outgoing userData) (p.OutgoingEnds userData) where
  mono := by
    rintro n hist hist' x hgrow ⟨hnetwork, hdest, hdata, i, addr, hj, hk, htrail, hrest⟩
    exact ⟨hnetwork, hdest, hdata, i, addr, hj, hk, htrail.mono hgrow, hrest⟩
  ends_mono := by
    rintro hist hist' r fate d hgrow (⟨hr, hfate, hdata, hdest, addr, htrail, hsource⟩ | hfailed)
    · exact Or.inl ⟨hr, hfate, hdata, hdest, addr, htrail.mono hgrow, hsource⟩
    · exact Or.inr hfailed
  move := fun _ _ _ _ _ _ _ _ _ _ _ _ hgrow _ _ h hmoves => p.outgoing_move hwired hgrow h hmoves
  finish := fun _ _ _ _ _ _ _ _ _ _ _ _ hgrow _ _ h hmoves =>
    p.outgoing_finish hwired hgrow h hmoves

/-- The places of the reply, when its destination is what `R i` knows the flow by, with the moves
that it has left. -/
inductive Descending (i : Nat) : Nat → Nat → Place → Prop
  | queued : Descending i (3 * (p.k - i) + 2) (p.R i) .queue
  | handing : i < p.k →
      Descending i (3 * (p.k - i) + 1) (p.R i) (.toNIC (.router (p.R (i + 1))))
  | arriving : i = p.k → Descending i (3 * (p.k - i) + 1) (p.R p.k) (.toNIC (.host p.hostA))
  | handed {m : Nat} : p.j ≤ m → i = m + 1 →
      Descending i (3 * (p.k - i) + 3) (p.R m) (.toRouter (p.R (m + 1)))

/-- Where the reply may be. -/
def Incoming (addr : Nat → Addr) (userData : List UInt8) (n : Nat) (hist : Nat → List Use)
    (x : Location) : Prop :=
  p.Trail hist addr p.j ∧ x.chunk.network = .udp ∧ x.chunk.sourceAddr = p.remote ∧
    x.chunk.userData = userData ∧ ∃ i, p.j ≤ i ∧ i ≤ p.k ∧ x.chunk.destinationAddr = addr i ∧
      p.Descending i n x.router x.place

/-- How the reply may end: at the host that the flow came from. -/
def IncomingEnds (userData : List UInt8) (r : Nat) (fate : Fate) (d : Chunk) : Prop :=
  r = p.R p.k ∧ fate = .delivered p.hostA ∧ d.userData = userData ∧ d.sourceAddr = p.remote ∧
    d.destinationAddr = p.source

/-- A chunk of the tag that is handed to a router is sent to a mapping that is alive. -/
def HandoverAlive (tag : String) (rs : Routers) (now : Int) : Handover → Prop
  | .toNIC (.router r) c => c.tag = tag →
    ∀ nat ∈ (rs r).nat, nat.HasMapping now c.network c.destinationAddr
  | .toNIC (.host _) _ => True
  | .toRouter _ _ => True

instance (tag : String) (rs : Routers) (now : Int) :
    ∀ handover, Decidable (HandoverAlive tag rs now handover)
  | .toNIC (.router r) c => inferInstanceAs (Decidable (c.tag = tag →
      ∀ nat ∈ (rs r).nat, nat.HasMapping now c.network c.destinationAddr))
  | .toNIC (.host _) _ => isTrue trivial
  | .toRouter _ _ => isTrue trivial

/-- Whenever a chunk of the tag is handed to a router, the mapping it is sent to is alive. -/
def MappingsAlive (tag : String) (rs : Routers) : Event → Prop
  | .handOver i now => ∀ handover ∈ (rs i).pending, HandoverAlive tag rs now handover
  | .push .. => True
  | .process .. => True

instance (tag : String) (rs : Routers) : ∀ ev, Decidable (MappingsAlive tag rs ev)
  | .handOver i now => inferInstanceAs
      (Decidable (∀ handover ∈ (rs i).pending, HandoverAlive tag rs now handover))
  | .push .. => isTrue trivial
  | .process .. => isTrue trivial

variable {rs : Routers} {hist : Nat → List Use} {now : Int} {addr : Nat → Addr}

/-- Every router routes the flow's address one router down, and the last one to the host. -/
theorem next_hop (hwired : Routers.Wired rs₀) (h : Running rs₀ rs hist now)
    (htrail : p.Trail hist addr p.j) (hj : p.j ≤ i) (hk : i ≤ p.k) :
    (rs₀ (p.R i)).ipv4Net.contains (addr i).ip = true ∧
      ∃ nic, (rs₀ (p.R i)).nics.lookup (addr i).ip.string = some nic ∧
        p.Descending i (3 * (p.k - i) + 1) (p.R i) (.toNIC nic) := by
  rcases Nat.lt_or_eq_of_le hk with hlt | rfl
  · obtain ⟨u, hu, -, -, -, hexternal⟩ := htrail.uses i hj hlt
    obtain ⟨config, nat₀, ip, hattached⟩ := hwired.attached _ _ (p.parent i hlt)
    obtain ⟨nat, -, hfollows⟩ := h.nat _ nat₀ hattached.nat_eq
    obtain ⟨ip', hip', hrepresents⟩ := hfollows.normal (p.normal _ hlt nat₀ hattached.nat_eq)
    have hmapped : nat₀.mappedIPs[0]? = some ip := by
      rw [newNAT_mappedIPs hattached.new]
      exact hattached.mapped
    obtain rfl : ip' = ip := Option.some.inj (hip'.symm.trans hmapped)
    have haddr : (addr i).ip = ip' := by
      rw [← hexternal]
      exact (hrepresents.history.port_range hu).1
    rw [haddr]
    exact ⟨hattached.inside, _, hattached.routed, .handing hlt⟩
  · rw [htrail.start]
    exact ⟨hwired.inside _ _ _ p.attachedA, _, p.attachedA, .arriving rfl⟩

/-- What a translator on the way admits: chunks of live mappings, which it sends on to the address
that the flow came from. -/
theorem trail_admission (h : Running rs₀ rs hist now) (htrail : p.Trail hist addr p.j)
    (hj : p.j ≤ i) (hk : i < p.k) {nat₀ : NetworkAddressTranslator}
    (hnat₀ : (rs₀ (p.R (i + 1))).nat = some nat₀) {c : Chunk} (hnetwork : c.network = .udp)
    (hsource : c.sourceAddr = p.remote) (hdest : c.destinationAddr = addr i) (now' : Int) :
    (nat₀.natType.HasBinding (hist (p.R (i + 1))) now' c →
      ∃ c', nat₀.natType.inbound (hist (p.R (i + 1))) now' c = .ok (some c')) ∧
    ∀ c', nat₀.natType.inbound (hist (p.R (i + 1))) now' c = .ok (some c') →
      c'.network = .udp ∧ c'.sourceAddr = p.remote ∧ c'.userData = c.userData ∧
        c'.destinationAddr = addr (i + 1) := by
  obtain ⟨u, hu, hun, hus, hud, hue⟩ := htrail.uses i hj hk
  obtain ⟨nat, -, hfollows⟩ := h.nat _ nat₀ hnat₀
  obtain ⟨ip, -, hrepresents⟩ := hfollows.normal (p.normal _ hk nat₀ hnat₀)
  have hadmission := hrepresents.history.admission now' c
  have hmem : u ∈ bindings (hist (p.R (i + 1))) c.network c.destinationAddr := by
    simp only [bindings, List.mem_filter, decide_eq_true_eq]
    exact ⟨hu, hun.trans hnetwork.symm, hue.trans hdest.symm⟩
  refine ⟨fun hbinding => ?_, fun c' hc' => ?_⟩
  · obtain ⟨result, hresult⟩ :=
      hadmission.succeeds_iff.mpr ⟨hbinding, u, hmem, by rw [hud, hsource]⟩
    obtain ⟨c', rfl, -⟩ := hadmission.result result hresult
    exact ⟨c', hresult⟩
  · obtain ⟨c'', he, hn, hs, hdata, -, hall⟩ := hadmission.result _ hc'
    cases he
    exact ⟨hn.trans hnetwork, hs.trans hsource, hdata, (hall u hmem).trans hus⟩

theorem incoming_move (hwired : Routers.Wired rs₀) (h : Running rs₀ rs hist now) {y : Location}
    {o : Outcome} (hgrow : ∀ i, hist i ⊆ hist' i) (hx : p.Incoming addr userData n hist x)
    (hmoves : Moves rs₀ hist hist' ev x o (some y)) :
    ∃ m < n, p.Incoming addr userData m hist' y := by
  obtain ⟨htrail, hnetwork, hsource, hdata, i, hj, hk, hdest, hplace⟩ := hx
  have htrail' := htrail.mono hgrow
  cases hmoves with
  | toNIC hinside hlookup =>
    cases hplace
    obtain ⟨-, nic', hlookup', hplace⟩ := p.next_hop hwired h htrail hj hk
    rw [Chunk.getDestinationIP, hdest, hlookup'] at hlookup
    cases hlookup
    exact ⟨_, Nat.lt_succ_self _, htrail', hnetwork, hsource, hdata, i, hj, hk, hdest, hplace⟩
  | up houtside hparent hnat hmem =>
    cases hplace
    rw [Chunk.getDestinationIP, hdest, (p.next_hop hwired h htrail hj hk).1] at houtside
    cases houtside
  | @down r n now c c' nat hnat hinbound htag =>
    cases hplace with
    | handing hlt =>
      obtain ⟨hn, hs, hdata', hd⟩ :=
        (p.trail_admission h htrail hj hlt hnat hnetwork hsource hdest now).2 c'
          (hinbound (p.normal _ hlt nat hnat))
      exact ⟨_, by omega, htrail', hn, hs, hdata'.trans hdata, i + 1, Nat.le_succ_of_le hj, hlt, hd,
        .handed hj rfl⟩
  | forwarded =>
    cases hplace with
    | handed hjm he =>
      subst he
      exact ⟨_, Nat.lt_succ_self _, htrail', by simpa using hnetwork, by simpa using hsource,
        by simpa using hdata, _, hj, hk, by simpa using hdest, .queued⟩

variable {tag : String}

theorem incoming_finish (hwired : Routers.Wired rs₀) (h : Running rs₀ rs hist now) {r : Nat}
    {fate : Fate} (halive : MappingsAlive tag rs ev) (hcarries : rs.Carries x)
    (htag : x.chunk.tag = tag) (hx : p.Incoming addr userData n hist x)
    (hmoves : Moves rs₀ hist hist' ev x (.finished r fate x.chunk) none) :
    p.IncomingEnds userData r fate x.chunk := by
  obtain ⟨htrail, hnetwork, hsource, hdata, i, hj, hk, hdest, hplace⟩ := hx
  cases hmoves with
  | blocked hfilters =>
    cases hplace
    rw [p.passes_all hk] at hfilters
    cases hfilters
  | unreachable hinside hlookup =>
    cases hplace
    obtain ⟨-, nic, hlookup', -⟩ := p.next_hop hwired h htrail hj hk
    rw [Chunk.getDestinationIP, hdest, hlookup'] at hlookup
    cases hlookup
  | noRoute houtside | failed houtside | untranslated houtside =>
    cases hplace
    rw [Chunk.getDestinationIP, hdest, (p.next_hop hwired h htrail hj hk).1] at houtside
    cases houtside
  | delivered =>
    cases hplace with
    | arriving he =>
      subst he
      exact ⟨rfl, rfl, hdata, hsource, hdest.trans htrail.start⟩
  | @refused _ n now c nat e hnat hinbound =>
    cases hplace with
    | handing hlt =>
      obtain ⟨nat', hnat', hfollows⟩ := h.nat _ nat hnat
      obtain ⟨ip, -, hrepresents⟩ := hfollows.normal (p.normal _ hlt nat hnat)
      obtain ⟨handover, hpending, hlocation⟩ := pending_of_carries hcarries nofun
      obtain rfl : handover = .toNIC (.router (p.R (i + 1))) c := by
        cases handover <;> cases hlocation
        rfl
      have hbinding := hrepresents.hasBinding (halive _ hpending htag nat' hnat')
      obtain ⟨c', hc'⟩ :=
        (p.trail_admission h htrail hj hlt hnat hnetwork hsource hdest now).1 hbinding
      rw [hinbound (p.normal _ hlt nat hnat)] at hc'
      cases hc'
  | dropped hclosed =>
    cases hplace with
    | handed hjm he =>
      subst he
      exact absurd (p.accepts _ hk) hclosed

/-- While the mappings on its way are alive, the reply descends to the host that the flow came
from. -/
theorem incoming_itinerary (hwired : Routers.Wired rs₀) (tag : String) (addr : Nat → Addr)
    (userData : List UInt8) :
    Itinerary rs₀ tag (MappingsAlive tag) (p.Incoming addr userData)
      fun _ => p.IncomingEnds userData where
  mono := by
    rintro n hist hist' x hgrow ⟨htrail, hrest⟩
    exact ⟨htrail.mono hgrow, hrest⟩
  ends_mono := fun _ _ _ _ _ _ h => h
  move := fun _ _ _ _ _ _ _ _ _ h _ _ hgrow _ _ hx hmoves =>
    p.incoming_move hwired h hgrow hx hmoves
  finish := fun _ _ _ _ _ _ _ _ _ h _ halive _ hcarries htag hx hmoves =>
    p.incoming_finish hwired h halive hcarries htag hx hmoves

/-- The router is one of those between the hosts. -/
def Passes (r : Nat) : Prop := ∃ i, p.j ≤ i ∧ i ≤ p.k ∧ r = p.R i

/-- A chunk of the tag is still with a router of the path. -/
def Underway (rs : Routers) (tag : String) : Prop :=
  ∃ x, rs.Carries x ∧ x.chunk.tag = tag ∧ p.Passes x.router

/-- A router between the hosts has no port left for some chunk. -/
def Exhausted (outs : List Outcome) : Prop :=
  ∃ r d, p.Passes r ∧ .finished r (.failed NATError.portSpaceExhausted.failure) d ∈ outs

theorem passes_of_outgoing (h : p.Outgoing userData n hist x) : p.Passes x.router := by
  obtain ⟨r, place, c⟩ := x
  obtain ⟨-, -, -, i, addr, hj, hk, -, -, hplace⟩ := h
  cases hplace with
  | queued => exact ⟨i, hj, hk, rfl⟩
  | handed hlt => exact ⟨i + 1, Nat.le_succ_of_le hj, hlt, rfl⟩
  | arriving => exact ⟨p.j, Nat.le_refl _, Nat.le_of_lt p.lt, rfl⟩

theorem passes_of_incoming (h : p.Incoming addr userData n hist x) : p.Passes x.router := by
  obtain ⟨r, place, c⟩ := x
  obtain ⟨-, -, -, -, i, hj, hk, -, hplace⟩ := h
  cases hplace with
  | queued | handing => exact ⟨i, hj, hk, rfl⟩
  | arriving => exact ⟨p.k, Nat.le_of_lt p.lt, Nat.le_refl _, rfl⟩
  | handed hjm he =>
    subst he
    exact ⟨_, hjm, Nat.le_of_succ_le hk, rfl⟩

theorem underway_of_holds {At : Nat → (Nat → List Use) → Location → Prop}
    (hplace : ∀ {n hist x}, At n hist x → p.Passes x.router) (htrack : OnTrack tag At rs hist)
    (hholds : rs.Holds tag) : p.Underway rs tag := by
  obtain ⟨x, hx, htag⟩ := hholds
  obtain ⟨n, hn⟩ := htrack x hx htag
  exact ⟨x, hx, htag, hplace hn⟩

/-- However the network runs on after the events `past`, if the routers between the hosts keep
running, the condition is met and the tag is not used again, then there is an outcome of some kind
in the end, unless a router between the hosts has no port left. -/
def Settles (now : Int) (past : List Event) (tag : String) (Cond : Routers → Event → Prop)
    (rs : Routers) (outs : List Outcome) (Goal : Outcome → Prop) : Prop :=
  ∀ evs, Serves p.Passes evs → (∀ n, (evs n).tag ≠ some tag) →
    (∀ n, (now :: (past ++ window evs 0 n).map Event.time).IsChain (· ≤ ·)) →
    (∀ n, Along Routers.step Cond rs (window evs 0 n)) →
    ∃ n rs' outs', run Routers.step rs (window evs 0 n) = some (rs', outs') ∧
      ((∃ o ∈ outs ++ outs', Goal o) ∨ p.Exhausted (outs ++ outs'))

/-- A chunk whose itinerary stays between the hosts ends as it says. -/
theorem settles {Cond : Routers → Event → Prop} {At : Nat → (Nat → List Use) → Location → Prop}
    {Ends : (Nat → List Use) → Nat → Fate → Chunk → Prop} {Goal : Outcome → Prop} {last : Int}
    {past : List Event} {outs : List Outcome} (hwired : Routers.Wired rs₀)
    (hit : Itinerary rs₀ tag Cond At Ends) (hplace : ∀ {n hist x}, At n hist x → p.Passes x.router)
    (hgoal : ∀ hist r fate d, Ends hist r fate d → d.tag = tag → Goal (.finished r fate d) ∨
      p.Passes r ∧ fate = .failed NATError.portSpaceExhausted.failure)
    (h : Running rs₀ rs hist last)
    (hlast : ∀ later, (now :: (past ++ later).map Event.time).IsChain (· ≤ ·) →
      (last :: later.map Event.time).IsChain (· ≤ ·))
    (ht : Tracked rs₀ tag At Ends outs rs hist) (hheld : Held tag outs rs) :
    p.Settles now past tag Cond rs outs Goal := by
  intro evs hserves hfresh htimes hcond
  have hnormal : ∀ r, p.Passes r → ∀ nat, (rs₀ r).nat = some nat →
      nat.natType.mode = .natModeNormal := by
    rintro r ⟨i, -, hk, rfl⟩
    exact p.normal i hk
  have hstarted : ∀ r, p.Passes r → (rs₀ r).started = true := by
    rintro r ⟨i, -, hk, rfl⟩
    exact (p.accepts i hk).1
  obtain ⟨n, rs', outs', hrun, hended⟩ := hit.settles hwired hnormal hstarted
    (fun _ _ _ => hplace) hserves h (fun n => hlast _ (htimes n)) hcond hfresh ht hheld
  refine ⟨n, rs', outs', hrun, ?_⟩
  rcases hended with ⟨hist', r, fate, d, hmem, htag, hd⟩ | hexhausted
  · rcases hgoal hist' r fate d hd htag with hgoal | ⟨hr, rfl⟩
    · exact Or.inl ⟨_, hmem, hgoal⟩
    · exact Or.inr ⟨r, d, hr, hmem⟩
  · exact Or.inr hexhausted

/-- A run into which the chunk from `source` to `remote` is sent. -/
theorem outgoing_run (hwired : Routers.Wired rs₀) (now time : Int) (before events : List Event)
    {c : Chunk} (hudp : c.network = .udp) (hsource : c.sourceAddr = p.source)
    (hdest : c.destinationAddr = p.remote) (hfresh : ∀ ev ∈ before ++ events, ev.tag ≠ some c.tag)
    (htimes : (now :: (before ++ .push (p.R p.k) time c :: events).map Event.time).IsChain
      (· ≤ ·)) :
    ∃ rs outs hist last, run Routers.step rs₀ (before ++ .push (p.R p.k) time c :: events) =
        some (rs, outs) ∧ Running rs₀ rs hist last ∧
      (∀ later, (now :: (before ++ .push (p.R p.k) time c :: events ++ later).map
        Event.time).IsChain (· ≤ ·) → (last :: later.map Event.time).IsChain (· ≤ ·)) ∧
      Tracked rs₀ c.tag (p.Outgoing c.userData) (p.OutgoingEnds c.userData) outs rs hist ∧
      Held c.tag outs rs := by
  obtain ⟨rs₁, outs₁, hist₁, last₁, hrun₁, h₁, hlast₁, ht₁, -⟩ :=
    (itinerary_absent rs₀ c.tag).run hwired before (hwired.running now)
      (isChain_map_append_left htimes) (along_of_forall (fun _ _ => trivial) ..)
      (fun ev hev => hfresh ev (List.mem_append_left _ hev)) (hwired.absent c.tag)
  have hstart : p.Outgoing c.userData _ hist₁ ⟨p.R p.k, .queue, c.setTimestamp time⟩ :=
    ⟨by simpa using hudp, by simpa using hdest, by simp, p.k, fun _ => p.source,
      Nat.le_of_lt p.lt, Nat.le_refl _, ⟨rfl, fun m hm hlt => absurd hlt (Nat.not_lt.mpr hm)⟩,
      by simpa using hsource, .queued⟩
  obtain ⟨rs₂, outs₂, hist₂, last₂, hrun₂, h₂, hlast₂, ht₂, hheld⟩ :=
    (p.outgoing_itinerary hwired c.tag c.userData).send hwired h₁ (p.accepts p.k (Nat.le_refl _))
      ht₁ hstart events (hlast₁ _ htimes) (along_of_forall (fun _ _ => trivial) ..)
      (fun ev hev => hfresh ev (List.mem_append_right _ hev))
  refine ⟨rs₂, outs₁ ++ outs₂, hist₂, last₂, ?_, h₂, fun later hlater => ?_, ht₂, hheld⟩
  · rw [run_append hrun₁, hrun₂]
    rfl
  · exact hlast₂ _ (hlast₁ _ (List.append_assoc .. ▸ hlater))

end Path

/-- The routers of two nested networks below a root, before they are attached. -/
def looseRouters : Routers := fun i =>
  { ipv4Net := match i with
      | 0 => ⟨⟨5, 6, 7, 0⟩, 24⟩
      | 1 => ⟨⟨192, 168, 0, 0⟩, 16⟩
      | _ => ⟨⟨10, 0, 0, 0⟩, 24⟩
    staticIPs := [], staticLocalIPs := ∅, lastID := 0, eth0 := []
    queue := newChunkQueue 0 0, parent := none, natType := none, nat := none, nics := ∅
    chunkFilters := [], minDelay := 0, started := true, halted := false, pending := none }

/-- The nested networks, with host 7 at the root and host 8 in the innermost network. -/
def nestedRouters : Routers :=
  ((((looseRouters.addNet 0 7 [⟨5, 6, 7, 8⟩]).1.addRouter 0 1).1.addRouter 1 2).1.addNet 2 8
    [⟨10, 0, 0, 2⟩]).1

theorem keepsOwners_of_keys {rs rs' : Routers}
    (h : ∀ i, ∀ key ∈ (rs i).nics.keys, (rs' i).nics.lookup key = (rs i).nics.lookup key) :
    Routers.KeepsOwners rs rs' := by
  intro i key nic hlookup
  have hmem : key ∈ (rs i).nics.keys :=
    AList.mem_keys.mp (AList.lookup_isSome.mp (by rw [hlookup]; rfl))
  rw [h i key hmem, hlookup]

theorem nestedRouters_built : Routers.Built nestedRouters := by
  have hnew : Routers.Built looseRouters :=
    .new fun i => ⟨⟨(looseRouters i).ipv4Net, [], 0, none, 0⟩, _, [], true, rfl, rfl⟩
  have hok : ∀ {result : Routers × Option RouterError}, result.2 = none →
      result = (result.1, none) := fun h => Prod.ext rfl h
  refine .addNet 2 8 [⟨10, 0, 0, 2⟩] (.addRouter 1 2 (.addRouter 0 1
    (.addNet 0 7 [⟨5, 6, 7, 8⟩] hnew (hok (by decide +kernel)) ?_)
    (by decide) (by decide +kernel) (hok (by decide +kernel)) ?_)
    (by decide) (by decide +kernel) (hok (by decide +kernel)) ?_) (hok (by decide +kernel)) ?_
  all_goals
    refine keepsOwners_of_keys fun i => ?_
    match i with
    | 0 => decide +kernel
    | 1 => decide +kernel
    | 2 => decide +kernel
    | n + 3 => exact fun key hkey => by cases hkey

/-- The path between the two hosts. -/
def nestedPath : Path nestedRouters where
  R := id
  j := 0
  k := 2
  hostA := 8
  hostB := 7
  source := datagram.sourceAddr
  remote := datagram.destinationAddr
  lt := by decide
  parent := fun i hi => by
    match i with
    | 0 => rfl
    | 1 => rfl
  accepts := fun i hi => by
    match i with
    | 0 => decide +kernel
    | 1 => decide +kernel
    | 2 => decide +kernel
  passes := fun i hi filter hfilter => by
    match i with
    | 0 => cases hfilter
    | 1 => cases hfilter
    | 2 => cases hfilter
  normal := fun i hi nat hnat => by
    match i with
    | 0 => cases hnat
    | 1 => cases hnat; rfl
    | 2 => cases hnat; rfl
  attachedA := by decide +kernel
  attachedB := by decide +kernel
  outside := fun i hj hk => by
    match i with
    | 1 => decide +kernel
    | 2 => decide +kernel

/-- In every run of a network that is built, a UDP chunk from a host below nested translators to a
host above them stays underway until it reaches that host unchanged, unless a router on the way
has no port left, and it does reach it if these routers keep running. A reply to the address that
the receiver observed stays underway until it reaches the first host, from the second host's
address, while the mappings on the way are alive, and it does reach it as well. -/
theorem replies_cross_nested_routers {rs₀ : Routers} (hbuilt : Routers.Built rs₀) (p : Path rs₀)
    (now time : Int) (before events : List Event) (c : Chunk) (hudp : c.network = .udp)
    (hsource : c.sourceAddr = p.source) (hdest : c.destinationAddr = p.remote)
    (hfresh : ∀ ev ∈ before ++ events, ev.tag ≠ some c.tag)
    (htimes : (now :: (before ++ .push (p.R p.k) time c :: events).map Event.time).IsChain
      (· ≤ ·)) :
    ∃ rs outs, run Routers.step rs₀ (before ++ .push (p.R p.k) time c :: events) =
        some (rs, outs) ∧
      (p.Underway rs c.tag ∨ ∃ r fate d, .finished r fate d ∈ outs ∧ d.tag = c.tag) ∧
      (∀ r fate d, .finished r fate d ∈ outs → d.tag = c.tag →
        (r = p.R p.j ∧ fate = .delivered p.hostB ∧ d.userData = c.userData ∧
          d.destinationAddr = c.destinationAddr) ∨
        ∃ i, p.j < i ∧ i ≤ p.k ∧ r = p.R i ∧
          fate = .failed NATError.portSpaceExhausted.failure) ∧
      p.Settles now (before ++ .push (p.R p.k) time c :: events) c.tag (fun _ _ => True) rs outs
        (fun o => ∃ d, o = .finished (p.R p.j) (.delivered p.hostB) d ∧ d.tag = c.tag ∧
          d.userData = c.userData ∧ d.destinationAddr = c.destinationAddr) ∧
      ∀ d reply time' later, .finished (p.R p.j) (.delivered p.hostB) d ∈ outs → d.tag = c.tag →
        reply.network = .udp → reply.sourceAddr = d.destinationAddr →
        reply.destinationAddr = d.sourceAddr → reply.tag ≠ c.tag →
        (∀ ev ∈ before ++ events ++ later, ev.tag ≠ some reply.tag) →
        (now :: (before ++ .push (p.R p.k) time c :: events ++
          .push (p.R p.j) time' reply :: later).map Event.time).IsChain (· ≤ ·) →
        Along Routers.step (Path.MappingsAlive reply.tag) rs
          (.push (p.R p.j) time' reply :: later) →
        ∃ rs' outs', run Routers.step rs (.push (p.R p.j) time' reply :: later) =
            some (rs', outs') ∧
          (p.Underway rs' reply.tag ∨ ∃ r fate e, .finished r fate e ∈ outs' ∧ e.tag = reply.tag) ∧
          (∀ r fate e, .finished r fate e ∈ outs' → e.tag = reply.tag →
            r = p.R p.k ∧ fate = .delivered p.hostA ∧ e.userData = reply.userData ∧
              e.sourceAddr = p.remote ∧ e.destinationAddr = c.sourceAddr) ∧
          p.Settles now (before ++ .push (p.R p.k) time c :: events ++
              .push (p.R p.j) time' reply :: later) reply.tag (Path.MappingsAlive reply.tag) rs'
            (outs ++ outs')
            (fun o => ∃ e, o = .finished (p.R p.k) (.delivered p.hostA) e ∧ e.tag = reply.tag ∧
              e.userData = reply.userData ∧ e.sourceAddr = p.remote ∧
              e.destinationAddr = c.sourceAddr) := by
  have hwired := hbuilt.wired
  obtain ⟨rs, outs, hist, last, hrun, h, hlast, ht, hheld⟩ :=
    p.outgoing_run hwired now time before events hudp hsource hdest hfresh htimes
  refine ⟨rs, outs, hrun, hheld.imp_left (p.underway_of_holds p.passes_of_outgoing ht.track),
    fun r fate d hmem htag => ?_, ?_, ?_⟩
  · rcases ht.ends r fate d hmem htag with ⟨hr, hfate, hdata, hd, -⟩ | hfailed
    · exact Or.inl ⟨hr, hfate, hdata, hd.trans hdest.symm⟩
    · exact Or.inr hfailed
  · refine p.settles hwired (p.outgoing_itinerary hwired c.tag c.userData) p.passes_of_outgoing
      (fun hist r fate d hd htag => ?_) h hlast ht hheld
    rcases hd with ⟨rfl, rfl, hdata, hd, -⟩ | ⟨i, hj, hk, rfl, rfl⟩
    · exact Or.inl ⟨d, rfl, htag, hdata, hd.trans hdest.symm⟩
    · exact Or.inr ⟨⟨i, Nat.le_of_lt hj, hk, rfl⟩, rfl⟩
  · intro d reply time' later hmem htag hnetwork hfrom hto hne hfresh' htimes' halive
    have hunsent : ∀ ev ∈ before ++ .push (p.R p.k) time c :: events,
        ev.tag ≠ some reply.tag := by
      intro ev hev
      rcases List.mem_append.mp hev with hev | hev
      · exact hfresh' ev (List.mem_append_left _ (List.mem_append_left _ hev))
      · rcases List.mem_cons.mp hev with rfl | hev
        · exact fun he => hne (Option.some.inj he).symm
        · exact hfresh' ev (List.mem_append_left _ (List.mem_append_right _ hev))
    -- the same run with the histories of the other itinerary: nothing of the reply is there yet
    obtain ⟨rs₁, outs₁, hist₁, last₁, hrun₁, -, -, ht₁, -⟩ :=
      (itinerary_absent rs₀ reply.tag).run hwired _ (hwired.running now) htimes
        (along_of_forall (fun _ _ => trivial) ..) hunsent (hwired.absent reply.tag)
    cases hrun.symm.trans hrun₁
    have ht₁ : Tracked rs₀ reply.tag (fun _ _ _ => False) (fun _ _ _ _ => False) outs rs hist :=
      ⟨ht₁.serving, ht₁.track, ht₁.ends⟩
    obtain ⟨hd, addr, htrail, hsrc⟩ : d.destinationAddr = p.remote ∧
        ∃ addr, p.Trail hist addr p.j ∧ d.sourceAddr = addr p.j := by
      rcases ht.ends _ _ d hmem htag with ⟨-, -, -, hd, haddr⟩ | ⟨i, -, -, -, hfailed⟩
      · exact ⟨hd, haddr⟩
      · cases hfailed
    have hreply : p.Incoming addr reply.userData _ hist
        ⟨p.R p.j, .queue, reply.setTimestamp time'⟩ :=
      ⟨htrail, by simpa using hnetwork, by simpa using hfrom.trans hd, by simp, p.j,
        Nat.le_refl _, Nat.le_of_lt p.lt, by simpa using hto.trans hsrc, .queued⟩
    have hin := p.incoming_itinerary hwired reply.tag addr reply.userData
    obtain ⟨rs', outs', hist', last', hrun', h', hlast', ht', hheld'⟩ :=
      hin.send hwired h (p.accepts p.j (Nat.le_of_lt p.lt)) ht₁ hreply later (hlast _ htimes')
        halive (fun ev hev => hfresh' ev (List.mem_append_right _ hev))
    rw [hsource]
    refine ⟨rs', outs', hrun', ?_, fun r fate e hmem => ht'.ends r fate e
      (List.mem_append_right _ hmem), p.settles hwired hin p.passes_of_incoming
        (fun hist r fate e he htag => ?_) h'
        (fun later' hlater => hlast' _ (hlast _ (List.append_assoc .. ▸ hlater))) ht' hheld'⟩
    · rcases hheld' with hholds | ⟨r, fate, e, hmem, htag⟩
      · exact Or.inl (p.underway_of_holds p.passes_of_incoming ht'.track hholds)
      · refine Or.inr ⟨r, fate, e, (List.mem_append.mp hmem).resolve_left fun hmem => ?_, htag⟩
        exact ht₁.ends r fate e hmem htag
    · obtain ⟨rfl, rfl, hdata, hs, hd⟩ := he
      exact Or.inl ⟨e, rfl, htag, hdata, hs, hd⟩

/-- A run in which the datagram climbs from host 8 to host 7. -/
def ascent : List Event :=
  [.process 2 11 11, .handOver 2 12, .process 1 13 13, .handOver 1 14, .process 0 15 15,
    .handOver 0 16]

/-- The reply of host 7 to the address it observed. -/
def echo : Chunk :=
  .udp ⟨⟨0, ⟨5, 6, 7, 8⟩, ⟨5, 6, 7, 1⟩, "2", false⟩, 5678, 0xC000, [9]⟩

/-- A run in which the reply descends to host 8. -/
def descent : List Event :=
  [.process 0 21 21, .handOver 0 22, .handOver 0 23, .process 1 24 24, .handOver 1 25,
    .handOver 1 26, .process 2 27 27, .handOver 2 28]

theorem replies_cross_two_translators :
    ∃ rs outs rs' outs', run Routers.step nestedRouters (.push 2 10 datagram :: ascent) =
        some (rs, outs) ∧
      run Routers.step rs (.push 0 20 echo :: descent) = some (rs', outs') ∧
      ∃ e, .finished 2 (.delivered 8) e ∈ outs' ∧ e.userData = echo.userData ∧
        e.sourceAddr = datagram.destinationAddr ∧ e.destinationAddr = datagram.sourceAddr := by
  obtain ⟨rs, outs, hrun, -, -, -, hreply⟩ := replies_cross_nested_routers nestedRouters_built
    nestedPath 0 10 [] ascent datagram rfl rfl rfl (by decide) (by decide)
  have hrun : run Routers.step nestedRouters (.push 2 10 datagram :: ascent) = some (rs, outs) :=
    hrun
  obtain ⟨hmem, halive, hdone⟩ := holds_of_run hrun (fun rs outs =>
    .finished 0 (.delivered 7) (.udp ⟨⟨14, ⟨5, 6, 7, 1⟩, ⟨5, 6, 7, 8⟩, "1", false⟩, 0xC000, 5678,
      [7]⟩) ∈ outs ∧
    Along Routers.step (Path.MappingsAlive echo.tag) rs (.push 0 20 echo :: descent) ∧
    (run Routers.step rs (.push 0 20 echo :: descent)).any fun r =>
      .finished 2 (.delivered 8) (.udp ⟨⟨26, ⟨5, 6, 7, 8⟩, ⟨10, 0, 0, 2⟩, "2", false⟩, 5678, 1234,
        [9]⟩) ∈ r.2) (by decide +kernel)
  obtain ⟨rs', outs', hrun', -, hends, -⟩ := hreply _ echo 20 descent hmem rfl rfl rfl rfl
    (by decide) (by decide) (by decide) halive
  rw [show run Routers.step rs (.push 0 20 echo :: descent) = _ from hrun'] at hdone
  have hdone := of_decide_eq_true hdone
  obtain ⟨-, -, hdata, hsource, hdest⟩ := hends _ _ _ hdone rfl
  exact ⟨rs, outs, rs', outs', hrun, hrun', _, hdone, hdata, hsource, hdest⟩

end PionTransport.Vnet
