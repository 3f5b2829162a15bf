import Mathlib.Data.List.Dedup
import PionTransport.Vnet.Translator

/-!
# Translations as a history of flows

What the translator is for, without tables, pointers or text. Its state is the
history of translated outbound chunks, newest first. Chunks of one flow (same
network, source and bound) share an external address as long as no gap between
consecutive uses exceeds the lifetime; otherwise the next free port is taken.
An inbound chunk is admitted by the uses of the external address it is sent to.
-/

namespace PionTransport.Vnet

/-- A remote endpoint, as far as a behaviour distinguishes it. -/
inductive Endpoint
  | any
  | ip (ip : IPv4)
  | addr (addr : Addr)
  deriving DecidableEq, Repr

/-- The part of a remote address that a behaviour depends on. -/
def EndpointDependencyType.endpoint (behavior : EndpointDependencyType) (remote : Addr) :
    Endpoint :=
  match behavior with
  | .endpointIndependent => .any
  | .endpointAddrDependent => .ip remote.ip
  | .endpointAddrPortDependent => .addr remote

/-- Chunks that must share an external address. -/
structure Flow where
  network : Network
  source : Addr
  bound : Endpoint
  deriving DecidableEq, Repr

/-- One translated outbound chunk. -/
structure Use where
  time : Int
  chunk : Chunk
  external : Addr
  deriving DecidableEq, Repr

section Histories

variable (t : NATType)

/-- The flow of a chunk. -/
def NATType.flow (c : Chunk) : Flow :=
  ⟨c.network, c.sourceAddr, t.mappingBehavior.endpoint c.destinationAddr⟩

/-- The newest use of a flow. -/
def NATType.lastUse (uses : List Use) (flow : Flow) : Option Use :=
  uses.find? fun u => decide (t.flow u.chunk = flow)

/-- The use is recent enough to keep its mapping at time `now`. -/
def NATType.Alive (now : Int) (u : Use) : Prop := now ≤ u.time + t.mappingLifeTime

instance (now : Int) (u : Use) : Decidable (t.Alive now u) :=
  inferInstanceAs (Decidable (now ≤ u.time + t.mappingLifeTime))

end Histories

/-- The external addresses handed out so far for a network. -/
def externals (uses : List Use) (network : Network) : List Addr :=
  ((uses.filter fun u => decide (u.chunk.network = network)).map Use.external).dedup

/-- The uses of one external address of a network. -/
def bindings (uses : List Use) (network : Network) (external : Addr) : List Use :=
  uses.filter fun u => decide (u.chunk.network = network ∧ u.external = external)

/-- The next free external address of a network, unless its ports are exhausted. -/
def nextExternal (ip : IPv4) (uses : List Use) (network : Network) : Option Addr :=
  let port := NetworkAddressTranslator.portBase network + (externals uses network).length
  if port > 65535 then none else some ⟨ip, UInt16.ofNat port⟩

/-- The external address of an outbound chunk: that of its flow while alive, else a new one. -/
def NATType.assign (t : NATType) (ip : IPv4) (uses : List Use) (now : Int) (c : Chunk) :
    Option Addr :=
  match t.lastUse uses (t.flow c) with
  | some u => if t.Alive now u then some u.external else nextExternal ip uses c.network
  | none => nextExternal ip uses c.network

/-- The specification of an outbound translation. -/
def NATType.outbound (t : NATType) (ip : IPv4) (uses : List Use) (now : Int) (c : Chunk) :
    List Use × Except Failure (Option Chunk) :=
  match t.assign ip uses now c with
  | none => (uses, .error NATError.portSpaceExhausted.failure)
  | some external => (⟨now, c, external⟩ :: uses, .ok (some (c.clone.withSource external)))

/-- Some use of the external address keeps its mapping alive. -/
def NATType.HasBinding (t : NATType) (uses : List Use) (now : Int) (c : Chunk) : Prop :=
  ∃ u ∈ bindings uses c.network c.destinationAddr, t.Alive now u

/-- Some use of the external address went to an endpoint matching the chunk's source. -/
def NATType.Permits (t : NATType) (uses : List Use) (c : Chunk) : Prop :=
  ∃ u ∈ bindings uses c.network c.destinationAddr,
    t.filteringBehavior.endpoint u.chunk.destinationAddr =
      t.filteringBehavior.endpoint c.sourceAddr

instance (t : NATType) (uses : List Use) (now : Int) (c : Chunk) :
    Decidable (t.HasBinding uses now c) :=
  inferInstanceAs (Decidable (∃ u ∈ bindings uses c.network c.destinationAddr, t.Alive now u))

instance (t : NATType) (uses : List Use) (c : Chunk) : Decidable (t.Permits uses c) :=
  inferInstanceAs (Decidable (∃ u ∈ bindings uses c.network c.destinationAddr,
    t.filteringBehavior.endpoint u.chunk.destinationAddr =
      t.filteringBehavior.endpoint c.sourceAddr))

/-- The specification of an inbound translation. -/
def NATType.inbound (t : NATType) (uses : List Use) (now : Int) (c : Chunk) :
    Except Failure (Option Chunk) :=
  if ¬ t.HasBinding uses now c then
    .error ⟨.noNATBindingFound, "drop " ++ c.string ++ " as " ++ NATError.noNATBindingFound.string⟩
  else if ¬ t.Permits uses c then
    .error ⟨.hasNoPermission, "drop " ++ c.string ++ " as the remote " ++
      endpointKey t.filteringBehavior c.sourceAddr ++ " " ++ NATError.hasNoPermission.string⟩
  else .ok (((bindings uses c.network c.destinationAddr).head?).map fun u =>
    c.clone.withDestination u.chunk.sourceAddr)

/-- The specification of one call. -/
def NATType.step (t : NATType) (ip : IPv4) (uses : List Use) :
    NATCall → List Use × Except Failure (Option Chunk)
  | .outbound now c => t.outbound ip uses now c
  | .inbound now c => (uses, t.inbound uses now c)

/-- Histories that the specification can produce. -/
inductive Translations (t : NATType) (ip : IPv4) : List Use → Prop
  | nil : Translations t ip []
  | cons {uses : List Use} {now : Int} {c : Chunk} {external : Addr} :
      Translations t ip uses → t.assign ip uses now c = some external →
      Translations t ip (⟨now, c, external⟩ :: uses)

variable {t : NATType} {ip : IPv4} {uses : List Use}

variable {external : Addr}

/-- An outbound chunk either continues its live flow or takes the next free address. -/
theorem assign_cases {now : Int} {c : Chunk} (h : t.assign ip uses now c = some external) :
    (∃ u, t.lastUse uses (t.flow c) = some u ∧ t.Alive now u ∧ u.external = external) ∨
      ((∀ u, t.lastUse uses (t.flow c) = some u → ¬ t.Alive now u) ∧
        nextExternal ip uses c.network = some external) := by
  unfold NATType.assign at h
  cases hlast : t.lastUse uses (t.flow c) with
  | none =>
    rw [hlast] at h
    exact Or.inr ⟨fun u hu => (Option.some_ne_none u hu.symm).elim, h⟩
  | some u =>
    simp only [hlast] at h
    split at h
    · exact Or.inl ⟨u, rfl, ‹_›, Option.some.inj h⟩
    · refine Or.inr ⟨fun v hv => ?_, h⟩
      rw [← Option.some.inj hv]
      assumption

theorem lastUse_flow {flow : Flow} {u : Use} (h : t.lastUse uses flow = some u) :
    u ∈ uses ∧ t.flow u.chunk = flow :=
  ⟨List.mem_of_find?_eq_some h, by simpa using List.find?_some h⟩

variable {network : Network}

theorem mem_externals :
    external ∈ externals uses network ↔
      ∃ u ∈ uses, u.chunk.network = network ∧ u.external = external := by
  simp only [externals, List.mem_dedup, List.mem_map, List.mem_filter, decide_eq_true_eq]
  constructor
  · rintro ⟨u, ⟨hu, hn⟩, he⟩
    exact ⟨u, hu, hn, he⟩
  · rintro ⟨u, hu, hn, he⟩
    exact ⟨u, ⟨hu, hn⟩, he⟩

theorem externals_cons (u : Use) (network : Network) :
    externals (u :: uses) network =
      if u.chunk.network = network ∧ u.external ∉ externals uses network
      then u.external :: externals uses network else externals uses network := by
  unfold externals
  by_cases hn : u.chunk.network = network
  · by_cases hmem : u.external ∈
        (uses.filter fun u => decide (u.chunk.network = network)).map Use.external
    · simp [hn, hmem]
    · simp [hn, hmem]
  · simp [hn]

/-- The ports in use are an initial segment of the range of their network. -/
def InRange (ip : IPv4) (uses : List Use) : Prop :=
  ∀ u ∈ uses, ∃ r, r < (externals uses u.chunk.network).length ∧
    NetworkAddressTranslator.portBase u.chunk.network + r ≤ 65535 ∧
    u.external = ⟨ip, UInt16.ofNat (NetworkAddressTranslator.portBase u.chunk.network + r)⟩

theorem nextExternal_eq (h : nextExternal ip uses network = some external) :
    NetworkAddressTranslator.portBase network + (externals uses network).length ≤ 65535 ∧
      external = ⟨ip, UInt16.ofNat (NetworkAddressTranslator.portBase network +
        (externals uses network).length)⟩ := by
  simp only [nextExternal] at h
  split at h
  · cases h
  · exact ⟨Nat.le_of_not_lt ‹_›, (Option.some.inj h).symm⟩

/-- A new address was never handed out before. -/
theorem InRange.fresh (h : InRange ip uses) (hnext : nextExternal ip uses network = some external) :
    external ∉ externals uses network := by
  obtain ⟨hmax, rfl⟩ := nextExternal_eq hnext
  intro hmem
  obtain ⟨v, hv, hn, he⟩ := mem_externals.mp hmem
  obtain ⟨r, hr, hrmax, hve⟩ := h v hv
  rw [hn] at hr hrmax hve
  rw [hve] at he
  have hport := congrArg (fun a : Addr => a.port.toNat) he
  simp only [UInt16.toNat_ofNat'] at hport
  omega

theorem length_externals_le (u : Use) (network : Network) :
    (externals uses network).length ≤ (externals (u :: uses) network).length := by
  rw [externals_cons]
  split
  · exact Nat.le_succ _
  · exact le_rfl

theorem Translations.inRange (h : Translations t ip uses) : InRange ip uses := by
  induction h with
  | nil =>
    intro u hu
    cases hu
  | @cons uses now c external htail hassign ih =>
    have hold : ∀ v ∈ uses, ∃ r,
        r < (externals (⟨now, c, external⟩ :: uses) v.chunk.network).length ∧
        NetworkAddressTranslator.portBase v.chunk.network + r ≤ 65535 ∧
        v.external =
          ⟨ip, UInt16.ofNat (NetworkAddressTranslator.portBase v.chunk.network + r)⟩ := by
      intro v hv
      obtain ⟨r, hr, hmax, he⟩ := ih v hv
      exact ⟨r, Nat.lt_of_lt_of_le hr (length_externals_le _ _), hmax, he⟩
    intro u hu
    rcases List.mem_cons.mp hu with rfl | hu
    · rcases assign_cases hassign with ⟨v, hv, -, rfl⟩ | ⟨-, hnext⟩
      · obtain ⟨hmem, hflow⟩ := lastUse_flow hv
        have hn : v.chunk.network = c.network := congrArg Flow.network hflow
        have hrange := hold v hmem
        rw [hn] at hrange
        exact hrange
      · obtain ⟨hmax, he⟩ := nextExternal_eq hnext
        refine ⟨(externals uses c.network).length, ?_, hmax, he⟩
        rw [externals_cons, if_pos ⟨rfl, ih.fresh hnext⟩]
        exact Nat.lt_succ_self _
    · exact hold u hu

/-- An external address of a network belongs to one flow. -/
theorem Translations.flow_eq (h : Translations t ip uses) (u v : Use) (hu : u ∈ uses)
    (hv : v ∈ uses) (hn : u.chunk.network = v.chunk.network) (he : u.external = v.external) :
    t.flow u.chunk = t.flow v.chunk := by
  induction h generalizing u v with
  | nil => cases hu
  | @cons uses now c external htail hassign ih =>
    have hhead : ∀ w ∈ uses, c.network = w.chunk.network → external = w.external →
        t.flow c = t.flow w.chunk := by
      intro w hw hnw hew
      rcases assign_cases hassign with ⟨x, hx, -, rfl⟩ | ⟨-, hnext⟩
      · obtain ⟨hmem, hflow⟩ := lastUse_flow hx
        have hnx : x.chunk.network = c.network := congrArg Flow.network hflow
        rw [← hflow]
        exact ih x w hmem hw (hnx.trans hnw) hew
      · exact absurd (mem_externals.mpr ⟨w, hw, hnw.symm, hew.symm⟩)
          (htail.inRange.fresh hnext)
    rcases List.mem_cons.mp hu with rfl | hu
    · rcases List.mem_cons.mp hv with rfl | hv
      · rfl
      · exact hhead v hv hn he
    · rcases List.mem_cons.mp hv with rfl | hv
      · exact (hhead u hu hn.symm he.symm).symm
      · exact ih u v hu hv hn he

/-- No gap between consecutive uses exceeds the lifetime; the newest use comes first. -/
def NATType.Unbroken (t : NATType) (uses : List Use) : Prop :=
  uses.IsChain fun later earlier => t.Alive later.time earlier

theorem Translations.tail {u : Use} (h : Translations t ip (u :: uses)) :
    Translations t ip uses := by
  cases h with
  | cons htail _ => exact htail

theorem Translations.suffix {before : List Use} (h : Translations t ip (before ++ uses)) :
    Translations t ip uses := by
  induction before with
  | nil => exact h
  | cons u before ih => exact ih h.tail

/-- The newest use of a flow up to a given one splits the uses in between. -/
theorem newest_split (t : NATType) {flow : Flow} {earlier : Use}
    (hflow : flow = t.flow earlier.chunk) (between before : List Use) :
    ∃ v a b, between ++ [earlier] = a ++ v :: b ∧
      a.filter (fun u => decide (t.flow u.chunk = t.flow earlier.chunk)) = [] ∧
      t.flow v.chunk = t.flow earlier.chunk ∧
      t.lastUse (between ++ earlier :: before) flow = some v := by
  subst hflow
  have hsome : ((between ++ [earlier]).find? fun u =>
      decide (t.flow u.chunk = t.flow earlier.chunk)).isSome = true := by
    simp
  obtain ⟨v, hfind⟩ := Option.isSome_iff_exists.mp hsome
  obtain ⟨hv, a, b, hsplit, hnone⟩ := List.find?_eq_some_iff_append.mp hfind
  refine ⟨v, a, b, hsplit, ?_, by simpa using hv, ?_⟩
  · rw [List.filter_eq_nil_iff]
    intro u hu
    simpa using hnone u hu
  · unfold NATType.lastUse
    rw [List.append_cons, List.find?_append, hfind]
    rfl

/-- Two uses of a network share their external address exactly when they belong to one flow
whose uses between them are unbroken. -/
theorem Translations.external_eq_iff {later earlier : Use} {between before : List Use}
    (h : Translations t ip (later :: between ++ earlier :: before))
    (hn : later.chunk.network = earlier.chunk.network) :
    later.external = earlier.external ↔
      t.flow later.chunk = t.flow earlier.chunk ∧
        t.Unbroken ((later :: between ++ [earlier]).filter
          fun u => decide (t.flow u.chunk = t.flow earlier.chunk)) := by
  -- induction on the distance, following the newest use of the same flow in between
  induction hlen : between.length using Nat.strong_induction_on generalizing later between with
  | _ n ih =>
    have hearlier : earlier ∈ between ++ earlier :: before := by simp
    by_cases hflow : t.flow later.chunk = t.flow earlier.chunk
    · have htail : Translations t ip (between ++ earlier :: before) := h.tail
      obtain ⟨v, a, b, hsplit, hnone, hv, hlast⟩ := newest_split t hflow between before
      have hfilter : (later :: between ++ [earlier]).filter
          (fun u => decide (t.flow u.chunk = t.flow earlier.chunk)) =
            later :: (v :: b).filter fun u => decide (t.flow u.chunk = t.flow earlier.chunk) := by
        rw [List.cons_append, List.filter_cons_of_pos (by simpa using hflow), hsplit,
          List.filter_append, hnone, List.nil_append]
      have hchain : t.Unbroken ((later :: between ++ [earlier]).filter
          fun u => decide (t.flow u.chunk = t.flow earlier.chunk)) ↔
            t.Alive later.time v ∧ t.Unbroken ((v :: b).filter
              fun u => decide (t.flow u.chunk = t.flow earlier.chunk)) := by
        rw [hfilter, List.filter_cons_of_pos (by simpa using hv)]
        exact List.isChain_cons_cons
      have hrest : t.Unbroken ((v :: b).filter
          fun u => decide (t.flow u.chunk = t.flow earlier.chunk)) ↔
            v.external = earlier.external := by
        rcases List.eq_nil_or_concat b with rfl | ⟨b, x, rfl⟩
        · obtain ⟨-, he⟩ := List.append_inj' hsplit rfl
          obtain rfl : earlier = v := by simpa using he
          simp [NATType.Unbroken]
        · rw [List.concat_eq_append, ← List.cons_append, ← List.append_assoc] at hsplit
          obtain ⟨hbetween, he⟩ := List.append_inj' hsplit rfl
          obtain rfl : earlier = x := by simpa using he
          have hlt : b.length < n := by
            rw [← hlen, hbetween]
            simp
            omega
          rw [hbetween, List.append_assoc] at htail
          have hnv : v.chunk.network = earlier.chunk.network := congrArg Flow.network hv
          have hiff := ih b.length hlt htail.suffix hnv rfl
          rw [List.concat_eq_append, ← List.cons_append, hiff]
          exact ⟨fun hu => ⟨hv, hu⟩, fun hu => hu.2⟩
      rw [hchain, hrest]
      cases h with
      | @cons _ now c external _ hassign =>
        rcases assign_cases hassign with ⟨u, hu, halive, rfl⟩ | ⟨hdead, hnext⟩
        · obtain rfl : v = u := Option.some.inj (hlast.symm.trans hu)
          exact ⟨fun he => ⟨hflow, halive, he⟩, fun he => he.2.2⟩
        · have hfresh := htail.inRange.fresh hnext
          constructor
          · intro he
            exact absurd (mem_externals.mpr ⟨earlier, hearlier, hn.symm, he.symm⟩) hfresh
          · rintro ⟨-, halive, -⟩
            exact absurd halive (hdead v hlast)
    · constructor
      · intro he
        exact absurd (h.flow_eq later earlier List.mem_cons_self
          (List.mem_cons_of_mem _ hearlier) hn he) hflow
      · rintro ⟨he, -⟩
        exact absurd he hflow

end PionTransport.Vnet
