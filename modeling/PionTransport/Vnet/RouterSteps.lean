import PionTransport.Vnet.Moves

/-!
# What a router's goroutine can do

One constructor for every way through the body of the loop of `processChunks` and
through the calls that it makes outside the mutex, with what was found on the way.
-/

namespace PionTransport.Vnet

/-- The ways through the body of the loop of `processChunks`. -/
inductive Router.Routes (r : Router) (now : Int) (c : Chunk) :
    Router → Except Fate Handover → Prop
  | blocked : r.chunkFilters.all (fun filter => filter c) = false →
      Routes r now c r (.error .blocked)
  | unreachable : r.ipv4Net.contains c.getDestinationIP = true →
      r.nics.lookup c.getDestinationIP.string = none → Routes r now c r (.error .unreachable)
  | toNIC {nic : NIC} : r.ipv4Net.contains c.getDestinationIP = true →
      r.nics.lookup c.getDestinationIP.string = some nic → Routes r now c r (.ok (.toNIC nic c))
  | noRoute : r.ipv4Net.contains c.getDestinationIP = false → r.parent = none →
      Routes r now c r (.error .noRoute)
  | failed {parent : Nat} {nat nat' : NetworkAddressTranslator} {e : Failure} :
      r.ipv4Net.contains c.getDestinationIP = false → r.parent = some parent → r.nat = some nat →
      nat.translateOutbound now c = some (nat', .error e) →
      Routes r now c { r with nat := some nat', halted := true } (.error (.failed e))
  | untranslated {parent : Nat} {nat nat' : NetworkAddressTranslator} :
      r.ipv4Net.contains c.getDestinationIP = false → r.parent = some parent → r.nat = some nat →
      nat.translateOutbound now c = some (nat', .ok none) →
      Routes r now c { r with nat := some nat' } (.error .untranslated)
  | toParent {parent : Nat} {nat nat' : NetworkAddressTranslator} {c' : Chunk} :
      r.ipv4Net.contains c.getDestinationIP = false → r.parent = some parent → r.nat = some nat →
      nat.translateOutbound now c = some (nat', .ok (some c')) →
      Routes r now c { r with nat := some nat' } (.ok (.toRouter parent c'))

/-- Routing a chunk is one of the listed cases. -/
theorem Router.route_cases {r r' : Router} {now : Int} {c : Chunk}
    {result : Except Fate Handover} (h : r.route now c = some (r', result)) :
    r.Routes now c r' result := by
  unfold Router.route at h
  split at h
  next hblocked =>
    cases h
    exact .blocked (by simpa using hblocked)
  · split at h
    next hinside =>
      split at h
      next hnone =>
        cases h
        exact .unreachable hinside hnone
      next nic hsome =>
        cases h
        exact .toNIC hinside hsome
    next houtside =>
      rw [Bool.not_eq_true] at houtside
      split at h
      next hparent =>
        cases h
        exact .noRoute houtside hparent
      next parent hparent =>
        split at h
        · cases h
        next nat hnat =>
          split at h
          · cases h
          next htranslate =>
            cases h
            exact .failed houtside hparent hnat htranslate
          next htranslate =>
            cases h
            exact .untranslated houtside hparent hnat htranslate
          next htranslate =>
            cases h
            exact .toParent houtside hparent hnat htranslate

/-- Routing a chunk changes the translator of the router at most, and may halt it. -/
theorem route_frame {r r' : Router} {now : Int} {c : Chunk} {result : Except Fate Handover}
    (h : r.route now c = some (r', result)) :
    ∃ nat halted, r' = { r with nat, halted } := by
  cases Router.route_cases h <;> exact ⟨_, _, rfl⟩

namespace Routers

variable {rs rs' : Routers} {i : Nat} {entered now : Int} {o : Outcome}

/-- The ways through one iteration of the loop of `processChunks`. -/
inductive Processes (rs : Routers) (i : Nat) (now : Int) : Routers → Outcome → Prop
  | idle : Processes rs i now rs .idle
  | finished {c : Chunk} {queue : ChunkQueue} {r : Router} {fate : Fate} :
      (rs i).pending = none → (rs i).queue.chunks = c :: queue.chunks →
      { rs i with queue := queue }.route now c = some (r, .error fate) →
      Processes rs i now (rs.set i r) (.finished i fate c)
  | routed {c : Chunk} {queue : ChunkQueue} {r : Router} {handover : Handover} :
      (rs i).pending = none → (rs i).queue.chunks = c :: queue.chunks →
      { rs i with queue := queue }.route now c = some (r, .ok handover) →
      Processes rs i now (rs.set i { r with pending := some handover }) (.routed i c)

/-- So is a call of `processChunks`. -/
theorem process_cases (h : rs.process i entered now = some (rs', o)) :
    Processes rs i now rs' o := by
  unfold process at h
  split at h
  · cases h
    exact .idle
  next hfree =>
    have hpending : (rs i).pending = none := by
      cases hp : (rs i).pending with
      | none => rfl
      | some handover => simp [hp] at hfree
    split at h
    · cases h
      exact .idle
    · split at h
      · cases h
        exact .idle
      · split at h
        · cases h
          exact .idle
        next c queue hpop =>
          have hchunks : (rs i).queue.chunks = c :: queue.chunks := by
            unfold ChunkQueue.pop at hpop
            split at hpop
            · cases hpop
            next hchunks =>
              cases hpop
              exact hchunks
          split at h
          · cases h
          next hroute =>
            cases h
            exact .finished hpending hchunks hroute
          next hroute =>
            cases h
            exact .routed hpending hchunks hroute

/-- The ways through the next call that a router's goroutine makes outside its mutex. -/
inductive HandsOver (rs : Routers) (i : Nat) (now : Int) : Routers → Outcome → Prop
  | idle : (rs i).pending = none → HandsOver rs i now rs .idle
  | delivered {host : Nat} {c : Chunk} : (rs i).pending = some (.toNIC (.host host) c) →
      HandsOver rs i now (rs.setPending i none) (.finished i (.delivered host) c)
  | refused {k : Nat} {c : Chunk} {nat nat' : NetworkAddressTranslator} {e : Failure} :
      (rs i).pending = some (.toNIC (.router k) c) → (rs k).nat = some nat →
      nat.translateInbound now c = (nat', .error e) →
      HandsOver rs i now ((rs.setNAT k nat').setPending i none) (.finished i (.refused k e) c)
  | translated {k : Nat} {c c' : Chunk} {nat nat' : NetworkAddressTranslator} :
      (rs i).pending = some (.toNIC (.router k) c) → (rs k).nat = some nat →
      nat.translateInbound now c = (nat', .ok (some c')) →
      HandsOver rs i now ((rs.setNAT k nat').setPending i (some (.toRouter k c'))) (.routed i c)
  | forwarded {k : Nat} {c : Chunk} {queue : ChunkQueue} :
      (rs i).pending = some (.toRouter k c) →
      queue.chunks = (rs.setPending i none k).queue.chunks ++ [c.setTimestamp now] →
      HandsOver rs i now
        ((rs.setPending i none).set k { rs.setPending i none k with queue := queue })
        (.forwarded i k c)
  | dropped {k : Nat} {c : Chunk} : (rs i).pending = some (.toRouter k c) →
      HandsOver rs i now (rs.setPending i none) (.finished i (.dropped k) c)

/-- So is a hand-over. -/
theorem handOver_cases (h : rs.handOver i now = some (rs', o)) : HandsOver rs i now rs' o := by
  unfold handOver at h
  split at h
  next hpending =>
    cases h
    exact .idle hpending
  next hpending =>
    cases h
    exact .delivered hpending
  next k c hpending =>
    split at h
    · cases h
    next nat hnat =>
      split at h
      next htranslate =>
        cases h
        exact .refused hpending hnat htranslate
      · cases h
      next htranslate =>
        cases h
        exact .translated hpending hnat htranslate
  next k c hpending =>
    rcases Router.push_cases (rs.setPending i none k) now c with
      ⟨queue, hpush, hqueue, -⟩ | ⟨hpush, -⟩
    · rw [hpush] at h
      cases h
      exact .forwarded hpending hqueue
    · rw [hpush] at h
      cases h
      have hset : (rs.setPending i none).set k (rs.setPending i none k) = rs.setPending i none :=
        Function.update_eq_self k _
      rw [hset]
      exact .dropped hpending

end Routers

end PionTransport.Vnet
