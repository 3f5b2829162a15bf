import PionTransport.Vnet.Ordering

/-!
# Translations that fail end the loop

What becomes of a chunk for the router's own subnet is up to the filters and the
table of NICs, as long as the loop gets to it. It does while every chunk that
has to be translated can be: the translator has a mapping for it that has not
expired, or a port left. A translation that fails ends the goroutine, and
nothing is taken from the queue any more.
-/

namespace PionTransport.Vnet

open PionTransport.Core

namespace NetworkAddressTranslator

/-- The key under which a translator looks a chunk up. -/
def chunkKey (n : NetworkAddressTranslator) (c : Chunk) : String :=
  outboundKey c.network.string c.sourceAddr.string
    (endpointKey n.natType.mappingBehavior c.destinationAddr)

/-- The mapping of a chunk in the tables, unless it has expired. -/
def liveMapping (n : NetworkAddressTranslator) (now : Int) (c : Chunk) : Option Mapping :=
  (n.deref n.outboundMap (n.chunkKey c)).bind fun x =>
    if now > x.2.expires then none else some x.2

/-- A chunk can be translated: one to one, or by its mapping if that has an address, or by the
next port if there is one. -/
def Able (n : NetworkAddressTranslator) (now : Int) (c : Chunk) : Prop :=
  match n.natType.mode, n.liveMapping now c with
  | .natModeNAT1To1, _ => True
  | .natModeNormal, some m => (resolveAddr m.mapped).isSome = true
  | .natModeNormal, none => portBase c.network + n.portCounter c.network ≤ 65535

instance (n : NetworkAddressTranslator) (now : Int) (c : Chunk) : Decidable (n.Able now c) := by
  unfold Able
  split <;> infer_instance

section Able

variable {n : NetworkAddressTranslator} {now : Int} {c : Chunk}

theorem findOutboundMapping_live {m : Mapping} (h : n.liveMapping now c = some m) :
    ∃ n' p, n.findOutboundMapping now (n.chunkKey c) =
      (n', some (p, { m with expires := now + n.natType.mappingLifeTime })) := by
  obtain ⟨⟨p, m'⟩, hderef, hlive⟩ := Option.bind_eq_some_iff.mp h
  split at hlive
  · cases hlive
  next hexpires =>
    cases hlive
    simp only [findOutboundMapping, hderef, if_neg hexpires]
    exact ⟨_, p, rfl⟩

theorem findOutboundMapping_dead (h : n.liveMapping now c = none) :
    ∃ n', n.findOutboundMapping now (n.chunkKey c) = (n', none) ∧ n'.mappedIPs = n.mappedIPs ∧
      ∀ network, n'.portCounter network = n.portCounter network := by
  unfold findOutboundMapping
  split
  · exact ⟨n, rfl, rfl, fun _ => rfl⟩
  next p m hderef =>
    have hexpired : now > m.expires := by
      by_contra hexpires
      simp [liveMapping, hderef, hexpires] at h
    refine ⟨n.removeMapping m, if_pos hexpired, rfl, fun network => ?_⟩
    cases network <;> rfl

/-- The end of an outbound translation succeeds if the mapped address resolves. -/
theorem setMappedSource_cases (n : NetworkAddressTranslator) (c : Chunk) (mapped : String) :
    (resolveAddr mapped).isSome = true ∧
        (∃ translated, n.setMappedSource c mapped = (n, .ok translated)) ∨
      (resolveAddr mapped).isSome = false ∧
        ∃ e, n.setMappedSource c mapped = (n, .error e) := by
  cases hresolve : resolveAddr mapped with
  | none =>
    refine .inr ⟨rfl, NATError.unresolvedAddress.failure, ?_⟩
    simp only [setMappedSource, Chunk.setSourceAddr, hresolve, Option.map_none]
  | some addr =>
    refine .inl ⟨rfl, some (c.clone.withSource addr), ?_⟩
    simp only [setMappedSource, Chunk.setSourceAddr, hresolve, Option.map_some]

/-- One to one translations do not fail. -/
theorem translateOutboundNAT1To1_succeeds (n : NetworkAddressTranslator) (c : Chunk) :
    ∃ n' translated, n.translateOutboundNAT1To1 c = (n', .ok translated) := by
  unfold translateOutboundNAT1To1
  split
  · exact ⟨_, _, rfl⟩
  next srcIP _ =>
    have hport : c.sourceAddr.port.toNat ≤ 65535 := Nat.le_of_lt_succ c.sourceAddr.port.toNat_lt
    obtain ⟨-, translated, ht⟩ | ⟨hnone, -⟩ :=
      n.setMappedSource_cases c (hostPort srcIP c.sourceAddr.port.toNat)
    · exact ⟨_, _, ht⟩
    · rw [resolveAddr_hostPort srcIP hport] at hnone
      cases hnone

/-- A translation by a mapping. -/
theorem translateOutboundNAPT_live {m : Mapping} (h : n.liveMapping now c = some m) :
    ∃ n' : NetworkAddressTranslator,
      n.translateOutboundNAPT now c c.network (portBase c.network) =
        some (n'.setMappedSource c m.mapped) := by
  obtain ⟨n', p, hfind⟩ := findOutboundMapping_live h
  unfold chunkKey at hfind
  simp only [translateOutboundNAPT, hfind]
  exact ⟨_, rfl⟩

/-- A translation that needs a new mapping. -/
theorem translateOutboundNAPT_dead (hips : n.mappedIPs ≠ []) (h : n.liveMapping now c = none) :
    (portBase c.network + n.portCounter c.network ≤ 65535 ∧
      ∃ n' translated, n.translateOutboundNAPT now c c.network (portBase c.network) =
        some (n', .ok translated)) ∨
    (65535 < portBase c.network + n.portCounter c.network ∧
      ∃ n', n.translateOutboundNAPT now c c.network (portBase c.network) =
        some (n', .error NATError.portSpaceExhausted.failure)) := by
  obtain ⟨n', hfind, hips', hcounter⟩ := findOutboundMapping_dead h
  unfold chunkKey at hfind
  simp only [translateOutboundNAPT, hfind, hcounter]
  by_cases hport : portBase c.network + n.portCounter c.network > 65535
  · exact .inr ⟨hport, n', if_pos hport⟩
  · refine .inl ⟨Nat.le_of_not_lt hport, ?_⟩
    obtain ⟨ip, ips, hcons⟩ := List.exists_cons_of_ne_nil hips
    rw [if_neg hport, mappedIPs_countPort, hips', hcons]
    simp only [List.length_cons, Nat.zero_lt_succ, getElem?_pos, List.getElem_cons_zero,
      Option.bind_eq_bind, Option.bind_some, Option.pure_def]
    obtain ⟨-, translated, ht⟩ | ⟨hnone, -⟩ := setMappedSource_cases _ c
      (hostPort ip (portBase c.network + n.portCounter c.network))
    · exact ⟨_, _, congrArg some ht⟩
    · rw [resolveAddr_hostPort ip (Nat.le_of_not_lt hport)] at hnone
      cases hnone

/-- A translator with an address translates exactly the chunks that it is able to. -/
theorem translateOutbound_cases (now : Int) (c : Chunk) (hips : n.mappedIPs ≠ []) :
    n.Able now c ∧ (∃ n' translated, n.translateOutbound now c = some (n', .ok translated)) ∨
      ¬ n.Able now c ∧ ∃ n' e, n.translateOutbound now c = some (n', .error e) := by
  unfold Able translateOutbound
  cases n.natType.mode with
  | natModeNAT1To1 =>
    obtain ⟨n', translated, ht⟩ := n.translateOutboundNAT1To1_succeeds c
    exact .inl ⟨trivial, n', translated, congrArg some ht⟩
  | natModeNormal =>
    cases hlive : n.liveMapping now c with
    | some m =>
      obtain ⟨n', ht⟩ := translateOutboundNAPT_live hlive
      obtain ⟨hresolve, translated, hset⟩ | ⟨hresolve, e, hset⟩ :=
        n'.setMappedSource_cases c m.mapped
      · exact .inl ⟨hresolve, n', translated, ht.trans (congrArg some hset)⟩
      · exact .inr ⟨by simp [hresolve], n', e, ht.trans (congrArg some hset)⟩
    | none =>
      obtain hok | ⟨hport, n', ht⟩ := translateOutboundNAPT_dead hips hlive
      · exact .inl hok
      · exact .inr ⟨Nat.not_le.mpr hport, n', _, ht⟩

end Able

end NetworkAddressTranslator

namespace Router

/-- What becomes of a chunk for the router's own subnet. -/
def deliver (r : Router) (c : Chunk) : Except Fate Handover :=
  if ¬ r.chunkFilters.all (fun filter => filter c) then .error .blocked
  else
    match r.nics.lookup c.getDestinationIP.string with
    | none => .error .unreachable
    | some nic => .ok (.toNIC nic c)

/-- A chunk has to be translated for the parent. -/
def outbound (r : Router) (c : Chunk) : Bool :=
  r.chunkFilters.all (fun filter => filter c) && !r.ipv4Net.contains c.getDestinationIP &&
    r.parent.isSome

/-- If a chunk has to be translated, it can be. -/
def Able (r : Router) (now : Int) (c : Chunk) : Prop :=
  r.outbound c = true → ∃ nat ∈ r.nat, nat.mappedIPs ≠ [] ∧ nat.Able now c

instance (r : Router) (now : Int) (c : Chunk) : Decidable (r.Able now c) :=
  inferInstanceAs (Decidable (_ → ∃ nat ∈ r.nat, _))

section Route

variable {r : Router} {now : Int} {c : Chunk}

theorem route_local {r' : Router} {result : Except Fate Handover}
    (hroute : r.route now c = some (r', result))
    (h : r.ipv4Net.contains c.getDestinationIP = true) : result = r.deliver c := by
  unfold route at hroute
  unfold deliver
  split at hroute
  next hblocked =>
    cases hroute
    rw [if_pos hblocked]
  next hpassed =>
    rw [if_neg hpassed]
    cases hnic : r.nics.lookup c.getDestinationIP.string with
    | none | some =>
      simp only [hnic] at hroute
      cases hroute
      rfl

/-- A chunk that is not translated does not fail. -/
theorem route_inside (h : r.outbound c = false) :
    ∃ r' result, r.route now c = some (r', result) ∧ ∀ e, result ≠ .error (.failed e) := by
  unfold route
  split
  · exact ⟨_, _, rfl, nofun⟩
  next hfilters =>
    split
    · split
      · exact ⟨_, _, rfl, nofun⟩
      · exact ⟨_, _, rfl, nofun⟩
    next houtside =>
      split
      · exact ⟨_, _, rfl, nofun⟩
      next parent hparent =>
        simp_all [outbound]

/-- A chunk that is translated. -/
theorem route_outbound (now : Int) (h : r.outbound c = true) {nat : NetworkAddressTranslator}
    (hnat : r.nat = some nat) (hips : nat.mappedIPs ≠ []) :
    nat.Able now c ∧
        (∃ r' result, r.route now c = some (r', result) ∧ ∀ e, result ≠ .error (.failed e)) ∨
      ¬ nat.Able now c ∧ ∃ r' e, r.route now c = some (r', .error (.failed e)) := by
  simp only [outbound, Bool.and_eq_true, Bool.not_eq_true', Option.isSome_iff_exists] at h
  obtain ⟨⟨hfilters, houtside⟩, parent, hparent⟩ := h
  unfold route
  rw [if_neg (not_not.mpr hfilters), if_neg (by simp [houtside]), hparent, hnat]
  obtain ⟨hable, nat', translated, ht⟩ | ⟨hable, nat', e, ht⟩ :=
    NetworkAddressTranslator.translateOutbound_cases now c hips
  · refine .inl ⟨hable, ?_⟩
    simp only [ht]
    cases translated with
    | none | some => exact ⟨_, _, rfl, nofun⟩
  · refine .inr ⟨hable, ?_⟩
    simp only [ht]
    exact ⟨_, e, rfl⟩

theorem route_able (h : r.Able now c) :
    ∃ r' result, r.route now c = some (r', result) ∧ ∀ e, result ≠ .error (.failed e) := by
  cases hout : r.outbound c with
  | false => exact route_inside hout
  | true =>
    obtain ⟨nat, hnat, hips, hable⟩ := h hout
    obtain ⟨-, hroute⟩ | ⟨hunable, -⟩ := route_outbound now hout hnat hips
    · exact hroute
    · exact absurd hable hunable

end Route

end Router

/-- The step does not take a chunk that has to be translated and cannot be. -/
def Loop.Able (l : Loop) : LoopEvent → Prop
  | .scan now =>
    match l.pc, l.router.queue.peek with
    | .scanning enteredAt, some c =>
      c.getTimestamp + l.router.minDelay ≤ enteredAt → l.router.Able now c
    | _, _ => True
  | _ => True

instance (l : Loop) (e : LoopEvent) : Decidable (l.Able e) := by
  unfold Loop.Able
  split
  · split <;> infer_instance
  · infer_instance

/-- Iterations of the loop of `processChunks`, with the calls that they make. -/
def rounds (nows : List Int) : List LoopEvent := nows.flatMap fun now => [.scan now, .back]

section Rounds

variable {l : Loop} {enteredAt now : Int} {c : Chunk} {rest : List Chunk}

/-- An iteration that finds a due chunk at the head of the queue routes it. -/
theorem step_scan (now : Int) (hpc : l.pc = .scanning enteredAt)
    (hchunks : l.router.queue.chunks = c :: rest)
    (hdue : c.getTimestamp + l.router.minDelay ≤ enteredAt) :
    ∃ queue, queue.chunks = rest ∧ ∀ router result,
      { l.router with queue }.route now c = some (router, result) →
      l.step (.scan now) =
        some ({ l with router, pc := .after enteredAt result }, .taken enteredAt c result) := by
  have hpeek : l.router.queue.peek = some c := by rw [ChunkQueue.peek, hchunks]; rfl
  have hlate : ¬ c.getTimestamp > enteredAt - l.router.minDelay := by omega
  let queue : ChunkQueue :=
    { l.router.queue with
      chunks := rest, currentBytes := l.router.queue.currentBytes - c.userData.length }
  have hpop : l.router.queue.pop = some (c, queue) := by rw [ChunkQueue.pop, hchunks]
  refine ⟨queue, rfl, fun router result hroute => ?_⟩
  simp only [Loop.step, hpc, Loop.scan, hpeek, if_neg hlate, hpop, hroute]

/-- An iteration on a due chunk that can be translated if it has to be. -/
theorem scan_due (hpc : l.pc = .scanning enteredAt) (hchunks : l.router.queue.chunks = c :: rest)
    (hdue : c.getTimestamp + l.router.minDelay ≤ enteredAt) (hable : l.Able (.scan now)) :
    ∃ l' queue nat halted result, l.step (.scan now) = some (l', .taken enteredAt c result) ∧
      l'.pc = .after enteredAt result ∧ l'.router = { l.router with queue, nat, halted } ∧
      queue.chunks = rest ∧ (∀ e, result ≠ .error (.failed e)) ∧
      (l.router.ipv4Net.contains c.getDestinationIP = true → result = l.router.deliver c) := by
  have hpeek : l.router.queue.peek = some c := by rw [ChunkQueue.peek, hchunks]; rfl
  simp only [Loop.Able, hpc, hpeek] at hable
  obtain ⟨queue, hrest, hstep⟩ := step_scan now hpc hchunks hdue
  have hable : { l.router with queue := queue }.Able now c := hable hdue
  obtain ⟨router, result, hroute, hresult⟩ := Router.route_able hable
  have hscan := hstep router result hroute
  have hlocal := Router.route_local hroute
  obtain ⟨nat, halted, rfl⟩ := route_frame hroute
  exact ⟨_, queue, nat, halted, result, hscan, rfl, rfl, hrest, hresult, hlocal⟩

/-- After an iteration that has not failed, the call that it may have made returns. -/
theorem back_after {result : Except Fate Handover} (hpc : l.pc = .after enteredAt result)
    (hresult : ∀ e, result ≠ .error (.failed e)) :
    ∃ o, l.step .back = some ({ l with pc := .scanning enteredAt }, o) ∧ o.taken? = none := by
  obtain ⟨router, pushCh, cancelled, pc⟩ := l
  cases hpc
  cases result with
  | ok call => exact ⟨.moved, rfl, rfl⟩
  | error fate =>
    cases fate with
    | failed e => exact absurd rfl (hresult e)
    | blocked | unreachable | noRoute | untranslated | refused | dropped | delivered =>
      exact ⟨.blocked, rfl, rfl⟩

/-- Each round takes the next due chunk. -/
theorem rounds_take (due : List Chunk) {nows : List Int} (hlength : nows.length = due.length)
    (hpc : l.pc = .scanning enteredAt) (hchunks : l.router.queue.chunks = due ++ rest)
    (hdue : ∀ c ∈ due, c.getTimestamp + l.router.minDelay ≤ enteredAt)
    (hable : Along Loop.step Loop.Able l (rounds nows)) :
    ∃ l' os queue nat halted, run Loop.step l (rounds nows) = some (l', os) ∧
      l'.pc = .scanning enteredAt ∧ l'.router = { l.router with queue, nat, halted } ∧
      queue.chunks = rest ∧ os.filterMap LoopOutcome.taken? = due ∧
      ∀ c ∈ due, l.router.ipv4Net.contains c.getDestinationIP = true →
        .taken enteredAt c (l.router.deliver c) ∈ os := by
  induction due generalizing l nows with
  | nil =>
    obtain rfl := List.length_eq_zero_iff.mp hlength
    exact ⟨l, [], l.router.queue, l.router.nat, l.router.halted, rfl, hpc, rfl, hchunks, rfl, nofun⟩
  | cons c due ih =>
    obtain ⟨now, nows, rfl⟩ := List.exists_cons_of_length_eq_add_one hlength
    have hdue_c := hdue c List.mem_cons_self
    obtain ⟨l₁, queue, nat, halted, result, hstep, hpc₁, hrouter₁, hrest, hresult, hlocal⟩ :=
      scan_due hpc hchunks hdue_c hable.1
    obtain ⟨-, hable₁⟩ := along_cons hable hstep
    obtain ⟨o, hback, ho⟩ := back_after hpc₁ hresult
    obtain ⟨-, hable₂⟩ := along_cons hable₁ hback
    obtain ⟨l', os, queue', nat', halted', hrun, hpc', hrouter, hrest', htaken, hlocals⟩ :=
      ih (Nat.succ.inj hlength) rfl (by rw [hrouter₁]; exact hrest)
        (fun d hd => by rw [hrouter₁]; exact hdue d (List.mem_cons_of_mem _ hd)) hable₂
    rw [hrouter₁] at hrouter hlocals
    refine ⟨l', .taken enteredAt c result :: o :: os, queue', nat', halted',
      run_cons_some hstep (run_cons_some hback hrun), hpc', hrouter, hrest', ?_, ?_⟩
    · have hc : (LoopOutcome.taken enteredAt c result).taken? = some c := rfl
      rw [List.filterMap_cons_some hc, List.filterMap_cons_none ho, htaken]
    · intro d hd hd_local
      obtain rfl | hd := List.mem_cons.mp hd
      · rw [hlocal hd_local]
        exact List.mem_cons_self
      · exact List.mem_cons_of_mem _ (List.mem_cons_of_mem _ (hlocals d hd hd_local))

end Rounds

/-- What a run from the router `r` with the outputs `os` leads to while translations succeed. -/
structure Undisturbed (r : Router) (os : List LoopOutcome) (l : Loop) : Prop where
  router : ∃ queue nat halted started, l.router = { r with queue, nat, halted, started }
  ended : l.pc = .ended → l.cancelled = true
  delivers : ∀ enteredAt c result, .taken enteredAt c result ∈ os →
    r.ipv4Net.contains c.getDestinationIP = true → result = r.deliver c

section Runs

variable {r : Router} {os : List LoopOutcome} {l l' : Loop} {e : LoopEvent} {o : LoopOutcome}

/-- A step that takes no chunk. -/
theorem Undisturbed.quiet (h : Undisturbed r os l) (htaken : o.taken? = none)
    (hrouter : ∃ queue nat halted started, l'.router = { r with queue, nat, halted, started })
    (hended : l'.pc = .ended → l'.cancelled = true) : Undisturbed r (os ++ [o]) l' := by
  refine ⟨hrouter, hended, fun enteredAt c result hmem => ?_⟩
  obtain hmem | hmem := List.mem_append.mp hmem
  · exact h.delivers enteredAt c result hmem
  · cases List.mem_singleton.mp hmem
    cases htaken

theorem Undisturbed.step (h : Undisturbed r os l) (hable : l.Able e)
    (ht : LoopTransition l e l' o) : Undisturbed r (os ++ [o]) l' := by
  obtain ⟨queue, nat, halted, started, hr⟩ := h.router
  have hsame : ∃ queue nat halted started, l.router = { r with queue, nat, halted, started } :=
    h.router
  cases ht with
  | blocked | dropped => exact h.quiet rfl hsame h.ended
  | pushed => exact h.quiet rfl ⟨_, nat, halted, started, by rw [hr]⟩ h.ended
  | inbound => exact h.quiet rfl ⟨queue, _, halted, started, by rw [hr]⟩ h.ended
  | @taken now enteredAt c queue' router result hpc hchunks hdue hroute =>
    have hpeek : l.router.queue.peek = some c := by rw [ChunkQueue.peek, hchunks]; rfl
    simp only [Loop.Able, hpc, hpeek] at hable
    have hable : { l.router with queue := queue' }.Able now c := hable hdue
    refine ⟨?_, fun hended => ?_, fun enteredAt' c' result' hmem hlocal => ?_⟩
    · obtain ⟨nat', halted', rfl⟩ := route_frame hroute
      exact ⟨queue', nat', halted', started, by rw [hr]⟩
    · -- only a failed translation ends the loop here
      obtain ⟨router', result', hroute', hresult⟩ := Router.route_able hable
      rw [hroute] at hroute'
      cases hroute'
      change LoopAt.after enteredAt result = .ended at hended
      unfold LoopAt.after at hended
      split at hended
      · cases hended
      · exact absurd rfl (hresult _)
      · cases hended
    · obtain hmem | hmem := List.mem_append.mp hmem
      · exact h.delivers enteredAt' c' result' hmem hlocal
      · cases List.mem_singleton.mp hmem
        rw [Router.route_local hroute (by rw [hr]; exact hlocal), hr]
        rfl
  | enter | drained | early | back | wake | tick => exact h.quiet rfl hsame (by simp)
  | stop => exact h.quiet rfl ⟨queue, nat, halted, _, by rw [hr]⟩ fun _ => rfl
  | cancel hcancelled => exact h.quiet rfl hsame fun _ => hcancelled

theorem Undisturbed.run {es : List LoopEvent} {os' : List LoopOutcome} (h : Undisturbed r os l)
    (hable : Along Loop.step Loop.Able l es) (hrun : run Loop.step l es = some (l', os')) :
    Undisturbed r (os ++ os') l' :=
  keeps_outputs (fun h hable hstep => Undisturbed.step h hable (step_transition hstep)) os h hable
    hrun

/-- A goroutine that has left its loop takes no chunk. -/
theorem ended_run {es : List LoopEvent} (hended : l.pc = .ended)
    (hrun : Core.run Loop.step l es = some (l', os)) :
    l'.pc = .ended ∧ os.filterMap LoopOutcome.taken? = [] := by
  induction hrun using run_induct with
  | nil => exact ⟨hended, rfl⟩
  | @cons _ _ l₁ o _ _ hstep _ ih =>
    have hstays : l₁.pc = .ended ∧ o.taken? = none := by
      cases step_transition hstep with
      | blocked | pushed | dropped | inbound | stop => exact ⟨hended, rfl⟩
      | cancel => exact ⟨rfl, rfl⟩
      | enter hpc | drained hpc | early hpc | taken hpc | back hpc | wake hpc | tick hpc =>
        rw [hended] at hpc
        cases hpc
    obtain ⟨hended', htaken⟩ := ih hstays.1
    exact ⟨hended', by rw [List.filterMap_cons_none hstays.2, htaken]⟩

end Runs

/-- While the chunks that have to be translated can be, the loop reaches every due chunk, what
becomes of a chunk for the own subnet is up to filters and NICs, and only `Stop` ends the loop. -/
theorem translations_stay_apart (l : Loop) :
    (∀ enteredAt before c after nows, l.pc = .scanning enteredAt →
      l.router.queue.chunks = before ++ c :: after →
      (∀ d ∈ before ++ [c], d.getTimestamp + l.router.minDelay ≤ enteredAt) →
      l.router.ipv4Net.contains c.getDestinationIP = true →
      nows.length = (before ++ [c]).length → Along Loop.step Loop.Able l (rounds nows) →
      ∃ l' os, run Loop.step l (rounds nows) = some (l', os) ∧
        os.filterMap LoopOutcome.taken? = before ++ [c] ∧
        .taken enteredAt c (l.router.deliver c) ∈ os ∧ l'.pc = .scanning enteredAt ∧
        l'.router.queue.chunks = after ∧ ∀ d, l'.router.deliver d = l.router.deliver d) ∧
    ∀ es l' os, l.pc = .entering → Along Loop.step Loop.Able l es →
      run Loop.step l es = some (l', os) →
      l.router.queue.chunks ++ os.filterMap LoopOutcome.pushed? =
          os.filterMap LoopOutcome.taken? ++ l'.router.queue.chunks ∧
        (∀ enteredAt c result, .taken enteredAt c result ∈ os →
          l.router.ipv4Net.contains c.getDestinationIP = true → result = l.router.deliver c) ∧
        (l'.pc = .ended → l'.cancelled = true) ∧
        (l'.pc = .parked → l'.router.queue.chunks ≠ [] → l'.pushCh = true) := by
  refine ⟨?_, ?_⟩
  · intro enteredAt before c after nows hpc hchunks hdue hlocal hlength hable
    obtain ⟨l', os, queue, nat, halted, hrun, hpc', hrouter, hrest, htaken, hlocals⟩ :=
      rounds_take (before ++ [c]) hlength hpc (by rw [hchunks, List.append_assoc]; rfl) hdue hable
    refine ⟨l', os, hrun, htaken, hlocals c (by simp) hlocal, hpc', ?_, fun d => ?_⟩
    · rw [hrouter]
      exact hrest
    · rw [hrouter]
      rfl
  · intro es l' os hpc hable hrun
    have hended : l.pc ≠ .ended := by simp [hpc]
    have hparked : l.pc ≠ .parked := by simp [hpc]
    have h₀ : Undisturbed l.router [] l :=
      ⟨⟨_, _, _, _, rfl⟩, fun h => absurd h hended, fun _ _ _ hmem => by cases hmem⟩
    have horder₀ : InOrder l.router.queue.chunks l.router.minDelay [] l :=
      ⟨rfl, by simp, fun _ _ _ hmem => (by cases hmem), fun h => absurd h hparked⟩
    have h := h₀.run hable hrun
    have horder := horder₀.run hrun
    rw [List.nil_append] at h horder
    exact ⟨horder.order, h.delivers, h.ended, horder.awake⟩

/-- A loop that finds a chunk for the outside and one for the host of the subnet, both due. -/
def mixed (router : Router) : Loop where
  router := { router with
    queue := ⟨[lanChunk ⟨8, 8, 8, 8⟩ "a", lanChunk ⟨10, 0, 0, 1⟩ "b"], 0, 0, 0⟩ }
  pc := .scanning 10

theorem translations_stay_apart_mixed :
    ∃ l os, run Loop.step (mixed lan) (rounds [10, 11]) = some (l, os) ∧
      os.filterMap LoopOutcome.taken? =
        [lanChunk ⟨8, 8, 8, 8⟩ "a", lanChunk ⟨10, 0, 0, 1⟩ "b"] ∧
      .taken 10 (lanChunk ⟨10, 0, 0, 1⟩ "b")
        (.ok (.toNIC (.host 0) (lanChunk ⟨10, 0, 0, 1⟩ "b"))) ∈ os := by
  obtain ⟨hreached, -⟩ := translations_stay_apart (mixed lan)
  have hdeliver : (mixed lan).router.deliver (lanChunk ⟨10, 0, 0, 1⟩ "b") =
      .ok (.toNIC (.host 0) (lanChunk ⟨10, 0, 0, 1⟩ "b")) := by decide +kernel
  obtain ⟨l, os, hrun, htaken, hmem, -⟩ :=
    hreached 10 [lanChunk ⟨8, 8, 8, 8⟩ "a"] (lanChunk ⟨10, 0, 0, 1⟩ "b") [] [10, 11] rfl rfl
      (by decide +kernel) (by decide +kernel) rfl (by decide +kernel)
  rw [hdeliver] at hmem
  exact ⟨l, os, hrun, htaken, hmem⟩

/-- The router when its translator has given out all of its 16384 ports. -/
def worn : Router :=
  { lan with nat := lan.nat.map fun nat => { nat with udpPortCounter := 16384 } }

/-- The chunk for the outside finds no port left. The chunk for the host is due, it passes the
filters and the host is there, but the loop has ended and never takes it. -/
theorem exhausted_translation_ends_loop :
    ∃ l os c, run Loop.step (mixed worn) (rounds [10]) = some (l, os) ∧
      l.router.queue.chunks = [c] ∧ c.getTimestamp + l.router.minDelay ≤ 10 ∧
      l.router.ipv4Net.contains c.getDestinationIP = true ∧
      l.router.deliver c = .ok (.toNIC (.host 0) c) ∧
      ∀ es l' os', run Loop.step l es = some (l', os') →
        os'.filterMap LoopOutcome.taken? = [] := by
  have hends : (run Loop.step (mixed worn) (rounds [10])).map (fun r =>
      (r.1.pc, r.1.router.queue.chunks, r.1.router.minDelay)) =
        some (.ended, [lanChunk ⟨10, 0, 0, 1⟩ "b"], 5) := by decide +kernel
  have hdeliver : (run Loop.step (mixed worn) (rounds [10])).map (fun r =>
      (r.1.router.ipv4Net.contains ⟨10, 0, 0, 1⟩,
        r.1.router.deliver (lanChunk ⟨10, 0, 0, 1⟩ "b"))) =
          some (true, .ok (.toNIC (.host 0) (lanChunk ⟨10, 0, 0, 1⟩ "b"))) := by decide +kernel
  obtain ⟨⟨l, os⟩, hrun, hl⟩ := Option.map_eq_some_iff.mp hends
  rw [hrun] at hdeliver
  simp only [Prod.mk.injEq, Option.map_some, Option.some.injEq] at hl hdeliver
  refine ⟨l, os, _, hrun, hl.2.1, ?_, hdeliver.1, hdeliver.2, fun es l' os' hrun' => ?_⟩
  · rw [hl.2.2]
    decide
  · exact (ended_run hl.1 hrun').2

end PionTransport.Vnet
