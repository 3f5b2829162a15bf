import PionTransport.Netchange.Detector

/-!
# No change is lost

The lists that the calls of `Check` return are the successive differences of the
snapshots that they report, starting from the empty one: the reference snapshot
moves only together with a returned list. In between, a consumed notification
keeps the detector from waiting until it has enumerated again.

All of this needs that an index names one interface. Where several interfaces
that pass the filter share an index, the reference snapshot can move without a
report.
-/

namespace PionTransport.Netchange

open PionTransport.Core

variable {π ε : Type} [DecidableEq π]

/-- No two interfaces that pass the filter share an index. -/
def Distinct (filter : Option (String → Bool)) (interfaces : List (InterfaceState π)) : Prop :=
  (indices (normalize interfaces filter)).Nodup

instance (filter : Option (String → Bool)) (interfaces : List (InterfaceState π)) :
    Decidable (Distinct filter interfaces) :=
  inferInstanceAs (Decidable (List.Nodup _))

/-- What an event enumerates has distinct indices. -/
def Event.Distinct (filter : Option (String → Bool)) : Event π ε → Prop
  | .enumerate (.ok interfaces) => Netchange.Distinct filter interfaces
  | .check _ | .cancel _ | .loop | .drain .. | .look | .enumerate (.error _) | .compare | .wait _
  | .close _ => True

instance (filter : Option (String → Bool)) (e : Event π ε) : Decidable (e.Distinct filter) := by
  unfold Event.Distinct
  split <;> infer_instance

/-- Whether a notification, a wake-up or a drain error has been consumed since the last
comparison. -/
def consume (d : Detector π ε) (e : Event π ε) (o : Outcome ε) (consumed : Bool) : Bool :=
  match o, e, d.checking with
  | .blocked, _, _ => consumed
  | _, .drain notified err, _ => consumed || notified || err.isSome
  | _, .wait _, _ => consumed || d.source
  | _, .compare, some ⟨none, .enumerated (.ok _)⟩ => false
  | _, _, _ => consumed

/-- The run beside that history. -/
abbrev watch : Detector π ε × Bool → Event π ε → Option ((Detector π ε × Bool) × Outcome ε) :=
  observe Detector.step fun d consumed e => consume d e (d.handle e).2 consumed

/-- The lists are the successive differences on the way from one snapshot to another. -/
inductive Reported : List (InterfaceState π) → List (List Change) → List (InterfaceState π) → Prop
  | nil {s} : Reported s [] s
  | snoc {s t u ls l} : Reported s ls t → Differs t u l → l ≠ [] → Reported s (ls ++ [l]) u

/-- What the outputs of a run have reported, and what the detector still has to report. -/
def Delivered (first : List (InterfaceState π)) (d : Detector π ε) (os : List (Outcome ε)) : Prop :=
  ∃ initial, Differs [] first initial ∧
    (os.filterMap Outcome.changes = [] ∧ d.initial = some initial ∧
        (d.closed = false → d.state.last = first) ∨
      ∃ later last, os.filterMap Outcome.changes = initial :: later ∧ d.initial = none ∧
        Reported first later last ∧ (d.closed = false → d.state.last = last))

/-- What holds of a `Check` under way. -/
structure Check.Ok (filter : Option (String → Bool)) (d : Detector π ε) (consumed : Bool)
    (c : Check π ε) : Prop where
  isOpen : d.closed = false
  delivered : c.pc ≠ .looping → d.initial = none
  distinct : ∀ interfaces, c.pc = .enumerated (.ok interfaces) → Distinct filter interfaces
  waiting : c.pc = .waiting → consumed = false ∧ d.pending = d.source

/-- The invariant. -/
structure Wf (filter : Option (String → Bool)) (d : Detector π ε) (consumed : Bool) : Prop where
  interfaceFilter : d.state.interfaceFilter = filter
  normal : Normal d.state.last
  pending : consumed = true → d.pending = true
  checking : ∀ c, d.checking = some c → c.Ok filter d consumed

section Invariant

variable {filter : Option (String → Bool)} {first : List (InterfaceState π)} {d d' : Detector π ε}
  {consumed : Bool} {e : Event π ε} {o : Outcome ε} {os : List (Outcome ε)}

theorem Wf.start (source platformTimeout : Bool) (hfirst : Distinct filter first) :
    Wf filter (start (ε := ε) source platformTimeout filter first) false where
  interfaceFilter := rfl
  normal := normal_normalize hfirst
  pending := nofun
  checking := nofun

/-- After an update the reference snapshot is normal again. -/
theorem Wf.normal_update (h : Wf filter d consumed) {interfaces : List (InterfaceState π)}
    (hd : Distinct filter interfaces) : Normal (d.state.update interfaces).1.last := by
  change Normal (normalize interfaces d.state.interfaceFilter)
  rw [h.interfaceFilter]
  exact normal_normalize hd

omit [DecidableEq π] in
/-- Moving the `Check` keeps the invariant if what holds under way holds at its new place. -/
theorem Wf.goto {c : Check π ε} (h : Wf filter d consumed)
    (hc : c.Ok filter { d with checking := some c } consumed) :
    Wf filter { d with checking := some c } consumed := by
  refine ⟨h.interfaceFilter, h.normal, h.pending, ?_⟩
  rintro _ ⟨⟩
  exact hc

theorem Wf.step (h : Wf filter d consumed) (he : e.Distinct filter) (ht : Transition d e d' o) :
    Wf filter d' (consume d e o consumed) := by
  cases ht with
  | blocked | refused | refusedClose => exact h
  | close _ hnone =>
    refine ⟨h.interfaceFilter, List.Pairwise.nil, h.pending, fun c hc => ?_⟩
    change d.checking = some c at hc
    rw [hnone] at hc
    cases hc
  | enter hopen hnone => exact h.goto ⟨hopen, fun hne => absurd rfl hne, nofun, nofun⟩
  | @cancel c _ hc =>
    obtain ⟨hopen, hdelivered, hdistinct, hwaiting⟩ := h.checking c hc
    exact h.goto ⟨hopen, hdelivered, hdistinct, hwaiting⟩
  | deliver hc hi => exact ⟨h.interfaceFilter, h.normal, h.pending, nofun⟩
  | refresh hc hi =>
    refine h.goto ⟨(h.checking _ hc).isOpen, fun _ => hi, fun interfaces hpc => ?_, fun hpc => ?_⟩
    all_goals
      change (if d.source then CheckAt.draining else .looking) = _ at hpc
      split at hpc <;> cases hpc
  | drainFailed hc => exact ⟨h.interfaceFilter, h.normal, fun _ => rfl, nofun⟩
  | notified hc =>
    have hok := h.checking _ hc
    refine ⟨h.interfaceFilter, h.normal, fun _ => rfl, ?_⟩
    rintro _ ⟨⟩
    exact ⟨hok.isOpen, fun _ => hok.delivered nofun, nofun, nofun⟩
  | unnotified hc hp =>
    have hok := h.checking _ hc
    have hconsumed : consumed = false := by
      by_contra hne
      rw [h.pending (by simpa using hne)] at hp
      cases hp
    subst hconsumed
    refine ⟨h.interfaceFilter, h.normal, nofun, ?_⟩
    rintro _ ⟨⟩
    exact ⟨hok.isOpen, fun _ => hok.delivered nofun, nofun, fun _ => ⟨rfl, rfl⟩⟩
  | look hc =>
    have hok := h.checking _ hc
    exact h.goto ⟨hok.isOpen, fun _ => hok.delivered nofun, nofun, nofun⟩
  | enumerate hc =>
    have hok := h.checking _ hc
    refine h.goto ⟨hok.isOpen, fun _ => hok.delivered nofun, ?_, nofun⟩
    rintro interfaces ⟨⟩
    exact he
  | fail hc hevent =>
    refine ⟨h.interfaceFilter, h.normal, fun hcons => h.pending ?_, nofun⟩
    obtain rfl | rfl | rfl := hevent
    · exact hcons
    · exact hcons
    · simp only [consume] at hcons
      split at hcons <;> simp_all
  | unchanged hc hnil =>
    have hok := h.checking _ hc
    refine ⟨h.interfaceFilter, h.normal_update (hok.distinct _ rfl), by simp [consume, hc], ?_⟩
    rintro _ ⟨⟩
    exact ⟨hok.isOpen, fun _ => hok.delivered nofun, nofun, fun _ => ⟨by simp [consume, hc], rfl⟩⟩
  | changed hc hne =>
    have hok := h.checking _ hc
    exact ⟨h.interfaceFilter, h.normal_update (hok.distinct _ rfl), by simp [consume, hc], nofun⟩
  | wake hc =>
    have hok := h.checking _ hc
    obtain ⟨rfl, hp⟩ := hok.waiting rfl
    refine ⟨h.interfaceFilter, h.normal, hp.trans, ?_⟩
    rintro _ ⟨⟩
    exact ⟨hok.isOpen, fun hne => absurd rfl hne, nofun, nofun⟩
  | waitFailed hc =>
    obtain ⟨rfl, hp⟩ := (h.checking _ hc).waiting rfl
    exact ⟨h.interfaceFilter, h.normal, hp.trans, nofun⟩

/-- A step that returns no changes leaves the initial list. -/
theorem Transition.initial (ht : Transition d e d' o) (ho : o.changes = none) :
    d'.initial = d.initial := by
  cases ht with
  | deliver => cases ho
  | blocked | refused | refusedClose | close | enter | cancel | refresh | drainFailed | notified
  | unnotified | look | enumerate | fail | unchanged | changed | wake | waitFailed => rfl

/-- A closed detector is not opened again. -/
theorem Transition.closed (ht : Transition d e d' o) (hopen : d'.closed = false) :
    d.closed = false := by
  cases ht with
  | close => cases hopen
  | blocked | refused | refusedClose | enter | cancel | deliver | refresh | drainFailed | notified
  | unnotified | look | enumerate | fail | unchanged | changed | wake | waitFailed => exact hopen

/-- A step that returns no changes and does not close leaves the reference snapshot. -/
theorem Wf.unreported (h : Wf filter d consumed) (ht : Transition d e d' o)
    (hclosed : d'.closed = d.closed) (ho : o.changes = none) : d'.state.last = d.state.last := by
  cases ht with
  | close hopen =>
    rw [hopen] at hclosed
    cases hclosed
  | changed => cases ho
  | @unchanged interfaces hc hnil =>
    have hspec := d.state.update_spec interfaces h.normal
      (by rw [h.interfaceFilter]; exact (h.checking _ hc).distinct _ rfl)
    exact hspec.2 hnil
  | blocked | refused | refusedClose | enter | cancel | deliver | refresh | drainFailed | notified
  | unnotified | look | enumerate | fail | wake | waitFailed => rfl

/-- A step that returns changes returns the initial list or the difference between the reference
snapshot and the one that was enumerated. -/
theorem Wf.reported (h : Wf filter d consumed) (ht : Transition d e d' o) {changes : List Change}
    (ho : o.changes = some changes) :
    d'.initial = none ∧ d.closed = false ∧
      (d.initial = some changes ∧ d'.state.last = d.state.last ∨
        d.initial = none ∧ changes ≠ [] ∧ Differs d.state.last d'.state.last changes ∧
          ∃ interfaces, d.checking = some ⟨none, .enumerated (.ok interfaces)⟩ ∧
            d'.state.last = normalize interfaces filter) := by
  cases ht with
  | deliver hc hi =>
    cases ho
    exact ⟨rfl, (h.checking _ hc).isOpen, .inl ⟨hi, rfl⟩⟩
  | @changed interfaces hc hne =>
    cases ho
    have hok := h.checking _ hc
    have hspec := d.state.update_spec interfaces h.normal
      (by rw [h.interfaceFilter]; exact hok.distinct _ rfl)
    have hi := hok.delivered nofun
    refine ⟨hi, hok.isOpen, .inr ⟨hi, hne, hspec.1, interfaces, hc, ?_⟩⟩
    change normalize interfaces d.state.interfaceFilter = _
    rw [h.interfaceFilter]
  | blocked | refused | refusedClose | close | enter | cancel | refresh | drainFailed | notified
  | unnotified | look | enumerate | fail | unchanged | wake | waitFailed => cases ho

/-- One more step of a run. -/
theorem Delivered.step (hdel : Delivered first d os) (h : Wf filter d consumed)
    (ht : Transition d e d' o) : Delivered first d' (os ++ [o]) := by
  obtain ⟨initial, hinitial, hdel⟩ := hdel
  refine ⟨initial, hinitial, ?_⟩
  rw [List.filterMap_append]
  cases ho : o.changes with
  | some changes =>
    have hos : [o].filterMap Outcome.changes = [changes] := by simp [ho]
    obtain ⟨hi', hopen, hr⟩ := h.reported ht ho
    rw [hos]
    right
    obtain ⟨hnil, hi, hlast⟩ | ⟨later, last, hlater, hi, hrep, hlast⟩ := hdel
    · obtain ⟨hi₁, heq⟩ | ⟨hi₁, -⟩ := hr <;> rw [hi] at hi₁ <;> cases hi₁
      exact ⟨[], _, by rw [hnil]; rfl, hi', .nil, fun _ => heq.trans (hlast hopen)⟩
    · obtain ⟨hi₁, -⟩ | ⟨-, hne, hdiff, -⟩ := hr
      · rw [hi] at hi₁
        cases hi₁
      · rw [hlast hopen] at hdiff
        exact ⟨later ++ [changes], _, by rw [hlater]; rfl, hi', hrep.snoc hdiff hne, fun _ => rfl⟩
  | none =>
    have hos : [o].filterMap Outcome.changes = [] := by simp [ho]
    have hkeep : d'.closed = false → d.closed = false ∧ d'.state.last = d.state.last := by
      intro hopen
      have hopen₀ := ht.closed hopen
      exact ⟨hopen₀, h.unreported ht (hopen.trans hopen₀.symm) ho⟩
    rw [hos, List.append_nil, ht.initial ho]
    obtain ⟨hnil, hi, hlast⟩ | ⟨later, last, hlater, hi, hrep, hlast⟩ := hdel
    · refine .inl ⟨hnil, hi, fun hopen => ?_⟩
      exact (hkeep hopen).2.trans (hlast (hkeep hopen).1)
    · refine .inr ⟨later, last, hlater, hi, hrep, fun hopen => ?_⟩
      exact (hkeep hopen).2.trans (hlast (hkeep hopen).1)

/-- After `start` the initial list is there to be delivered. -/
theorem Delivered.start (source platformTimeout : Bool) (hfirst : Distinct filter first) :
    Delivered (normalize first filter) (start (ε := ε) source platformTimeout filter first) [] := by
  have hspec := ({ interfaceFilter := filter } : StateDetector π).update_spec first
    List.Pairwise.nil hfirst
  exact ⟨_, hspec.1, .inl ⟨rfl, rfl, fun _ => rfl⟩⟩

variable {es : List (Event π ε)}

/-- A run keeps the invariant and goes on delivering. -/
theorem Wf.run (h : Wf filter d consumed) (hes : ∀ e ∈ es, e.Distinct filter)
    (hdel : Delivered first d os) :
    ∃ d' consumed' os', run watch (d, consumed) es = some ((d', consumed'), os') ∧
      Wf filter d' consumed' ∧ Delivered first d' (os ++ os') := by
  induction es generalizing d consumed os with
  | nil => exact ⟨d, consumed, [], rfl, h, by rwa [List.append_nil]⟩
  | cons e es ih =>
    have ht := handle_transition d e
    obtain ⟨d', consumed', os', hrun, hwf, hdel'⟩ :=
      ih (h.step (hes e List.mem_cons_self) ht) (fun e' he' => hes e' (List.mem_cons_of_mem e he'))
        (hdel.step h ht)
    rw [List.append_assoc] at hdel'
    exact ⟨d', consumed', (d.handle e).2 :: os', run_cons_some rfl hrun, hwf, hdel'⟩

/-- A closed detector stays closed in a run. -/
theorem closed_run (hrun : Core.run Detector.step d es = some (d', os))
    (hopen : d'.closed = false) : d.closed = false := by
  induction hrun using run_induct with
  | nil => exact hopen
  | cons hstep _ ih =>
    exact (step_transition hstep).closed (ih)

/-- Steps that return no changes, and do not close, leave the reference snapshot and the initial
list. -/
theorem Wf.unreported_run (h : Wf filter d consumed) (hes : ∀ e ∈ es, e.Distinct filter)
    (hrun : Core.run Detector.step d es = some (d', os)) (hclosed : d'.closed = d.closed)
    (hos : ∀ o ∈ os, o.changes = none) :
    d'.state.last = d.state.last ∧ d'.initial = d.initial := by
  induction hrun using run_induct generalizing consumed with
  | nil => exact ⟨rfl, rfl⟩
  | @cons d e d₁ _ _ _ hstep hrest ih =>
    have ht := step_transition hstep
    have hclosed₁ : d₁.closed = d.closed := by
      cases hd : d.closed with
      | false => exact closed_run hrest (hclosed.trans hd)
      | true =>
        by_contra hne
        rw [ht.closed (by simpa using hne)] at hd
        cases hd
    have ho := hos _ List.mem_cons_self
    obtain ⟨hlast, hinitial⟩ := ih (h.step (hes e List.mem_cons_self) ht)
      (fun e' he' => hes e' (List.mem_cons_of_mem e he')) (hclosed.trans hclosed₁.symm)
      (fun o' ho' => hos o' (List.mem_cons_of_mem _ ho'))
    exact ⟨hlast.trans (h.unreported ht hclosed₁ ho), hinitial.trans (ht.initial ho)⟩

end Invariant

/-- Whatever fails and whenever a context is cancelled, the returned lists are the initial one and
then the successive differences up to the reference snapshot, a consumed notification keeps the
detector from waiting, and calls that return errors leave what is still to be reported. -/
theorem checks_lose_no_change (source platformTimeout : Bool) {filter : Option (String → Bool)}
    {first : List (InterfaceState π)} (hfirst : Distinct filter first) {es : List (Event π ε)}
    (hes : ∀ e ∈ es, e.Distinct filter) :
    ∃ d consumed os,
      run watch (start source platformTimeout filter first, false) es = some ((d, consumed), os) ∧
      Delivered (normalize first filter) d os ∧
      (consumed = true → d.pending = true ∧ ∀ c, d.checking = some c → c.pc ≠ .waiting) ∧
      (∀ e d' o changes, d.step e = some (d', o) → o.changes = some changes →
        d'.initial = none ∧ (d.initial = some changes ∧ d'.state.last = d.state.last ∨
          d.initial = none ∧ changes ≠ [] ∧ Differs d.state.last d'.state.last changes ∧
            ∃ interfaces, d.checking = some ⟨none, .enumerated (.ok interfaces)⟩ ∧
              d'.state.last = normalize interfaces filter)) ∧
      ∀ es' d' os', (∀ e ∈ es', e.Distinct filter) → run Detector.step d es' = some (d', os') →
        (∀ o ∈ os', o.changes = none) → d'.closed = d.closed →
        d'.state.last = d.state.last ∧ d'.initial = d.initial := by
  obtain ⟨d, consumed, os, hrun, h, hdel⟩ :=
    (Wf.start source platformTimeout hfirst).run hes (Delivered.start source platformTimeout hfirst)
  refine ⟨d, consumed, os, hrun, hdel, fun hcons => ⟨h.pending hcons, ?_⟩, ?_, ?_⟩
  · intro c hc hpc
    rw [((h.checking c hc).waiting hpc).1] at hcons
    cases hcons
  · intro e d' o changes hstep ho
    obtain ⟨hi, -, hr⟩ := h.reported (step_transition hstep) ho
    exact ⟨hi, hr⟩
  · intro es' d' os' hes' hrun' hos hclosed
    exact h.unreported_run hes' hrun' hclosed hos

/-- A notification arrives while the context of a waiting `Check` is cancelled; the next `Check`
reports the change. -/
def retried : List (Event Unit Unit) :=
  [.check none, .loop, .check none, .loop, .drain false none, .cancel (), .wait (.failed ()),
    .check none, .loop, .drain false none, .look, .enumerate (.ok [⟨1, "b", 0, ∅⟩]), .compare]

theorem checks_lose_no_change_retried :
    ∃ d consumed os,
      run watch (start true false none [⟨1, "a", 0, ∅⟩], false) retried =
        some ((d, consumed), os) ∧
      Delivered [⟨1, "a", 0, ∅⟩] d os ∧
      os.filterMap Outcome.changes = [[⟨"a", .added⟩], [⟨"b", .changed⟩]] := by
  have hfirst : Distinct none [(⟨1, "a", 0, ∅⟩ : InterfaceState Unit)] := by decide
  have hes : ∀ e ∈ retried, e.Distinct none := by decide
  obtain ⟨d, consumed, os, hrun, hdel, -⟩ := checks_lose_no_change true false hfirst hes
  exact ⟨d, consumed, os, hrun, hdel, holds_of_run hrun (fun _ os =>
    os.filterMap Outcome.changes = [[⟨"a", .added⟩], [⟨"b", .changed⟩]]) (by decide +kernel)⟩

/-- Two interfaces share an index and one of them goes away: the `Check` that sees it fails, the
reference snapshot has moved, and nothing is left to report. -/
theorem shared_index_lost :
    (run Detector.step
        (start (ε := Unit) false false none
          [⟨1, "a", 0, (∅ : Finset Unit)⟩, ⟨1, "b", 0, ∅⟩])
        [.check none, .loop, .check none, .loop, .look, .enumerate (.ok [⟨1, "b", 0, ∅⟩]),
          .compare, .cancel (), .wait (.failed ()), .check none, .loop, .look,
          .enumerate (.ok [⟨1, "b", 0, ∅⟩]), .compare, .cancel (), .wait (.failed ())]).map
      (fun r => (r.1.state.last, r.2)) =
    some ([⟨1, "b", 0, ∅⟩],
      [.moved, .returned (.ok [⟨"a", .added⟩, ⟨"b", .added⟩]), .moved, .moved, .moved, .moved,
        .moved, .moved, .returned (.error (.cause ())), .moved, .moved, .moved, .moved, .moved,
        .moved, .returned (.error (.cause ()))]) := by
  decide +kernel

end PionTransport.Netchange
