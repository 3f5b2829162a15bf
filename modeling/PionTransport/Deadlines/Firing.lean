import PionTransport.Deadlines.Invariant

/-!
# A deadline fires once, and not early

As long as the counter `pending` does not wrap around, it is the number of
callbacks that are still to run. A callback fires only if it is the last of
them, so the timer of the latest `Set` has expired by then. Callbacks may
overtake each other: the one that fires can belong to an earlier `Set`, but only
after the callback of the latest one has run and left the firing to it.
-/

namespace PionTransport.Deadlines

open PionTransport.Core

/-- At most 255 callbacks are outstanding after the step. -/
def Deadline.bounded (d : Deadline) (e : Event) : Bool :=
  match d.step e with
  | some (d', _) => d'.outstanding ≤ 255
  | none => true

/-- The counter and the timer while at most 255 callbacks are outstanding. -/
structure Counted (d : Deadline) : Prop where
  bound : d.outstanding ≤ 255
  counted : d.pending = UInt8.ofNat d.outstanding
  armed : ∀ a, d.armed = some a → d.state = .started ∧ a.set = d.sets
  waiting : d.state = .started → 0 < d.outstanding
  known : ∀ k ∈ d.running, k ≤ d.sets

section Counting

variable {d d' d₁ : Deadline} {e : Event} {o : Outcome} {es : List Event} {os : List Outcome}

theorem ofNat_succ_sub_one (n : Nat) : UInt8.ofNat (n + 1) - 1 = UInt8.ofNat n := by
  rw [UInt8.ofNat_add]
  exact UInt8.add_sub_cancel _ _

theorem ofNat_eq_zero_iff {n : Nat} (hn : n ≤ 255) : UInt8.ofNat n = 0 ↔ n = 0 := by
  rw [← UInt8.toNat_inj, UInt8.toNat_ofNat', Nat.mod_eq_of_lt (by omega)]
  rfl

theorem Counted.new : Counted new where
  bound := by decide
  counted := rfl
  armed a h := by cases h
  waiting h := by cases h
  known k h := by cases h

/-- While the deadline is not started its timer is not running. -/
theorem Counted.unarmed (h : Counted d) (hstate : d.state ≠ .started) : d.armed = none := by
  cases ha : d.armed with
  | none => rfl
  | some a => exact absurd (h.armed a ha).1 hstate

/-- After the attempt to stop it no timer runs, and `pending` counts the expired callbacks and the
one that the new setting may need. -/
theorem Counted.renewed (h : Counted d) (hwf : Wf d) {setTo : Option Int}
    (hrenew : d.renew setTo = some d₁) :
    d₁.armed = none ∧ d₁.pending = UInt8.ofNat d₁.running.length + 1 ∧
      ∀ k ∈ d₁.running, k ≤ d₁.sets := by
  have hr := hwf.renewed hrenew
  have hknown : ∀ k ∈ d₁.running, k ≤ d₁.sets := by
    rw [hr.running, hr.sets]
    exact fun k hk => Nat.le_succ_of_le (h.known k hk)
  have hcounted := h.counted
  have hidle : d.state ≠ .started → d.pending = UInt8.ofNat d.running.length := by
    intro hstate
    rw [hcounted, Deadline.outstanding, h.unarmed hstate]
    rfl
  cases hstate : d.state with
  | started =>
    obtain ⟨t, ht⟩ := Option.ne_none_iff_exists'.mp (hwf.timer hstate)
    rw [renew_started hstate ht] at hrenew
    cases hrenew
    refine ⟨rfl, congrArg (· + 1) ?_, hknown⟩
    rw [hcounted, Deadline.outstanding, Deadline.armed, ht]
    cases ha : t.armed with
    | none | some => simp [Timer.stop, ha]
  | suspended =>
    have hne : d.state ≠ .started := by simp [hstate]
    rw [renew_suspended hstate] at hrenew
    cases hrenew
    exact ⟨h.unarmed hne, congrArg (· + 1) (hidle hne), hknown⟩
  | exceeded =>
    have hne : d.state ≠ .started := by simp [hstate]
    rw [renew_exceeded hstate] at hrenew
    cases hrenew
    exact ⟨h.unarmed hne, congrArg (· + 1) (hidle hne), hknown⟩

/-- A callback that runs is one of those outstanding. -/
theorem Counted.ran (h : Counted d) {i k : Nat} (hk : d.running[i]? = some k) :
    (d.running.eraseIdx i).length + 1 = d.running.length ∧
      d.pending - 1 = UInt8.ofNat ((d.running.eraseIdx i).length + d.armed.toList.length) := by
  have hi : i < d.running.length := (List.getElem?_eq_some_iff.mp hk).1
  have hlen : (d.running.eraseIdx i).length + 1 = d.running.length := by
    rw [List.length_eraseIdx_of_lt hi]
    omega
  refine ⟨hlen, ?_⟩
  rw [h.counted, Deadline.outstanding, ← hlen, Nat.add_right_comm]
  exact ofNat_succ_sub_one _

/-- The callback that fires is the last one. -/
theorem Counted.last (h : Counted d) {i k : Nat} (hk : d.running[i]? = some k)
    (hpending : d.pending - 1 = 0) : d.running = [k] ∧ d.armed = none := by
  obtain ⟨hlen, hcount⟩ := h.ran hk
  have hbound := h.bound
  unfold Deadline.outstanding at hbound
  rw [hpending, eq_comm, ofNat_eq_zero_iff (by omega)] at hcount
  obtain ⟨x, hx⟩ := List.length_eq_one_iff.mp (by omega : d.running.length = 1)
  refine ⟨?_, Option.toList_eq_nil_iff.mp (List.eq_nil_of_length_eq_zero (by omega))⟩
  have hmem := List.mem_of_getElem? hk
  rw [hx, List.mem_singleton] at hmem
  rw [hx, hmem]

/-- The same where the new setting needs no timer. -/
theorem Counted.renewed_idle (h : Counted d) (hwf : Wf d) {setTo : Option Int}
    (hrenew : d.renew setTo = some d₁) :
    (∀ a, d₁.armed ≠ some a) ∧
      d₁.pending - 1 = UInt8.ofNat (d₁.running.length + d₁.armed.toList.length) ∧
      ∀ k ∈ d₁.running, k ≤ d₁.sets := by
  obtain ⟨harmed, hpending, hknown⟩ := h.renewed hwf hrenew
  refine ⟨fun a => ?_, ?_, hknown⟩
  · rw [harmed]
    nofun
  · rw [hpending, harmed]
    exact UInt8.add_sub_cancel _ _

theorem Counted.step (h : Counted d) (hwf : Wf d) (hb : d'.outstanding ≤ 255)
    (ht : Transition d e d' o) : Counted d' := by
  cases ht with
  | blocked | exceeded | same | done | err | deadline => exact h
  | suspend hrenew =>
    obtain ⟨harmed, hpending, hknown⟩ := h.renewed_idle hwf hrenew
    exact ⟨hb, hpending, fun a ha => (harmed a ha).elim, by simp, hknown⟩
  | @start t now d₁ hrenew hdur =>
    obtain ⟨harmed, hpending, hknown⟩ := h.renewed hwf hrenew
    refine ⟨hb, ?_, fun a ha => ?_, fun _ => Nat.succ_pos _, hknown⟩
    · change d₁.pending = UInt8.ofNat (d₁.running.length + 1)
      rw [hpending, UInt8.ofNat_add]
      rfl
    · cases ha
      exact ⟨rfl, rfl⟩
  | past hrenew hdur hopen =>
    obtain ⟨harmed, hpending, hknown⟩ := h.renewed_idle hwf hrenew
    refine ⟨hb, hpending, fun a ha => (harmed a ha).elim, fun hs => ?_, hknown⟩
    cases hs
  | @expire now a htimer hdue =>
    have harmed : d.armed = some a := by simp [Deadline.armed, htimer]
    have hcounted := h.counted
    simp only [Deadline.outstanding, harmed] at hcounted
    refine ⟨hb, ?_, fun b hb => ?_, fun _ => ?_, fun k hk => ?_⟩
    · rw [hcounted, Deadline.outstanding]
      simp [Deadline.armed]
    · cases hb
    · simp [Deadline.outstanding, Deadline.armed]
    · obtain hk | hk := List.mem_append.mp hk
      · exact h.known k hk
      · exact Nat.le_of_eq ((List.mem_singleton.mp hk).trans (h.armed a harmed).2)
  | @leave i k hk hno =>
    obtain ⟨hlen, hpending⟩ := h.ran hk
    refine ⟨hb, hpending, h.armed, fun hstate => Nat.pos_of_ne_zero fun hzero => ?_,
      fun j hj => h.known j (List.mem_of_mem_eraseIdx hj)⟩
    change (d.running.eraseIdx i).length + d.armed.toList.length = 0 at hzero
    rw [hpending, hzero] at hno
    exact hno.elim (fun hne => hne rfl) fun hne => hne hstate
  | fire hk hpending hstate hopen =>
    refine ⟨hb, (h.ran hk).2, fun a ha => ?_, fun hs => ?_,
      fun j hj => h.known j (List.mem_of_mem_eraseIdx hj)⟩
    · change d.armed = some a at ha
      rw [(h.last hk hpending).2] at ha
      cases ha
    · cases hs
  | cancel | fresh => exact ⟨hb, h.counted, h.armed, h.waiting, h.known⟩

/-- Both invariants hold along a run in which the counter does not wrap around. -/
theorem Counted.run (h : Counted d) (hwf : Wf d)
    (hb : Along Deadline.step (fun d e => d.bounded e = true) d es)
    (hrun : run Deadline.step d es = some (d', os)) : Counted d' ∧ Wf d' := by
  refine keeps_along (I := fun d => Counted d ∧ Wf d) ?_ ⟨h, hwf⟩ hb hrun
  rintro d e d' o ⟨h, hwf⟩ hb hstep
  have ht := step_transition hstep
  refine ⟨h.step hwf ?_ ht, hwf.step ht⟩
  simpa [Deadline.bounded, hstep] using hb

end Counting

section Histories

variable {d d' d₁ : Deadline} {e : Event} {o : Outcome} {es : List Event} {os : List Outcome}

/-- The timer of a started deadline stops running only by its expiry. -/
theorem expired_step (h : Counted d) (ht : Transition d e d' o) (hstate : d'.state = .started)
    (harmed : d'.armed = none) :
    o = .expired d'.sets ∨ d.state = .started ∧ d.armed = none ∧ d'.sets = d.sets := by
  cases ht with
  | suspend | past | fire => cases hstate
  | start => cases harmed
  | @expire now a htimer hdue =>
    left
    rw [(h.armed a (by simp [Deadline.armed, htimer])).2]
  | _ => exact .inr ⟨hstate, harmed, rfl⟩

theorem expired_run (h : Counted d) (hwf : Wf d)
    (hb : Along Deadline.step (fun d e => d.bounded e = true) d es)
    (hrun : run Deadline.step d es = some (d', os)) (hstate : d'.state = .started)
    (harmed : d'.armed = none) :
    .expired d'.sets ∈ os ∨ d.state = .started ∧ d.armed = none ∧ d'.sets = d.sets := by
  induction hrun using run_induct with
  | nil => exact .inr ⟨hstate, harmed, rfl⟩
  | @cons _ _ d₁ o _ _ hstep _ ih =>
    obtain ⟨hb₁, hb⟩ := along_cons hb hstep
    have ht := step_transition hstep
    have h₁ : Counted d₁ := h.step hwf (by simpa [Deadline.bounded, hstep] using hb₁) ht
    obtain hmem | ⟨hstate₁, harmed₁, hsets₁⟩ := ih h₁ (hwf.step ht) hb
    · exact .inl (List.mem_cons_of_mem o hmem)
    · rw [hsets₁]
      obtain rfl | hback := expired_step h ht hstate₁ harmed₁
      · exact .inl List.mem_cons_self
      · exact .inr hback

/-- An expired callback is outstanding until it runs. -/
theorem ran_step {k : Nat} (hwf : Wf d) (ht : Transition d e d' o)
    (hk : k ∈ d.running ∨ o = .expired k) : k ∈ d'.running ∨ ∃ fired, o = .ran k fired := by
  have herase : ∀ {i j : Nat}, d.running[i]? = some j → k ∈ d.running →
      k ∈ d.running.eraseIdx i ∨ k = j := by
    intro i j hj hk
    obtain ⟨l, hl⟩ := List.mem_iff_getElem?.mp hk
    by_cases hli : l = i
    · subst hli
      rw [hj] at hl
      exact .inr (Option.some.inj hl).symm
    · exact .inl (List.mem_eraseIdx_iff_getElem?.mpr ⟨l, hli, hl⟩)
  cases ht with
  | suspend hrenew | start hrenew | past hrenew =>
    left
    have hk := hk.resolve_right (by simp)
    rw [← (hwf.renewed hrenew).running] at hk
    exact hk
  | expire htimer =>
    left
    obtain hk | hk := hk
    · exact List.mem_append_left _ hk
    · cases hk
      exact List.mem_append_right _ List.mem_cons_self
  | leave hj | fire hj =>
    obtain hk | rfl := herase hj (hk.resolve_right (by simp))
    · exact .inl hk
    · exact .inr ⟨_, rfl⟩
  | _ => exact .inl (hk.resolve_right (by simp))

theorem ran_run {k : Nat} (hwf : Wf d) (hrun : run Deadline.step d es = some (d', os))
    (hk : k ∈ d.running ∨ .expired k ∈ os) : k ∈ d'.running ∨ ∃ fired, .ran k fired ∈ os := by
  induction hrun using run_induct with
  | nil => exact .inl (hk.resolve_right (by simp))
  | @cons _ _ d₁ o _ os' hstep _ ih =>
    have ht := step_transition hstep
    rw [List.mem_cons, ← or_assoc, eq_comm (b := o)] at hk
    have hnext : (k ∈ d₁.running ∨ .expired k ∈ os') ∨ ∃ fired, o = .ran k fired := by
      obtain hk | hk := hk
      · exact (ran_step hwf ht hk).imp_left .inl
      · exact .inl (.inr hk)
    obtain hk | ⟨fired, rfl⟩ := hnext
    · obtain hk | ⟨fired, hfired⟩ := ih (hwf.step ht) hk
      · exact .inl hk
      · exact .inr ⟨fired, List.mem_cons_of_mem o hfired⟩
    · exact .inr ⟨fired, List.mem_cons_self⟩

/-- Only `Set` takes a deadline out of its exceeded state. -/
theorem exceeded_step (hwf : Wf d) (ht : Transition d e d' o) :
    d.sets ≤ d'.sets ∧ (d'.sets = d.sets → d.state = .exceeded → d'.state = .exceeded) := by
  cases ht with
  | suspend hrenew | start hrenew =>
    have hsets := (hwf.renewed hrenew).sets
    refine ⟨hsets ▸ Nat.le_succ _, fun he => ?_⟩
    exact absurd (hsets.symm.trans he) (Nat.succ_ne_self _)
  | past hrenew => exact ⟨(hwf.renewed hrenew).sets ▸ Nat.le_succ _, fun _ _ => rfl⟩
  | fire => exact ⟨Nat.le_refl _, fun _ _ => rfl⟩
  | _ => exact ⟨Nat.le_refl _, fun _ hstate => hstate⟩

theorem exceeded_run (hwf : Wf d) (hrun : run Deadline.step d es = some (d', os)) :
    d.sets ≤ d'.sets ∧ (d'.sets = d.sets → d.state = .exceeded → d'.state = .exceeded) := by
  induction hrun using run_induct with
  | nil => exact ⟨Nat.le_refl _, fun _ hstate => hstate⟩
  | cons hstep _ ih =>
    have ht := step_transition hstep
    obtain ⟨hle, hkeep⟩ := exceeded_step hwf ht
    obtain ⟨hle', hkeep'⟩ := ih (hwf.step ht)
    refine ⟨Nat.le_trans hle hle', fun he hstate => ?_⟩
    exact hkeep' (by omega) (hkeep (by omega) hstate)

/-- A deadline that the callback of its latest `Set` has fired is still exceeded. -/
theorem fired_run {k : Nat} (h : Counted d) (hwf : Wf d)
    (hb : Along Deadline.step (fun d e => d.bounded e = true) d es)
    (hrun : run Deadline.step d es = some (d', os)) (hk : .ran k true ∈ os)
    (hlatest : d'.sets = k) : d'.state = .exceeded := by
  induction hrun using run_induct with
  | nil => cases hk
  | @cons d _ d₁ _ _ _ hstep hrest ih =>
    obtain ⟨hb₁, hb⟩ := along_cons hb hstep
    have ht := step_transition hstep
    have h₁ : Counted d₁ := h.step hwf (by simpa [Deadline.bounded, hstep] using hb₁) ht
    obtain rfl | hk := List.mem_cons.mp hk
    · obtain ⟨hle, hkeep⟩ := exceeded_run (hwf.step ht) hrest
      cases ht with
      | fire hrunning =>
        have hknown : k ≤ d.sets := h.known k (List.mem_of_getElem? hrunning)
        change d.sets ≤ d'.sets at hle
        exact hkeep (by change d'.sets = d.sets; omega) rfl
    · exact ih h₁ (hwf.step ht) hb hk

/-- `Set` fires only for a time that has passed. -/
theorem timeUntil_nonpos {t now : Int} (h : timeUntil t now ≤ 0) : t ≤ now := by
  unfold timeUntil minDuration maxDuration at h
  omega

/-- In every run with at most 255 callbacks outstanding: `pending` is their number; a callback that
fires is the last of them, the timer of the latest `Set` has expired, and if the callback is not
that timer's, that one has run before; the last outstanding callback of a started deadline fires;
a timer runs only while the deadline is started; `Set` fires only for a time that has passed; and
every channel is closed once, the current one when the deadline is exceeded. -/
theorem last_callback_fires (es : List Event)
    (hb : Along Deadline.step (fun d e => d.bounded e = true) new es) :
    ∃ d os, run Deadline.step new es = some (d, os) ∧
      d.pending.toNat = d.outstanding ∧
      (∀ i k d', d.step (.timeout i) = some (d', .ran k true) →
        d.outstanding = 1 ∧ .expired d.sets ∈ os ∧ (k ≠ d.sets → .ran d.sets false ∈ os)) ∧
      (∀ i k d' fired, d.step (.timeout i) = some (d', .ran k fired) → d.state = .started →
        d'.outstanding = 0 → d'.state = .exceeded) ∧
      (d.armed ≠ none → d.state = .started) ∧
      (∀ setTo now d', d.step (.set setTo now) = some (d', .set true) →
        ∃ t, setTo = some t ∧ t ≤ now) ∧
      d.chans = List.replicate d.done true ++ [decide (d.state = .exceeded)] := by
  obtain ⟨d, os, hrun, hwf⟩ := Wf.new.run es
  obtain ⟨h, -⟩ := Counted.new.run Wf.new hb hrun
  refine ⟨d, os, hrun, ?_, fun i k d' hstep => ?_, fun i k d' fired hstep hstate hzero => ?_,
    fun harmed => ?_, fun setTo now d' hstep => ?_, hwf.chans⟩
  · have hbound := h.bound
    rw [h.counted, UInt8.toNat_ofNat']
    exact Nat.mod_eq_of_lt (by omega)
  · cases step_transition hstep with
    | fire hk hpending hstate hopen =>
      obtain ⟨hrunning, harmed⟩ := h.last hk hpending
      have hexpired : .expired d.sets ∈ os :=
        (expired_run Counted.new Wf.new hb hrun hstate harmed).resolve_right (by simp [new])
      refine ⟨by simp [Deadline.outstanding, hrunning, harmed], hexpired, fun hne => ?_⟩
      obtain hmem | ⟨fired, hran⟩ := ran_run Wf.new hrun (.inr hexpired)
      · rw [hrunning, List.mem_singleton] at hmem
        exact absurd hmem.symm hne
      · cases fired with
        | false => exact hran
        | true =>
          have hexceeded := fired_run Counted.new Wf.new hb hrun hran rfl
          rw [hstate] at hexceeded
          cases hexceeded
  · have ht := step_transition hstep
    have h' : Counted d' := h.step hwf (by omega) ht
    by_contra hne
    have hstate' : d'.state = .started := by
      cases ht with
      | leave => exact hstate
      | fire => exact absurd rfl hne
    have hpos := h'.waiting hstate'
    omega
  · obtain ⟨a, ha⟩ := Option.ne_none_iff_exists'.mp harmed
    exact (h.armed a ha).1
  · cases step_transition hstep with
    | past hrenew hdur hopen => exact ⟨_, rfl, timeUntil_nonpos hdur⟩

/-- The deadline is moved while the callback of its first setting is still to run, and the
callback of the second one overtakes it. -/
def overtaken : List Event :=
  [.set (some 10) 0, .expire 10, .set (some 20) 11, .expire 20, .timeout 1]

theorem last_callback_fires_overtaken :
    ∃ d os, run Deadline.step new overtaken = some (d, os) ∧ d.pending.toNat = d.outstanding ∧
      d.outstanding = 1 := by
  obtain ⟨d, os, hrun, hpending, -⟩ := last_callback_fires overtaken (by decide +kernel)
  exact ⟨d, os, hrun, hpending,
    holds_of_run hrun (fun d _ => d.outstanding = 1) (by decide +kernel)⟩

/-- The stale callback closes `done`. -/
theorem stale_callback_fires :
    (run Deadline.step new (overtaken ++ [.timeout 0])).map (fun r => (r.1.sets, r.1.chans, r.2)) =
      some (2, [true], [.set false, .expired 1, .set false, .expired 2, .ran 2 false,
        .ran 1 true]) := by
  decide +kernel

end Histories

end PionTransport.Deadlines
