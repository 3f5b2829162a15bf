import Mathlib.Algebra.Group.Nat.Defs
import PionTransport.Core.Heap
import PionTransport.Deadlines.JSTimer

/-!
# The contract of the restartable timer

An arming waits while neither `Reset` nor `Stop` was called after it and its callback has
not passed its check. `Reset` and `Stop` return whether they have cancelled such an arming,
a cancelled one never calls `f`, and one that waits calls `f` when its callback runs. The
versions tell the armings apart as long as fewer than `2 ^ 64` calls come between an
arming and the check of its callback; after that many calls a cancelled arming finds its
version again.
-/

namespace PionTransport.Deadlines

open PionTransport.Core

/-- The callback has not compared the versions. -/
def Underlying.Pending (u : Underlying) : Prop := u.callback = .sleeping ∨ u.callback = .running

/-- The callback has called `f` or is about to. -/
def Underlying.Committed (u : Underlying) : Prop := u.callback = .passed ∨ u.callback = .called

/-- The callback has returned. -/
def Underlying.Done (u : Underlying) : Prop := u.callback = .called ∨ u.callback = .left

namespace JSTimer

/-- The calls of `Reset` and `Stop` so far, and the call that made each arming. -/
structure Tally where
  calls : Nat
  made : List Nat

/-- Count a call. -/
def tally (_ : JSTimer) (g : Tally) : JSEvent → Tally
  | .reset _ => ⟨g.calls + 1, g.made ++ [g.calls + 1]⟩
  | .stop => ⟨g.calls + 1, g.made⟩
  | .fire _ | .check _ | .call _ => g

/-- The timer of `afterFunc` with its first arming counted. -/
def first (a : Arming) : JSTimer × Tally := (afterFunc a, ⟨1, [1]⟩)

/-- Fewer than `2 ^ 64` calls have come since the arming whose callback compares the versions. -/
def Recent (tg : JSTimer × Tally) : JSEvent → Prop
  | .check k => tg.2.calls < (tg.2.made[k]?).getD tg.2.calls + 2 ^ 64
  | _ => True

instance (tg : JSTimer × Tally) (e : JSEvent) : Decidable (Recent tg e) := by
  cases e <;> unfold Recent <;> infer_instance

/-- The arming was neither cancelled nor replaced, and its callback has not passed its check. -/
def Waiting (t : JSTimer) (g : Tally) (k : Nat) : Prop :=
  ∃ u, t.timers[k]? = some u ∧ g.made[k]? = some g.calls ∧ u.Pending

/-- The arming was cancelled or replaced before its callback has passed its check. -/
def Cancelled (t : JSTimer) (g : Tally) (k : Nat) : Prop :=
  ∃ u m, t.timers[k]? = some u ∧ g.made[k]? = some m ∧ m < g.calls ∧ ¬ u.Committed

/-- The versions are the numbers of the calls, and `started` says whether an arming waits. -/
structure Counted (t : JSTimer) (g : Tally) : Prop where
  calls : t.version.toNat = g.calls % 2 ^ 64
  length : g.made.length = t.timers.length
  version : ∀ {k m : Nat} {u : Underlying}, t.timers[k]? = some u → g.made[k]? = some m →
    u.version.toNat = m % 2 ^ 64
  made_le : ∀ {k m : Nat}, g.made[k]? = some m → m ≤ g.calls
  current : t.Current
  latest : ∀ {k : Nat}, g.made[k]? = some g.calls → t.timer = some k
  started : t.started = true ↔ ∃ k, Waiting t g k
  kept : ∀ {k : Nat} {u : Underlying}, t.timers[k]? = some u → g.made[k]? = some g.calls →
    u.callback ≠ .left

/-- What a step of a counted timer does. -/
inductive Transition (t : JSTimer) (g : Tally) : JSEvent → JSTimer → JSOutcome → Prop
  | blocked {e : JSEvent}
      (hcheck : ∀ {k : Nat} {u : Underlying}, e = .check k → t.timers[k]? = some u →
        u.callback ≠ .running)
      (hcall : ∀ {k : Nat} {u : Underlying}, e = .call k → t.timers[k]? = some u →
        u.callback ≠ .passed)
      (hreset : ∀ a, e ≠ .reset a) (hstop : e ≠ .stop) : Transition t g e t .blocked
  | reset {a : Arming} : Transition t g (.reset a) (t.reset a).1 (.returned t.started)
  | stop : Transition t g .stop { t with version := t.version + 1, started := false }
      (.returned t.started)
  | fire {k : Nat} {u : Underlying} (hu : t.timers[k]? = some u) (hat : u.callback = .sleeping) :
      Transition t g (.fire k) (t.move k .running) .fired
  | pass {k : Nat} {u : Underlying} (hu : t.timers[k]? = some u) (hat : u.callback = .running)
      (hlive : g.made[k]? = some g.calls) :
      Transition t g (.check k) { t.move k .passed with started := false } .passed
  | leave {k m : Nat} {u : Underlying} (hu : t.timers[k]? = some u) (hat : u.callback = .running)
      (hm : g.made[k]? = some m) (hlt : m < g.calls) :
      Transition t g (.check k) (t.move k .left) .left
  | call {k : Nat} {u : Underlying} (hu : t.timers[k]? = some u) (hat : u.callback = .passed) :
      Transition t g (.call k) (t.move k .called) (.called k)

variable {t t' : JSTimer} {g : Tally} {e : JSEvent} {o : JSOutcome} {k m : Nat} {u : Underlying}
  {a : Arming}

section Inversion

/-- While the arming is recent its version is the current one if and only if no call has come
since. -/
theorem Counted.version_eq_iff (h : Counted t g) (hu : t.timers[k]? = some u)
    (hm : g.made[k]? = some m) (hrecent : g.calls < m + 2 ^ 64) :
    u.version = t.version ↔ m = g.calls := by
  have hle := h.made_le hm
  rw [← UInt64.toNat_inj, h.version hu hm, h.calls]
  omega

theorem Counted.exists_made (h : Counted t g) (hu : t.timers[k]? = some u) :
    ∃ m, g.made[k]? = some m := by
  have hk : k < g.made.length := by
    rw [h.length]
    exact (List.getElem?_eq_some_iff.mp hu).1
  exact ⟨_, List.getElem?_eq_getElem hk⟩

/-- A callback passes exactly if its arming is the latest call. -/
theorem check_transition (h : Counted t g) (hrecent : Recent (t, g) (.check k)) :
    Transition t g (.check k) (t.check k).1 (t.check k).2 := by
  unfold check
  split
  next arming version hu =>
    obtain ⟨m, hm⟩ := h.exists_made hu
    have hm' : g.calls < m + 2 ^ 64 := by
      simpa [Recent, hm] using hrecent
    have hiff := h.version_eq_iff hu hm hm'
    split
    next hne =>
      refine .leave hu rfl hm (Nat.lt_of_le_of_ne (h.made_le hm) fun heq => ?_)
      exact hne (hiff.mpr heq)
    next heq =>
      refine .pass hu rfl ?_
      rw [hm, hiff.mp (Decidable.not_not.mp heq)]
  next hnot =>
    refine .blocked ?_ (by simp) (by simp) (by simp)
    rintro k ⟨arming, version, callback⟩ ⟨⟩ hu rfl
    exact hnot arming version hu

/-- A recent step is one of the listed ones. -/
theorem step_transition_counted (h : Counted t g) (hrecent : Recent (t, g) e) :
    ∃ t' o, t.step e = some (t', o) ∧ Transition t g e t' o := by
  cases e with
  | reset a => exact ⟨_, _, rfl, .reset⟩
  | stop =>
    obtain ⟨k, u, htimer, -⟩ := h.current
    refine ⟨_, _, ?_, .stop⟩
    rw [step, JSTimer.stop, htimer]
    rfl
  | fire k =>
    refine ⟨(t.fire k).1, (t.fire k).2, rfl, ?_⟩
    unfold JSTimer.fire
    split
    next hu => exact .fire hu rfl
    · exact .blocked (by simp) (by simp) (by simp) (by simp)
  | check k => exact ⟨_, _, rfl, check_transition h hrecent⟩
  | call k =>
    refine ⟨(t.call k).1, (t.call k).2, rfl, ?_⟩
    unfold JSTimer.call
    split
    next hu => exact .call hu rfl
    next hnot =>
      refine .blocked (by simp) ?_ (by simp) (by simp)
      rintro k ⟨arming, version, callback⟩ ⟨⟩ hu rfl
      exact hnot arming version hu

end Inversion

section Keep

/-- Only the arming of a moved callback may wait now or wait no longer. -/
theorem waiting_move (hu : t.timers[k]? = some u) {callback : CallbackAt}
    (hiff : g.made[k]? = some g.calls → (u.Pending ↔ { u with callback }.Pending)) {j : Nat} :
    Waiting (t.move k callback) g j ↔ Waiting t g j := by
  constructor
  · rintro ⟨u', hu', hlive, hpending⟩
    rcases (getElem?_modify_of_some hu).mp hu' with ⟨rfl, rfl⟩ | ⟨-, hu'⟩
    · exact ⟨u, hu, hlive, (hiff hlive).mpr hpending⟩
    · exact ⟨u', hu', hlive, hpending⟩
  · rintro ⟨u', hu', hlive, hpending⟩
    by_cases hjk : j = k
    · subst hjk
      rw [hu] at hu'
      cases hu'
      exact ⟨_, getElem?_modify_self hu _, hlive, (hiff hlive).mp hpending⟩
    · exact ⟨u', (getElem?_modify_of_some hu).mpr (.inr ⟨hjk, hu'⟩), hlive, hpending⟩

/-- A callback moves. -/
theorem Counted.move (h : Counted t g) (hu : t.timers[k]? = some u) (callback : CallbackAt)
    (started : Bool) (hleft : g.made[k]? = some g.calls → callback ≠ .left)
    (hstarted : started = true ↔ ∃ j, Waiting (t.move k callback) g j) :
    Counted { t.move k callback with started := started } g where
  calls := h.calls
  length := h.length.trans (List.length_modify ..).symm
  version := by
    intro j m u' hu' hm
    rcases (getElem?_modify_of_some hu).mp hu' with ⟨rfl, rfl⟩ | ⟨-, hu'⟩
    · change u.version.toNat = _
      exact h.version hu hm
    · exact h.version hu' hm
  made_le := h.made_le
  current := by
    obtain ⟨j, u', htimer, hu'⟩ := h.current
    by_cases hjk : j = k
    · subst hjk
      exact ⟨j, _, htimer, getElem?_modify_self hu _⟩
    · exact ⟨j, u', htimer, (getElem?_modify_of_some hu).mpr (.inr ⟨hjk, hu'⟩)⟩
  latest := h.latest
  started := hstarted
  kept := by
    intro j u' hu' hlive
    rcases (getElem?_modify_of_some hu).mp hu' with ⟨rfl, rfl⟩ | ⟨-, hu'⟩
    · exact hleft hlive
    · exact h.kept hu' hlive

/-- Another call leaves no arming waiting that was made before. -/
theorem Counted.not_latest (h : Counted t g) (hm : g.made[k]? = some m) : m ≠ g.calls + 1 := by
  have := h.made_le hm
  omega

/-- The version counts the calls. -/
theorem Counted.next_version (h : Counted t g) :
    (t.version + 1).toNat = (g.calls + 1) % 2 ^ 64 := by
  rw [UInt64.toNat_add, h.calls]
  change (g.calls % 2 ^ 64 + 1) % 2 ^ 64 = _
  omega

/-- `Reset` keeps the count. -/
theorem Counted.reset (h : Counted t g) :
    Counted (t.reset a).1 ⟨g.calls + 1, g.made ++ [g.calls + 1]⟩ where
  calls := h.next_version
  length := by
    simp [JSTimer.reset, h.length]
  version := by
    intro k m u hu hm
    rcases getElem?_snoc_iff.mp hu with ⟨rfl, rfl⟩ | hu
    · rcases getElem?_snoc_iff.mp hm with ⟨-, rfl⟩ | hm
      · exact h.next_version
      · have := (List.getElem?_eq_some_iff.mp hm).1
        rw [h.length] at this
        exact absurd this (Nat.lt_irrefl _)
    · rcases getElem?_snoc_iff.mp hm with ⟨rfl, rfl⟩ | hm
      · have := (List.getElem?_eq_some_iff.mp hu).1
        rw [h.length] at this
        exact absurd this (Nat.lt_irrefl _)
      · exact h.version hu hm
  made_le := by
    intro k m hm
    rcases getElem?_snoc_iff.mp hm with ⟨-, rfl⟩ | hm
    · exact Nat.le_refl _
    · exact Nat.le_succ_of_le (h.made_le hm)
  current := ⟨t.timers.length, _, rfl, getElem?_snoc_iff.mpr (.inl ⟨rfl, rfl⟩)⟩
  latest := by
    intro k hk
    rcases getElem?_snoc_iff.mp hk with ⟨rfl, -⟩ | hk
    · rw [h.length]
      rfl
    · exact absurd rfl (h.not_latest hk)
  started := by
    refine ⟨fun _ => ⟨t.timers.length, _, getElem?_snoc_iff.mpr (.inl ⟨rfl, rfl⟩), ?_, .inl rfl⟩,
      fun _ => rfl⟩
    exact getElem?_snoc_iff.mpr (.inl ⟨h.length.symm, rfl⟩)
  kept := by
    intro k u hu hk
    rcases getElem?_snoc_iff.mp hk with ⟨rfl, -⟩ | hk
    · rcases getElem?_snoc_iff.mp hu with ⟨-, rfl⟩ | hu
      · simp
      · have := (List.getElem?_eq_some_iff.mp hu).1
        rw [h.length] at this
        exact absurd this (Nat.lt_irrefl _)
    · exact absurd rfl (h.not_latest hk)

/-- `Stop` keeps the count. -/
theorem Counted.stop (h : Counted t g) :
    Counted { t with version := t.version + 1, started := false } ⟨g.calls + 1, g.made⟩ where
  calls := h.next_version
  length := h.length
  version := h.version
  made_le hm := Nat.le_succ_of_le (h.made_le hm)
  current := h.current
  latest hk := absurd rfl (h.not_latest hk)
  started := by
    refine ⟨nofun, ?_⟩
    rintro ⟨k, u, hu, hlive, -⟩
    exact absurd rfl (h.not_latest hlive)
  kept _ hlive := absurd rfl (h.not_latest hlive)

/-- A step keeps the count. -/
theorem Counted.step (h : Counted t g) (ht : Transition t g e t' o) :
    Counted t' (tally t g e) := by
  cases ht with
  | @blocked e _ _ hreset hstop =>
    cases e with
    | reset a => exact (hreset a rfl).elim
    | stop => exact (hstop rfl).elim
    | fire | check | call => exact h
  | reset => exact h.reset
  | stop => exact h.stop
  | @fire k u hu hat =>
    have hiff : u.Pending ↔ ({ u with callback := .running } : Underlying).Pending := by
      simp [Underlying.Pending, hat]
    apply h.move hu .running t.started (fun _ => nofun)
    simp only [waiting_move hu fun _ => hiff]
    exact h.started
  | pass hu hat hlive =>
    apply h.move hu .passed false (fun _ => nofun)
    -- the arming was the only one that waited
    refine ⟨nofun, ?_⟩
    rintro ⟨j, u', hu', hlive', hpending⟩
    rcases (getElem?_modify_of_some hu).mp hu' with ⟨rfl, rfl⟩ | ⟨hjk, -⟩
    · rcases hpending with hpending | hpending <;> cases hpending
    · have hsame := (h.latest hlive').symm.trans (h.latest hlive)
      exact (hjk (Option.some.inj hsame)).elim
  | @leave k m u hu hat hm hlt =>
    have hnot : ¬ g.made[k]? = some g.calls := by
      intro hlive
      rw [hm] at hlive
      exact Nat.ne_of_lt hlt (Option.some.inj hlive)
    apply h.move hu .left t.started (fun hlive => (hnot hlive).elim)
    simp only [waiting_move hu fun hlive => (hnot hlive).elim]
    exact h.started
  | @call k u hu hat =>
    have hiff : u.Pending ↔ ({ u with callback := .called } : Underlying).Pending := by
      simp [Underlying.Pending, hat]
    apply h.move hu .called t.started (fun _ => nofun)
    simp only [waiting_move hu fun _ => hiff]
    exact h.started

end Keep

section Answers

/-- The first arming is counted. -/
theorem Counted.first (a : Arming) : Counted (first a).1 (first a).2 where
  calls := rfl
  length := rfl
  version := by
    intro k m u hu hm
    obtain ⟨-, rfl⟩ := getElem?_singleton_iff.mp hu
    obtain ⟨-, rfl⟩ := getElem?_singleton_iff.mp hm
    rfl
  made_le := by
    intro k m hm
    obtain ⟨-, rfl⟩ := getElem?_singleton_iff.mp hm
    exact Nat.le_refl 1
  current := ⟨0, _, rfl, rfl⟩
  latest := by
    intro k hk
    obtain ⟨rfl, -⟩ := getElem?_singleton_iff.mp hk
    rfl
  started := ⟨fun _ => ⟨0, _, rfl, rfl, .inl rfl⟩, fun _ => rfl⟩
  kept := by
    intro k u hu _
    obtain ⟨-, rfl⟩ := getElem?_singleton_iff.mp hu
    simp

/-- The contract for one step. -/
def Answers (t : JSTimer) (g : Tally) (e : JSEvent) (t' : JSTimer) (o : JSOutcome) : Prop :=
  match e with
  | .reset _ | .stop =>
    -- true if and only if an arming waits, which is then cancelled
    ∃ was, o = .returned was ∧ (was = true ↔ ∃ k, Waiting t g k) ∧
      (∀ k, Waiting t g k → Cancelled t' (tally t g e) k) ∧
      (was = false → ∀ k u, t.timers[k]? = some u → Cancelled t g k ∨ u.Committed)
  | .fire _ => True
  | .check k =>
    -- a callback passes if and only if its arming was neither cancelled nor replaced
    ∀ u, t.timers[k]? = some u → u.callback = .running →
      (o = .passed ↔ g.made[k]? = some g.calls)
  | .call k => ∀ u, t.timers[k]? = some u → (o = .called k ↔ u.callback = .passed)

/-- With nothing waiting, an arming is cancelled or has passed. -/
theorem Counted.cancelled_or_committed (h : Counted t g) (hnone : ¬ ∃ k, Waiting t g k)
    (hu : t.timers[k]? = some u) : Cancelled t g k ∨ u.Committed := by
  obtain ⟨m, hm⟩ := h.exists_made hu
  by_cases hcommitted : u.Committed
  · exact .inr hcommitted
  · refine .inl ⟨u, m, hu, hm, Nat.lt_of_le_of_ne (h.made_le hm) ?_, hcommitted⟩
    rintro rfl
    -- an arming that nothing has cancelled waits or is committed
    have hleft := h.kept hu hm
    cases hcallback : u.callback with
    | sleeping => exact hnone ⟨k, u, hu, hm, .inl hcallback⟩
    | running => exact hnone ⟨k, u, hu, hm, .inr hcallback⟩
    | passed => exact hcommitted (.inl hcallback)
    | called => exact hcommitted (.inr hcallback)
    | left => exact hleft hcallback

theorem not_committed_of_pending (h : u.Pending) : ¬ u.Committed := by
  rintro (hcommitted | hcommitted) <;> rcases h with h | h <;> rw [hcommitted] at h <;> cases h

/-- `Reset` and `Stop` cancel what waits. -/
theorem Counted.answers_call {g' : Tally} (h : Counted t g)
    (hkeep : ∀ {k : Nat} {u}, t.timers[k]? = some u → t'.timers[k]? = some u)
    (hcalls : g'.calls = g.calls + 1)
    (hmade : ∀ {k m : Nat}, g.made[k]? = some m → g'.made[k]? = some m) :
    ∃ was, JSOutcome.returned t.started = .returned was ∧ (was = true ↔ ∃ k, Waiting t g k) ∧
      (∀ k, Waiting t g k → Cancelled t' g' k) ∧
      (was = false → ∀ k u, t.timers[k]? = some u → Cancelled t g k ∨ u.Committed) := by
  refine ⟨t.started, rfl, h.started, ?_, fun hfalse k u hu => ?_⟩
  · rintro k ⟨u, hu, hlive, hpending⟩
    exact ⟨u, g.calls, hkeep hu, hmade hlive, by omega, not_committed_of_pending hpending⟩
  · apply h.cancelled_or_committed _ hu
    rw [← h.started, hfalse]
    nofun

/-- A step meets its contract. -/
theorem Counted.answers (h : Counted t g) (ht : Transition t g e t' o) : Answers t g e t' o := by
  cases ht with
  | @blocked e hcheck hcall hreset hstop =>
    cases e with
    | reset a => exact (hreset a rfl).elim
    | stop => exact (hstop rfl).elim
    | fire k => trivial
    | check k => exact fun u hu hat => (hcheck rfl hu hat).elim
    | call k => exact fun u hu => ⟨nofun, fun hat => (hcall rfl hu hat).elim⟩
  | reset =>
    apply h.answers_call (fun hu => ?_) rfl fun hm => ?_
    · exact getElem?_snoc_iff.mpr (.inr hu)
    · exact getElem?_snoc_iff.mpr (.inr hm)
  | stop => exact h.answers_call (fun hu => hu) rfl fun hm => hm
  | fire => trivial
  | pass hu hat hlive => exact fun _ _ _ => ⟨fun _ => hlive, fun _ => rfl⟩
  | leave hu hat hm hlt =>
    refine fun _ _ _ => ⟨nofun, fun hlive => ?_⟩
    rw [hm] at hlive
    exact (Nat.ne_of_lt hlt (Option.some.inj hlive)).elim
  | call hu hat =>
    intro u' hu'
    rw [hu] at hu'
    cases hu'
    exact ⟨fun _ => hat, fun _ => rfl⟩

variable {j : Nat}

/-- Unless it passes or calls `f`, the callback of a cancelled arming may move, and so may every
other one. -/
theorem Cancelled.move {callback : CallbackAt} (h : Cancelled t g j) (hu : t.timers[k]? = some u)
    (hnot : k = j → ¬ ({ u with callback } : Underlying).Committed) :
    Cancelled (t.move k callback) g j := by
  obtain ⟨u', m, hu', hm, hlt, hcommitted⟩ := h
  by_cases hkj : k = j
  · subst hkj
    rw [hu] at hu'
    cases hu'
    exact ⟨_, m, getElem?_modify_self hu _, hm, hlt, hnot rfl⟩
  · refine ⟨u', m, ?_, hm, hlt, hcommitted⟩
    exact (getElem?_modify_of_some hu).mpr (.inr ⟨Ne.symm hkj, hu'⟩)

/-- A cancelled arming is not the latest call. -/
theorem Cancelled.not_latest (h : Cancelled t g j) : g.made[j]? ≠ some g.calls := by
  obtain ⟨u, m, hu, hm, hlt, -⟩ := h
  intro hlive
  rw [hm] at hlive
  exact Nat.ne_of_lt hlt (Option.some.inj hlive)

/-- A cancelled arming stays cancelled and does not call `f`. -/
theorem Cancelled.step (h : Cancelled t g j) (ht : Transition t g e t' o) :
    Cancelled t' (tally t g e) j ∧ o ≠ .called j := by
  cases ht with
  | @blocked e _ _ hreset hstop =>
    cases e with
    | reset a => exact (hreset a rfl).elim
    | stop => exact (hstop rfl).elim
    | fire | check | call => exact ⟨h, nofun⟩
  | reset =>
    obtain ⟨u, m, hu, hm, hlt, hcommitted⟩ := h
    refine ⟨⟨u, m, getElem?_snoc_iff.mpr (.inr hu), getElem?_snoc_iff.mpr (.inr hm),
      Nat.lt_succ_of_lt hlt, hcommitted⟩, nofun⟩
  | stop =>
    obtain ⟨u, m, hu, hm, hlt, hcommitted⟩ := h
    exact ⟨⟨u, m, hu, hm, Nat.lt_succ_of_lt hlt, hcommitted⟩, nofun⟩
  | fire hu | leave hu =>
    refine ⟨h.move hu fun _ => ?_, nofun⟩
    simp [Underlying.Committed]
  | pass hu hat hlive =>
    refine ⟨h.move hu ?_, nofun⟩
    rintro rfl
    exact (h.not_latest hlive).elim
  | @call k u hu hat =>
    have hkj : k ≠ j := by
      rintro rfl
      obtain ⟨u', m, hu', -, -, hcommitted⟩ := h
      rw [hu] at hu'
      cases hu'
      exact hcommitted (.inl hat)
    refine ⟨h.move hu fun heq => (hkj heq).elim, ?_⟩
    rintro ⟨⟩
    exact hkj rfl

/-- What a deadline sees of a step. -/
def Seen (t : JSTimer) (e : JSEvent) (t' : JSTimer) (o : JSOutcome) : Prop :=
  match e, o with
  | .reset a, .returned was => t'.toTimer = t.toTimer.reset a ∧ was = t.toTimer.armed.isSome
  | .stop, .returned was => (t'.toTimer, was) = t.toTimer.stop
  | .check k, .passed =>
    t.toTimer.armed = (t.timers[k]?).map (·.arming) ∧ t'.toTimer.armed = none
  | _, _ => t'.toTimer = t.toTimer

/-- A deadline sees the timer of the other platforms. -/
theorem Counted.seen (h : Counted t g) (ht : Transition t g e t' o) : Seen t e t' o := by
  cases ht with
  | @blocked e _ _ hreset hstop =>
    cases e with
    | reset a => exact (hreset a rfl).elim
    | stop => exact (hstop rfl).elim
    | fire | check | call => rfl
  | reset => exact reset_toTimer h.current
  | stop =>
    apply Prod.ext
    · rfl
    · exact (toTimer_armed_isSome h.current).symm
  | fire | leave | call => exact move_toTimer _
  | @pass k u hu hat hlive =>
    -- the callback that finds its version is the one of the arming that the deadline sees
    have hstarted : t.started = true := h.started.mpr ⟨k, u, hu, hlive, .inr hat⟩
    refine ⟨?_, rfl⟩
    simp only [toTimer, hstarted, h.latest hlive, if_true, Option.bind_some]

end Answers

section Calls

/-- Where the callback of an arming is. -/
def callbackAt (t : JSTimer) (k : Nat) : Option CallbackAt := (t.timers[k]?).map (·.callback)

/-- The calls of `f` so far, by the arming. -/
def CallsCounted (os : List JSOutcome) (t : JSTimer) : Prop :=
  ∀ k, os.count (.called k) = if t.callbackAt k = some .called then 1 else 0

variable {os : List JSOutcome}

/-- A step that does not call `f` moves no callback to or from the call. -/
theorem CallsCounted.quiet (h : CallsCounted os t) (ho : ∀ k, o ≠ .called k)
    (hkeep : ∀ k, t'.callbackAt k = some .called ↔ t.callbackAt k = some .called) :
    CallsCounted (os ++ [o]) t' := by
  intro k
  have hcount : List.count (.called k) [o] = 0 := by
    simpa [List.count_singleton] using ho k
  rw [List.count_append, h k, hcount]
  simp only [hkeep k, Nat.add_zero]

theorem called_move {j : Nat} {callback : CallbackAt} (hu : t.timers[k]? = some u)
    (hat : u.callback ≠ .called) (hto : callback ≠ .called) :
    (t.move k callback).callbackAt j = some .called ↔ t.callbackAt j = some .called := by
  by_cases hkj : k = j
  · subst hkj
    simp [callbackAt, move, hu, hat, hto]
  · simp [callbackAt, move, hkj]

/-- A step keeps the number of calls of `f`. -/
theorem CallsCounted.step (h : CallsCounted os t) (ht : Transition t g e t' o) :
    CallsCounted (os ++ [o]) t' := by
  cases ht with
  | blocked | stop => exact h.quiet (by simp) fun _ => .rfl
  | reset =>
    refine h.quiet (by simp) fun k => ?_
    by_cases hk : k < t.timers.length
    · simp only [callbackAt, reset, List.getElem?_append_left hk]
    · simp only [callbackAt, reset, List.getElem?_append_right (Nat.le_of_not_lt hk)]
      rw [List.getElem?_eq_none (Nat.le_of_not_lt hk)]
      cases hsub : k - t.timers.length <;> simp
  | fire hu hat | pass hu hat | leave hu hat =>
    exact h.quiet (by simp) fun _ => called_move hu (by simp [hat]) (by simp)
  | @call k u hu hat =>
    intro j
    rw [List.count_append, h j, List.count_singleton]
    by_cases hkj : k = j
    · subst hkj
      simp [callbackAt, move, hu, hat]
    · simp [callbackAt, move, hkj]

/-- `f` is called at most once for each arming. -/
theorem CallsCounted.le_one (h : CallsCounted os t) (k : Nat) :
    os.count (.called k) ≤ 1 := by
  rw [h k]
  split <;> omega

/-- An arming whose callback has returned was cancelled, or has called `f`. -/
theorem Counted.done (h : Counted t g) (hcalls : CallsCounted os t) (hu : t.timers[k]? = some u)
    (hdone : u.Done) :
    Cancelled t g k ∨ os.count (.called k) = 1 := by
  rcases hdone with hcalled | hleft
  · right
    rw [hcalls k, callbackAt, hu, Option.map_some, hcalled, if_pos rfl]
  · left
    obtain ⟨m, hm⟩ := h.exists_made hu
    refine ⟨u, m, hu, hm, Nat.lt_of_le_of_ne (h.made_le hm) ?_, ?_⟩
    · rintro rfl
      exact h.kept hu hm hleft
    · simp [Underlying.Committed, hleft]

end Calls

section Runs

variable {tg tg' : JSTimer × Tally} {events : List JSEvent} {os : List JSOutcome}

/-- The machine beside the count of its calls. -/
abbrev countedStep : JSTimer × Tally → JSEvent → Option ((JSTimer × Tally) × JSOutcome) :=
  observe step tally

/-- The step is there, and answers and shows what it should. -/
def Exact (tg : JSTimer × Tally) (e : JSEvent) : Prop :=
  ∃ t' o, tg.1.step e = some (t', o) ∧ Answers tg.1 tg.2 e t' o ∧ Seen tg.1 e t' o

/-- A step with its count is one of the listed ones. -/
theorem countedStep_inv (h : Counted tg.1 tg.2) (hrecent : Recent tg e)
    (hs : countedStep tg e = some (tg', o)) :
    Transition tg.1 tg.2 e tg'.1 o ∧ tg'.2 = tally tg.1 tg.2 e := by
  obtain ⟨t', o', hstep, ht⟩ := step_transition_counted h hrecent
  simp only [countedStep, observe, hstep, Option.map_some, Option.some.injEq, Prod.mk.injEq] at hs
  obtain ⟨rfl, rfl⟩ := hs
  exact ⟨ht, rfl⟩

/-- A step with its count keeps it. -/
theorem countedStep_keeps (h : Counted tg.1 tg.2) (hrecent : Recent tg e)
    (hs : countedStep tg e = some (tg', o)) : Counted tg'.1 tg'.2 := by
  obtain ⟨ht, hg⟩ := countedStep_inv h hrecent hs
  rw [hg]
  exact h.step ht

/-- Every step of a recent run is exact. -/
theorem run_exact (h : Counted tg.1 tg.2) (hrecent : Along countedStep Recent tg events) :
    (∃ r, run countedStep tg events = some r) ∧ Along countedStep Exact tg events := by
  constructor
  · have hstep : ∀ tg e, Recent tg e → Counted tg.1 tg.2 →
        ∃ tg' o, countedStep tg e = some (tg', o) ∧ Counted tg'.1 tg'.2 := by
      intro tg e hrecent h
      obtain ⟨t', o, hstep, ht⟩ := step_transition_counted h hrecent
      refine ⟨(t', tally tg.1 tg.2 e), o, ?_, h.step ht⟩
      simp only [countedStep, observe, hstep, Option.map_some]
    obtain ⟨tg', os, hrun, -⟩ := run_keeps_along hstep hrecent h
    exact ⟨_, hrun⟩
  · refine Along.of_invariant (I := fun tg => Counted tg.1 tg.2) countedStep_keeps ?_ h hrecent
    intro tg e h hrecent
    obtain ⟨t', o, hstep, ht⟩ := step_transition_counted h hrecent
    exact ⟨t', o, hstep, h.answers ht, h.seen ht⟩

/-- A recent run keeps the number of calls of `f`. -/
theorem run_calls (h : Counted tg.1 tg.2) (hcalls : CallsCounted [] tg.1)
    (hrecent : Along countedStep Recent tg events)
    (hrun : run countedStep tg events = some (tg', os)) :
    Counted tg'.1 tg'.2 ∧ CallsCounted os tg'.1 := by
  refine keeps_outputs (I := fun os tg => Counted tg.1 tg.2 ∧ CallsCounted os tg.1) ?_ []
    ⟨h, hcalls⟩ hrecent hrun
  intro os tg e tg' o h hrecent hs
  exact ⟨countedStep_keeps h.1 hrecent hs, h.2.step (countedStep_inv h.1 hrecent hs).1⟩

/-- A cancelled arming stays cancelled along every run, and does not call `f` any more. -/
theorem run_cancelled (h : Counted tg.1 tg.2) (hcancelled : Cancelled tg.1 tg.2 k)
    (hrecent : Along countedStep Recent tg events)
    (hrun : run countedStep tg events = some (tg', os)) :
    Cancelled tg'.1 tg'.2 k ∧ .called k ∉ os := by
  have hkeep := keeps_outputs
    (I := fun os tg => Counted tg.1 tg.2 ∧ Cancelled tg.1 tg.2 k ∧ .called k ∉ os) ?_ []
    ⟨h, hcancelled, List.not_mem_nil⟩ hrecent hrun
  · exact hkeep.2
  · rintro os tg e tg' o ⟨h, hcancelled, hnot⟩ hrecent hs
    obtain ⟨ht, hg⟩ := countedStep_inv h hrecent hs
    obtain ⟨hcancelled', ho⟩ := hcancelled.step ht
    refine ⟨countedStep_keeps h hrecent hs, hg ▸ hcancelled', ?_⟩
    rw [List.mem_append, List.mem_singleton]
    rintro (hmem | rfl)
    · exact hnot hmem
    · exact ho rfl

/-- The timer keeps its contract in every run whose callbacks compare recent versions: every step
is exact, an arming calls `f` at most once, it has called it when its callback has returned
unless it was cancelled, and a cancelled arming never does. -/
theorem timer_contract (a : Arming) (events : List JSEvent)
    (hrecent : Along countedStep Recent (first a) events) :
    ∃ t g os, run countedStep (first a) events = some ((t, g), os) ∧
      Along countedStep Exact (first a) events ∧
      (∀ k, os.count (.called k) ≤ 1) ∧
      (∀ k u, t.timers[k]? = some u → Underlying.Done u →
        Cancelled t g k ∨ os.count (.called k) = 1) ∧
      ∀ before after, events = before ++ after → ∃ t₁ g₁ os₁ os₂,
        run countedStep (first a) before = some ((t₁, g₁), os₁) ∧
        run countedStep (t₁, g₁) after = some ((t, g), os₂) ∧ os = os₁ ++ os₂ ∧
        ∀ k, Cancelled t₁ g₁ k → Cancelled t g k ∧ .called k ∉ os₂ := by
  have hfirst := Counted.first a
  have hnone : CallsCounted [] (first a).1 := by
    intro k
    cases k <;> rfl
  obtain ⟨⟨⟨⟨t, g⟩, os⟩, hrun⟩, hexact⟩ := run_exact hfirst hrecent
  obtain ⟨hcounted, hcalls⟩ := run_calls hfirst hnone hrecent hrun
  refine ⟨t, g, os, hrun, hexact, hcalls.le_one, ?_, ?_⟩
  · exact fun k u hu hdone => hcounted.done hcalls hu hdone
  · rintro before after rfl
    obtain ⟨⟨t₁, g₁⟩, os₁, os₂, hbefore, hafter, rfl⟩ := run_append_inv hrun
    obtain ⟨hrecent₁, hrecent₂⟩ := along_append hrecent hbefore
    have hcounted₁ := (run_calls hfirst hnone hrecent₁ hbefore).1
    exact ⟨t₁, g₁, os₁, os₂, hbefore, hafter, rfl,
      fun k hcancelled => run_cancelled hcounted₁ hcancelled hrecent₂ hafter⟩

/-- The first arming is replaced after it has fired, its late callback leaves, and the second one
calls `f` before it could be stopped. -/
theorem timer_contract_replaced :
    let events := [.fire 0, .reset ⟨5, 1⟩, .check 0, .fire 1, .check 1, .stop, .call 1]
    ∃ t g, run countedStep (first ⟨3, 1⟩) events = some ((t, g), [.fired, .returned true, .left,
        .fired, .passed, .returned false, .called 1]) ∧
      Along countedStep Exact (first ⟨3, 1⟩) events := by
  intro events
  have hrecent : Along countedStep Recent (first ⟨3, 1⟩) events := by decide
  obtain ⟨t, g, os, hrun, hexact, -⟩ := timer_contract ⟨3, 1⟩ events hrecent
  obtain rfl := holds_of_run hrun (fun _ os => os = [.fired, .returned true, .left, .fired,
    .passed, .returned false, .called 1]) (by decide)
  exact ⟨t, g, hrun, hexact⟩

end Runs

section Wrapping

/-- Calls of `Stop` on a stopped timer. -/
theorem run_stops (htimer : t.timer = some k) (hstarted : t.started = false) (n : Nat) :
    run step t (List.replicate n .stop) = some ({ t with version := t.version + UInt64.ofNat n },
      List.replicate n (.returned false)) := by
  induction n generalizing t with
  | zero => simp
  | succ n ih =>
    have hs : t.step .stop = some ({ t with version := t.version + 1 }, .returned false) := by
      simp [step, JSTimer.stop, htimer, hstarted]
    have hrest := @ih { t with version := t.version + 1 } htimer hstarted
    have hversion : t.version + UInt64.ofNat (n + 1) = t.version + 1 + UInt64.ofNat n := by
      rw [UInt64.ofNat_add, UInt64.add_assoc, UInt64.add_comm (UInt64.ofNat n)]
      rfl
    rw [List.replicate_succ, run_cons hs, hrest, hversion]
    rfl

/-- A callback that is held up until the versions come round calls `f`. -/
theorem run_stops_wrapped {n : Nat} (hn : 2 + UInt64.ofNat n = 1) :
    ∃ t os, run step (afterFunc a) (.fire 0 :: .stop ::
        (List.replicate n .stop ++ [.check 0, .call 0])) =
      some (t, .fired :: .returned true :: os) ∧ .called 0 ∈ os := by
  -- after the first stop the current version is 2
  have hstops := run_stops (t := ⟨some 0, 2, false, [⟨a, 1, .running⟩]⟩) rfl rfl n
  have hlast : run step ⟨some 0, 2 + UInt64.ofNat n, false, [⟨a, 1, .running⟩]⟩
      [.check 0, .call 0] =
      some (⟨some 0, 1, false, [⟨a, 1, .called⟩]⟩, [.passed, .called 0]) := by
    rw [hn]
    rfl
  have hrest := run_append hstops [.check 0, .call 0]
  rw [hlast, Option.map_some] at hrest
  have hfire : (afterFunc a).step (.fire 0) =
      some (⟨some 0, 1, true, [⟨a, 1, .running⟩]⟩, .fired) := rfl
  have hstop : step ⟨some 0, 1, true, [⟨a, 1, .running⟩]⟩ .stop =
      some (⟨some 0, 2, false, [⟨a, 1, .running⟩]⟩, .returned true) := rfl
  exact ⟨⟨some 0, 1, false, [⟨a, 1, .called⟩]⟩,
    List.replicate n (.returned false) ++ [.passed, .called 0],
    run_cons_some hfire (run_cons_some hstop hrest), by simp⟩

/-- After `2 ^ 64` stops the arming that the first of them cancelled calls `f`. -/
theorem stopped_arming_calls :
    ∃ t os, run step (afterFunc ⟨0, 0⟩) (.fire 0 :: .stop ::
        (List.replicate (2 ^ 64 - 1) .stop ++ [.check 0, .call 0])) =
      some (t, .fired :: .returned true :: os) ∧ .called 0 ∈ os :=
  run_stops_wrapped (by decide)

end Wrapping

end JSTimer

end PionTransport.Deadlines
