import PionTransport.Core.Heap
import PionTransport.Deadlines.Deadline

/-!
# The invariant of a deadline

`pending` counts the callbacks that are still to run, modulo its width: the
armed timer and the expired ones. The timer is armed only for the last `Set`
and only while the deadline is started, and every channel but the current one
is closed. With that no step panics.
-/

namespace PionTransport.Deadlines

open PionTransport.Core

/-- The running timer. -/
def Deadline.armed (d : Deadline) : Option Arming := d.timer.bind (·.armed)

/-- The callbacks still to run. -/
def Deadline.outstanding (d : Deadline) : Nat := d.running.length + d.armed.toList.length

/-- Close `done` and leave the cancel function to be called. -/
def Deadline.fired (d : Deadline) : Deadline :=
  { d with
    state := .exceeded
    chans := d.chans.set d.done true
    ctx := none
    cancel := none
    cancelling := d.cancelling ++ d.cancel.toList }

/-- What one step can do. -/
inductive Transition (d : Deadline) : Event → Deadline → Outcome → Prop
  | blocked {e} : Transition d e d .blocked
  | suspend {now d₁} : d.renew none = some d₁ →
      Transition d (.set none now)
        { d₁ with pending := d₁.pending - 1, state := .suspended } (.set false)
  | start {t now d₁} : d.renew (some t) = some d₁ → 0 < timeUntil t now →
      Transition d (.set (some t) now)
        { d₁ with
          state := .started
          timer := some { armed := some ⟨d₁.sets, now + timeUntil t now⟩ } } (.set false)
  | past {t now d₁} : d.renew (some t) = some d₁ → timeUntil t now ≤ 0 →
      d₁.chans[d₁.done]? = some false →
      Transition d (.set (some t) now)
        (Deadline.fired { d₁ with pending := d₁.pending - 1 }) (.set true)
  | expire {now a} : d.timer = some { armed := some a } → a.due ≤ now →
      Transition d (.expire now)
        { d with timer := some { armed := none }, running := d.running ++ [a.set] }
        (.expired a.set)
  | leave {i k} : d.running[i]? = some k → d.pending - 1 ≠ 0 ∨ d.state ≠ .started →
      Transition d (.timeout i)
        { d with running := d.running.eraseIdx i, pending := d.pending - 1 } (.ran k false)
  | fire {i k} : d.running[i]? = some k → d.pending - 1 = 0 → d.state = .started →
      d.chans[d.done]? = some false →
      Transition d (.timeout i)
        (Deadline.fired { d with running := d.running.eraseIdx i, pending := d.pending - 1 })
        (.ran k true)
  | cancel {i n} : d.cancelling[i]? = some n →
      Transition d (.cancel i)
        { d with
          cancelling := d.cancelling.eraseIdx i
          contexts := d.contexts.modify n fun cause => cause <|> some .deadlineExceeded }
        (.cancelled n)
  | exceeded : d.state = .exceeded → Transition d .context d (.context .exceededContext)
  | same {n} : d.state ≠ .exceeded → d.ctx = some n → Transition d .context d (.context (.ofNat n))
  | fresh : d.state ≠ .exceeded → d.ctx = none →
      Transition d .context
        { d with
          ctx := some d.contexts.length
          cancel := some d.contexts.length
          contexts := d.contexts ++ [none] }
        (.context (.ofNat d.contexts.length))
  | done : Transition d .done d (.done d.done)
  | err : Transition d .err d (.err d.err)
  | deadline : Transition d .deadline d (.deadline d.deadline)

section Cases

variable {d d' : Deadline} {o : Outcome}

/-- What firing does. -/
theorem fire_eq_some {r : Deadline × Option Nat} (h : d.fire = some r) :
    d.chans[d.done]? = some false ∧ Deadline.after r = d.fired ∧ r.1.state = .exceeded := by
  unfold Deadline.fire at h
  split at h
  next hopen =>
    cases h
    exact ⟨hopen, rfl, rfl⟩
  · cases h

/-- `Set` is one of the listed moves. -/
theorem set_transition {setTo : Option Int} {now : Int}
    (h : d.step (.set setTo now) = some (d', o)) : Transition d (.set setTo now) d' o := by
  obtain ⟨r, hset, he⟩ := Option.map_eq_some_iff.mp h
  obtain ⟨d₁, hrenew, hset⟩ := Option.bind_eq_some_iff.mp hset
  cases setTo with
  | none =>
    cases hset
    cases he
    have ht : Transition d (.set none now) _ _ := .suspend hrenew
    simpa [Deadline.after] using ht
  | some t =>
    dsimp only at hset
    split at hset
    next hdur =>
      cases hset
      cases he
      have ht := Transition.start hrenew hdur
      cases htimer : d₁.timer <;> simpa [Deadline.after, htimer, afterFunc, Timer.reset] using ht
    next hdur =>
      obtain ⟨hopen, hafter, hstate⟩ := fire_eq_some hset
      cases he
      rw [hafter, hstate]
      exact .past hrenew (Int.not_lt.mp hdur) hopen

/-- A step is one of the listed ones. -/
theorem step_transition {e : Event} (h : d.step e = some (d', o)) : Transition d e d' o := by
  cases e with
  | set setTo now => exact set_transition h
  | timeout i =>
    simp only [Deadline.step, Deadline.timeout] at h
    split at h
    · cases h
      exact .blocked
    next k hk =>
      split at h
      next hno =>
        cases h
        exact .leave hk hno
      next hyes =>
        obtain ⟨r, hfire, he⟩ := Option.map_eq_some_iff.mp h
        obtain ⟨hopen, hafter, -⟩ := fire_eq_some hfire
        cases he
        rw [hafter]
        rw [not_or, not_not, not_not] at hyes
        exact .fire hk hyes.1 hyes.2 hopen
  | _ =>
    simp only [Deadline.step, Deadline.expire, Deadline.callCancel, Deadline.context] at h
    repeat' split at h
    all_goals cases h
    all_goals first
      | exact .blocked
      | exact .expire ‹_› ‹_›
      | exact .cancel ‹_›
      | exact .exceeded ‹_›
      | exact .same ‹_› ‹_›
      | exact .fresh ‹_› ‹_›
      | exact .done
      | exact .err
      | exact .deadline

end Cases

/-- The invariant of reachable deadlines: a started one has a timer, and every channel but the
current one is closed, which is closed exactly while the deadline is exceeded. -/
structure Wf (d : Deadline) : Prop where
  timer : d.state = .started → d.timer ≠ none
  chans : d.chans = List.replicate d.done true ++ [decide (d.state = .exceeded)]

/-- What `renew` keeps and replaces. -/
structure Renewed (d d₁ : Deadline) : Prop where
  running : d₁.running = d.running
  sets : d₁.sets = d.sets + 1
  contexts : d₁.contexts = d.contexts ∧ d₁.ctx = d.ctx ∧ d₁.cancel = d.cancel ∧
    d₁.cancelling = d.cancelling
  chans : d₁.chans = List.replicate d₁.done true ++ [false]
  done : d₁.done = if d.state = .exceeded then d.done + 1 else d.done

section Invariant

variable {d d' d₁ : Deadline} {e : Event} {o : Outcome}

/-- A new deadline meets the invariant. -/
theorem Wf.new : Wf new where
  timer h := by cases h
  chans := rfl

/-- `Set` on a running timer stops it. -/
theorem renew_started {t : Timer} (hstate : d.state = .started) (ht : d.timer = some t)
    (setTo : Option Int) :
    d.renew setTo = some { d with
      timer := some t.stop.1
      pending := (if t.stop.2 then d.pending - 1 else d.pending) + 1
      deadline := setTo
      sets := d.sets + 1 } := by
  simp [Deadline.renew, Deadline.stopTimer, hstate, ht]

/-- `Set` without a timer. -/
theorem renew_suspended (hstate : d.state = .suspended) (setTo : Option Int) :
    d.renew setTo =
      some { d with deadline := setTo, pending := d.pending + 1, sets := d.sets + 1 } := by
  simp [Deadline.renew, Deadline.stopTimer, hstate]

/-- `Set` after firing makes a new channel. -/
theorem renew_exceeded (hstate : d.state = .exceeded) (setTo : Option Int) :
    d.renew setTo = some { d with
      deadline := setTo
      pending := d.pending + 1
      sets := d.sets + 1
      done := d.chans.length
      chans := d.chans ++ [false] } := by
  simp [Deadline.renew, Deadline.stopTimer, hstate]

/-- The first part of `Set` never panics. -/
theorem Wf.renew (h : Wf d) (setTo : Option Int) :
    ∃ d₁, d.renew setTo = some d₁ ∧ Renewed d d₁ := by
  have hchans := h.chans
  cases hstate : d.state with
  | started =>
    obtain ⟨t, ht⟩ := Option.ne_none_iff_exists'.mp (h.timer hstate)
    refine ⟨_, renew_started hstate ht setTo, rfl, rfl, ⟨rfl, rfl, rfl, rfl⟩, ?_, by simp [hstate]⟩
    simpa [hstate] using hchans
  | suspended =>
    refine ⟨_, renew_suspended hstate setTo, rfl, rfl, ⟨rfl, rfl, rfl, rfl⟩, ?_, by simp [hstate]⟩
    simpa [hstate] using hchans
  | exceeded =>
    refine ⟨_, renew_exceeded hstate setTo, rfl, rfl, ⟨rfl, rfl, rfl, rfl⟩, ?_, ?_⟩
    · rw [hstate] at hchans
      simp [hchans, List.replicate_succ']
    · simp [hchans, hstate]

/-- What the first part of `Set` leaves. -/
theorem Wf.renewed (h : Wf d) {setTo : Option Int} (hrenew : d.renew setTo = some d₁) :
    Renewed d d₁ := by
  obtain ⟨d₂, hrenew₂, hr⟩ := h.renew setTo
  rw [hrenew] at hrenew₂
  cases hrenew₂
  exact hr

theorem getElem?_done {b : Bool} (h : d.chans = List.replicate d.done true ++ [b]) :
    d.chans[d.done]? = some b := by
  simp [h]

/-- Firing closes the last channel. -/
theorem fired_chans (h : d.chans = List.replicate d.done true ++ [false]) :
    d.fired.chans = List.replicate d.done true ++ [true] := by
  rw [Deadline.fired, h]
  simp

/-- A step keeps the invariant. -/
theorem Wf.step (h : Wf d) (ht : Transition d e d' o) : Wf d' := by
  cases ht with
  | blocked | exceeded | same | done | err | deadline => exact h
  | suspend hrenew =>
    refine ⟨fun hs => ?_, by simpa using (h.renewed hrenew).chans⟩
    cases hs
  | start hrenew hdur => exact ⟨by simp, by simpa using (h.renewed hrenew).chans⟩
  | past hrenew hdur hopen =>
    refine ⟨fun hs => ?_, fired_chans (h.renewed hrenew).chans⟩
    cases hs
  | expire htimer hdue => exact ⟨by simp, h.chans⟩
  | fire hk hpending hstate hopen =>
    have hchans := h.chans
    rw [hstate] at hchans
    refine ⟨fun hs => ?_, fired_chans hchans⟩
    cases hs
  | leave | cancel | fresh => exact ⟨h.timer, h.chans⟩

/-- Firing succeeds while the channel is open. -/
theorem fire_of_open (h : d.chans[d.done]? = some false) : ∃ r, d.fire = some r := by
  rw [Deadline.fire, if_pos h]
  exact ⟨_, rfl⟩

/-- No step of a reachable deadline panics: no closed channel is closed again, and the timer is
there when it is to be stopped. -/
theorem Wf.progress (h : Wf d) (e : Event) : ∃ d' o, d.step e = some (d', o) := by
  cases e with
  | set setTo now =>
    obtain ⟨d₁, hrenew, hr⟩ := h.renew setTo
    have hset : ∃ r, d.set setTo now = some r := by
      simp only [Deadline.set, hrenew, Option.bind_eq_bind, Option.bind_some]
      cases setTo with
      | none => exact ⟨_, rfl⟩
      | some t =>
        dsimp only
        split
        · exact ⟨_, rfl⟩
        · exact fire_of_open (getElem?_done hr.chans)
    obtain ⟨r, hset⟩ := hset
    exact ⟨_, _, by rw [Deadline.step, hset]; rfl⟩
  | timeout i =>
    simp only [Deadline.step, Deadline.timeout]
    split
    · exact ⟨_, _, rfl⟩
    next k hk =>
      split
      · exact ⟨_, _, rfl⟩
      next hyes =>
        rw [not_or, not_not, not_not] at hyes
        have hchans := h.chans
        rw [hyes.2] at hchans
        obtain ⟨r, hr⟩ := fire_of_open (d := { d with
          running := d.running.eraseIdx i
          pending := d.pending - 1 }) (getElem?_done hchans)
        exact ⟨_, _, by rw [hr]; rfl⟩
  | _ => exact ⟨_, _, rfl⟩

/-- No interleaving panics, and the invariant holds after each. -/
theorem Wf.run (h : Wf d) (es : List Event) :
    ∃ d' os, run Deadline.step d es = some (d', os) ∧ Wf d' :=
  run_keeps (fun _ e hwf => by
    obtain ⟨d₁, o, hstep⟩ := hwf.progress e
    exact ⟨d₁, o, hstep, hwf.step (step_transition hstep)⟩) es h

end Invariant

end PionTransport.Deadlines
