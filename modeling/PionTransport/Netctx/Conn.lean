import PionTransport.Netctx.Wrapper

/-!
# Stream connections under contexts

`ReadContext` and `WriteContext` run the wrapped call beside a helper goroutine
that waits for the context or for the end of the call. A cancelled context makes
the helper set the deadline to a very old instant, which ends the wrapped call,
and to zero again once it has ended. The call waits for its helper before it
returns.
-/

namespace PionTransport.Netctx.Conn

open PionTransport.Core

/-- Where a call is. -/
inductive MainAt (ε : Type)
  /-- in front of the lock of its mutex -/
  | locking
  /-- in the wrapped read or write -/
  | running
  /-- the wrapped call has returned -/
  | ended (n : Nat) (err : Option (Err ε))
  /-- has closed `done` and waits for the helper -/
  | joining (n : Nat) (err : Option (Err ε))
  | returned (n : Nat) (err : Option (Err ε))
  deriving DecidableEq

/-- Where the helper of a call is. -/
inductive HelperAt
  | unborn
  /-- in its `select` -/
  | selecting
  /-- has seen the context cancelled -/
  | cancelled
  /-- has set the very old deadline and waits for `done` -/
  | armed
  | finished
  deriving DecidableEq, Repr

/-- A call of `ReadContext` or `WriteContext`. -/
structure Call (ε : Type) where
  ctx : Nat
  main : MainAt ε := .locking
  helper : HelperAt := .unborn
  errSetDeadline : Option ε := none
  deriving DecidableEq

/-- The steps of a call and of its helper. -/
inductive CallEvent (ε : Type)
  | call (ctx : Nat)
  /-- take the mutex, look at `closed` and start the helper -/
  | lock (i : Nat)
  /-- the wrapped call returns -/
  | io (i : Nat) (n : Nat) (err : Option ε)
  | closeDone (i : Nat)
  /-- the helper receives from the context -/
  | cancelled (i : Nat)
  /-- the helper receives from `done` in its `select` -/
  | done (i : Nat)
  /-- the helper sets the very old deadline, with the result -/
  | setOld (i : Nat) (err : Option ε)
  /-- the helper receives from `done` and sets the zero deadline, with the result -/
  | setZero (i : Nat) (err : Option ε)
  /-- the helper has ended; return -/
  | join (i : Nat)

variable {ε : Type}

/-- Setting the deadline succeeds. -/
def CallEvent.ok : CallEvent ε → Bool
  | .setOld _ err | .setZero _ err => err.isNone
  | _ => true

/-- The channel `done` is closed. -/
def MainAt.doneClosed : MainAt ε → Bool
  | .joining .. | .returned .. => true
  | .locking | .running | .ended .. => false

/-- The error that a call returns. -/
def callErr (ctxErr : Option CtxErr) (errSetDeadline : Option ε) (n : Nat)
    (err : Option (Err ε)) : Option (Err ε) :=
  let err :=
    match ctxErr with
    | some e => if n = 0 then some (.ctx e) else err
    | none => err
  match err, errSetDeadline with
  | none, some e => some (.setDeadline e)
  | err, _ => err

/-- One step of a call or of its helper. -/
def step : SideStep (Call ε) (CallEvent ε) ε := fun dir contexts closed s e =>
  match e with
  | .call ctx => ({ s with calls := s.calls ++ [{ ctx }] }, closed, .moved)
  | .lock i =>
    match s.calls[i]?, s.holder with
    | some ⟨_, .locking, _, _⟩, none =>
      if closed then
        (s.move i fun c => { c with main := .returned 0 (some dir.closedErr) }, closed,
          .returned i 0 (some dir.closedErr))
      else
        ({ s.move i fun c => { c with main := .running, helper := .selecting } with
          holder := some i }, closed, .moved)
    | _, _ => (s, closed, .blocked)
  | .io i n err =>
    match s.calls[i]? with
    | some ⟨_, .running, _, _⟩ =>
      (s.move i fun c => { c with main := .ended n (err.map .io) }, closed, .moved)
    | _ => (s, closed, .blocked)
  | .closeDone i =>
    match s.calls[i]? with
    | some ⟨_, .ended n err, _, _⟩ =>
      (s.move i fun c => { c with main := .joining n err }, closed, .moved)
    | _ => (s, closed, .blocked)
  | .cancelled i =>
    match s.calls[i]? with
    | some ⟨ctx, _, .selecting, _⟩ =>
      if (contexts.err ctx).isSome then
        (s.move i fun c => { c with helper := .cancelled }, closed, .moved)
      else (s, closed, .blocked)
    | _ => (s, closed, .blocked)
  | .done i =>
    match s.calls[i]? with
    | some ⟨_, main, .selecting, _⟩ =>
      if main.doneClosed then (s.move i fun c => { c with helper := .finished }, closed, .moved)
      else (s, closed, .blocked)
    | _ => (s, closed, .blocked)
  | .setOld i err =>
    match s.calls[i]? with
    | some ⟨_, _, .cancelled, _⟩ =>
      match err with
      | none =>
        ({ s.move i fun c => { c with helper := .armed } with deadline := veryOld }, closed, .moved)
      | some e =>
        (s.move i fun c => { c with helper := .finished, errSetDeadline := some e }, closed, .moved)
    | _ => (s, closed, .blocked)
  | .setZero i err =>
    match s.calls[i]? with
    | some ⟨_, main, .armed, _⟩ =>
      if main.doneClosed then
        match err with
        | none =>
          ({ s.move i fun c => { c with helper := .finished } with deadline := none }, closed,
            .moved)
        | some e =>
          (s.move i fun c => { c with helper := .finished, errSetDeadline := some e }, closed,
            .moved)
      else (s, closed, .blocked)
    | _ => (s, closed, .blocked)
  | .join i =>
    match s.calls[i]? with
    | some ⟨ctx, .joining n err, .finished, errSetDeadline⟩ =>
      let err := callErr (contexts.err ctx) errSetDeadline n err
      ({ s.move i fun c => { c with main := .returned n err } with holder := none }, closed,
        .returned i n err)
    | _ => (s, closed, .blocked)

/-- What one step can do while the wrapper is open and setting the deadline succeeds. -/
inductive Transition (contexts : Contexts) (s : Side (Call ε)) :
    CallEvent ε → Side (Call ε) → Outcome ε → Prop
  | blocked {e} : Transition contexts s e s .blocked
  | call {ctx} :
      Transition contexts s (.call ctx) { s with calls := s.calls ++ [{ ctx }] } .moved
  | lock {i ctx helper e} : s.calls[i]? = some ⟨ctx, .locking, helper, e⟩ → s.holder = none →
      Transition contexts s (.lock i)
        { s.move i fun c => { c with main := .running, helper := .selecting } with
          holder := some i } .moved
  | io {i ctx helper e n err} : s.calls[i]? = some ⟨ctx, .running, helper, e⟩ →
      Transition contexts s (.io i n err)
        (s.move i fun c => { c with main := .ended n (err.map .io) }) .moved
  | closeDone {i ctx helper e n err} : s.calls[i]? = some ⟨ctx, .ended n err, helper, e⟩ →
      Transition contexts s (.closeDone i)
        (s.move i fun c => { c with main := .joining n err }) .moved
  | cancelled {i ctx main e} : s.calls[i]? = some ⟨ctx, main, .selecting, e⟩ →
      Transition contexts s (.cancelled i)
        (s.move i fun c => { c with helper := .cancelled }) .moved
  | done {i ctx main e} : s.calls[i]? = some ⟨ctx, main, .selecting, e⟩ →
      Transition contexts s (.done i) (s.move i fun c => { c with helper := .finished }) .moved
  | setOld {i ctx main e} : s.calls[i]? = some ⟨ctx, main, .cancelled, e⟩ →
      Transition contexts s (.setOld i none)
        { s.move i fun c => { c with helper := .armed } with deadline := veryOld } .moved
  | setZero {i ctx main e} : s.calls[i]? = some ⟨ctx, main, .armed, e⟩ →
      Transition contexts s (.setZero i none)
        { s.move i fun c => { c with helper := .finished } with deadline := none } .moved
  | join {i ctx n err e} : s.calls[i]? = some ⟨ctx, .joining n err, .finished, e⟩ →
      Transition contexts s (.join i)
        { s.move i fun c => { c with main := .returned n (callErr (contexts.err ctx) e n err) } with
          holder := none }
        (.returned i n (callErr (contexts.err ctx) e n err))

section Cases

variable (dir : Direction) (contexts : Contexts) (s : Side (Call ε))

/-- A step of an open wrapper is one of the listed ones, and does not close it. -/
theorem step_transition {e : CallEvent ε} (hok : e.ok = true) :
    Transition contexts s e (step dir contexts false s e).1 (step dir contexts false s e).2.2 ∧
      (step dir contexts false s e).2.1 = false := by
  -- the branches that move follow in the events' order
  cases e <;> simp only [step] <;> (repeat' split) <;> try exact ⟨.blocked, rfl⟩
  · exact ⟨.call, trivial⟩
  · cases ‹false = true›
  · exact ⟨.lock ‹_› ‹_›, rfl⟩
  · exact ⟨.io ‹_›, rfl⟩
  · exact ⟨.closeDone ‹_›, rfl⟩
  · exact ⟨.cancelled ‹_›, rfl⟩
  · exact ⟨.done ‹_›, rfl⟩
  · exact ⟨.setOld ‹_›, rfl⟩
  · cases hok
  · exact ⟨.setZero ‹_›, rfl⟩
  · cases hok
  · exact ⟨.join ‹_›, rfl⟩

end Cases

/-- The helper has started and not ended. -/
def HelperAt.runs : HelperAt → Bool
  | .selecting | .cancelled | .armed => true
  | .unborn | .finished => false

/-- The call holds its mutex. -/
def MainAt.holds : MainAt ε → Bool
  | .running | .ended .. | .joining .. => true
  | .locking | .returned .. => false

/-- What holds of a call: it has the mutex while it is under way, its helper runs only then, and
setting the deadline has not failed. -/
structure Call.Ok (holder : Option Nat) (i : Nat) (c : Call ε) : Prop where
  holds : c.main.holds = true → holder = some i
  runs : c.helper.runs = true → c.main.holds = true
  succeeded : c.errSetDeadline = none

/-- The invariant of one direction that had the deadline `initial` at first: only an armed helper
keeps another deadline than that or the zero one. -/
structure Guarded (initial : Time) (s : Side (Call ε)) : Prop where
  calls : ∀ (i : Nat) (c : Call ε), s.calls[i]? = some c → c.Ok s.holder i
  deadline : s.deadline = initial ∨ s.deadline = none ∨
    ∃ (i : Nat) (c : Call ε), s.calls[i]? = some c ∧ c.helper = .armed

section Invariant

variable {initial : Time} {contexts : Contexts} {s s' : Side (Call ε)} {e : CallEvent ε}
  {o : Outcome ε}

theorem Guarded.new (initial : Time) :
    Guarded initial ({ deadline := initial } : Side (Call ε)) where
  calls i c h := by cases h
  deadline := .inl rfl

variable {c : Call ε}

/-- Only the call that holds the mutex is under way. -/
theorem Call.Ok.idle {holder : Option Nat} {j : Nat} (h : c.Ok holder j) (hne : holder ≠ some j)
    (holder' : Option Nat) : c.Ok holder' j where
  holds hmain := absurd (h.holds hmain) hne
  runs := h.runs
  succeeded := h.succeeded

variable {i : Nat}

/-- The deadline after a step that does not touch it. -/
theorem Guarded.deadline_move (h : Guarded initial s) (hi : s.calls[i]? = some c)
    {f : Call ε → Call ε} (hf : c.helper = .armed → (f c).helper = .armed) :
    s.deadline = initial ∨ s.deadline = none ∨
      ∃ (j : Nat) (c : Call ε), (s.move i f).calls[j]? = some c ∧ c.helper = .armed := by
  obtain hd | hd | ⟨j, harmed⟩ := h.deadline
  · exact .inl hd
  · exact .inr (.inl hd)
  · exact .inr (.inr ⟨j, Side.exists_move harmed hi hf⟩)

/-- A step of the holder's own that keeps the mutex. -/
theorem Guarded.move (h : Guarded initial s) (hi : s.calls[i]? = some c) {f : Call ε → Call ε}
    (hok : (f c).Ok s.holder i) (harmed : c.helper = .armed → (f c).helper = .armed) :
    Guarded initial (s.move i f) where
  calls := s.forall_move h.calls hi hok fun _ _ _ hj => hj
  deadline := h.deadline_move hi harmed

theorem Guarded.step (h : Guarded initial s) (ht : Transition contexts s e s' o) :
    Guarded initial s' := by
  cases ht with
  | blocked => exact h
  | call =>
    refine ⟨fun i c hi => ?_, ?_⟩
    · obtain ⟨-, rfl⟩ | hi := getElem?_snoc_iff.mp hi
      · exact ⟨nofun, nofun, rfl⟩
      · exact h.calls i c hi
    · obtain hd | hd | ⟨i, harmed⟩ := h.deadline
      · exact .inl hd
      · exact .inr (.inl hd)
      · exact .inr (.inr ⟨i, Side.exists_snoc _ harmed⟩)
  | lock hi hfree =>
    have hc := h.calls _ _ hi
    refine ⟨s.forall_move h.calls hi ⟨fun _ => rfl, fun _ => rfl, hc.succeeded⟩
      fun j c' _ hj => hj.idle (by simp [hfree]) _, h.deadline_move hi fun harmed => ?_⟩
    cases hc.runs (by rw [harmed]; rfl)
  | io hi | closeDone hi =>
    have hc := h.calls _ _ hi
    exact h.move hi ⟨fun _ => hc.holds rfl, fun _ => rfl, hc.succeeded⟩ id
  | cancelled hi =>
    have hc := h.calls _ _ hi
    have hm := hc.runs rfl
    exact h.move hi ⟨fun _ => hc.holds hm, fun _ => hm, hc.succeeded⟩ nofun
  | done hi =>
    have hc := h.calls _ _ hi
    exact h.move hi ⟨hc.holds, nofun, hc.succeeded⟩ nofun
  | setOld hi =>
    have hc := h.calls _ _ hi
    have hm := hc.runs rfl
    exact ⟨s.forall_move h.calls hi ⟨fun _ => hc.holds hm, fun _ => hm, hc.succeeded⟩
      fun _ _ _ hj => hj, .inr (.inr ⟨_, _, s.getElem?_move hi _, rfl⟩)⟩
  | setZero hi =>
    have hc := h.calls _ _ hi
    exact ⟨s.forall_move h.calls hi ⟨hc.holds, nofun, hc.succeeded⟩ fun _ _ _ hj => hj,
      .inr (.inl rfl)⟩
  | join hi =>
    have hc := h.calls _ _ hi
    refine ⟨s.forall_move h.calls hi ⟨nofun, nofun, hc.succeeded⟩ fun j c' hj hok => ?_,
      h.deadline_move hi nofun⟩
    exact hok.idle (by rw [hc.holds rfl]; simpa using hj.symm) _

/-- While the mutex is free the deadline is the first one or zero. -/
theorem Guarded.deadline_free (h : Guarded initial s) (hfree : s.holder = none) :
    s.deadline = initial ∨ s.deadline = none := by
  obtain hd | hd | ⟨i, c, hi, harmed⟩ := h.deadline
  · exact .inl hd
  · exact .inr hd
  · have hc := h.calls i c hi
    have hh := hc.holds (hc.runs (by rw [harmed]; rfl))
    rw [hfree] at hh
    cases hh

/-- A returning call has released the mutex, and its helper has ended. -/
theorem Guarded.returned {n : Nat} {err : Option (Err ε)}
    (ht : Transition contexts s e s' (.returned i n err)) :
    s'.holder = none ∧ ∃ c, s'.calls[i]? = some c ∧ c.main = .returned n err ∧
      c.helper = .finished := by
  cases ht with
  | join hi => exact ⟨rfl, _, s.getElem?_move hi _, rfl, rfl⟩

/-- The call whose helper takes a step. -/
def CallEvent.helper : CallEvent ε → Option Nat
  | .cancelled i | .done i | .setOld i _ | .setZero i _ => some i
  | .call _ | .lock _ | .io .. | .closeDone _ | .join _ => none

/-- A helper that does not run takes no step. -/
theorem step_helper {dir : Direction} {closed : Bool} (he : e.helper = some i)
    (hi : s.calls[i]? = some c) (hr : c.helper.runs = false) :
    step dir contexts closed s e = (s, closed, .blocked) := by
  obtain ⟨ctx, main, helper, err⟩ := c
  cases e with
  | call | lock | io | closeDone | join => cases he
  | cancelled | done | setOld | setZero =>
    cases he
    simp only [step, hi]
    cases helper with
    | unborn | finished => rfl
    | selecting | cancelled | armed => cases hr

/-- The error of a call whose helper had no trouble. -/
theorem callErr_fits {ctxErr now : Option CtxErr} (h : ∀ e, ctxErr = some e → now = some e)
    (n : Nat) (err : Option (Err ε)) : ErrFits ctxErr n err (callErr now none n err) := by
  refine ⟨fun hn => ?_, fun e hn he => ?_⟩
  · have hn : n ≠ 0 := by omega
    cases now <;> cases err <;> simp [callErr, hn]
  · subst hn
    simp [callErr, h e he]

/-- The wrapped call has returned `n` and `err` when the context had the error `ctxErr`. -/
def MainAt.Ended (ctxErr : Option CtxErr) (n : Nat) (err : Option (Err ε)) : MainAt ε → Prop
  | .ended n' err' | .joining n' err' => n' = n ∧ err' = err
  | .returned n' err' => n' = n ∧ ErrFits ctxErr n err err'
  | .locking | .running => False

/-- The end of a wrapped call determines what the call returns. -/
theorem ended_step {ctx n : Nat} {ctxErr : Option CtxErr} {err : Option (Err ε)}
    (h : ∃ c, s.calls[i]? = some c ∧ c.ctx = ctx ∧ c.main.Ended ctxErr n err)
    (hg : Guarded initial s) (hctx : ∀ e, ctxErr = some e → contexts.err ctx = some e)
    (ht : Transition contexts s e s' o) :
    ∃ c, s'.calls[i]? = some c ∧ c.ctx = ctx ∧ c.main.Ended ctxErr n err := by
  cases ht with
  | blocked => exact h
  | call => exact Side.exists_snoc _ h
  | lock hj | io hj => exact Side.exists_move h hj fun hc => False.elim hc.2
  | closeDone hj | cancelled hj | done hj | setOld hj | setZero hj =>
    exact Side.exists_move h hj id
  | join hj =>
    obtain rfl := (hg.calls _ _ hj).succeeded
    refine Side.exists_move h hj fun hc => ?_
    obtain ⟨rfl, rfl, rfl⟩ := hc
    exact ⟨rfl, rfl, callErr_fits hctx _ _⟩

end Invariant

/-- What holds of a wrapper of a connection that had the deadlines `initial`. -/
structure Restored (initial : Direction → Time) (w : Wrapper (Call ε)) : Prop where
  /-- A call returns when its helper has ended and the deadline is the first one or zero. -/
  returns : ∀ dir e w' i n err, CallEvent.ok e = true →
    w.step true step (.side dir e) = some (w', .returned i n err) →
    ((w'.sides dir).deadline = initial dir ∨ (w'.sides dir).deadline = none) ∧
      (initial dir ≠ veryOld → (w'.sides dir).deadline ≠ veryOld) ∧
      ∃ c, (w'.sides dir).calls[i]? = some c ∧ c.main = .returned n err ∧ c.helper = .finished
  /-- The helper of a call that has returned takes no step. -/
  helper : ∀ dir e (i : Nat) c n err, (w.sides dir).calls[i]? = some c →
    c.main = .returned n err → e.helper = some i →
    w.step true step (.side dir e) = some (w, .blocked)
  /-- The result of the wrapped call is the result of the call, with the right error. -/
  result : ∀ dir (i : Nat) c n err es w' os c' m err', (w.sides dir).calls[i]? = some c →
    c.main = .running → (∀ e ∈ es, Event.ok CallEvent.ok e = true) →
    run (Wrapper.step true step) w (.side dir (.io i n err) :: es) = some (w', os) →
    (w'.sides dir).calls[i]? = some c' → c'.main = .returned m err' →
    m = n ∧ ErrFits (w.contexts.err c.ctx) n (err.map .io) err'

section Runs

variable {initial : Direction → Time}

theorem keeps_guarded (initial : Direction → Time) :
    SideStep.Keeps (step (ε := ε)) CallEvent.ok fun dir _ s => Guarded (initial dir) s where
  step dir cs s e hok h := by
    obtain ⟨ht, hopen⟩ := step_transition dir cs s hok
    exact ⟨h.step ht, hopen⟩
  mono _ _ _ _ _ h := h

/-- An open wrapper whose directions are guarded keeps its promises. -/
theorem restored {w : Wrapper (Call ε)} (h : w.Open fun dir _ s => Guarded (initial dir) s) :
    Restored initial w where
  returns dir e w' i n err hok hw := by
    obtain ⟨hside, -, ho⟩ := Wrapper.step_side hw
    rw [h.1] at hside ho
    obtain ⟨ht, -⟩ := step_transition dir w.contexts (w.sides dir) hok
    rw [← hside, ← ho] at ht
    obtain ⟨hfree, hc⟩ := Guarded.returned ht
    have hd := ((h.2 dir).step ht).deadline_free hfree
    refine ⟨hd, fun hinitial hold => ?_, hc⟩
    obtain hd | hd := hd
    · exact hinitial (hd.symm.trans hold)
    · rw [hold] at hd
      cases hd
  helper dir e i c n err hi hmain he := by
    have hr : c.helper.runs = false := by
      by_contra hr
      have hm := ((h.2 dir).calls i c hi).runs (by simpa using hr)
      rw [hmain] at hm
      cases hm
    rw [Wrapper.step, step_helper he hi hr]
    simp
  result dir i c n err es w' os c' m err' hi hmain hok hrun hi' hmain' := by
    have hio : (step dir w.contexts false (w.sides dir) (.io i n err)).1 =
        (w.sides dir).move i fun c => { c with main := .ended n (err.map .io) } := by
      obtain ⟨ctx, main, helper, err⟩ := c
      cases hmain
      simp only [step, hi]
    have hend : (∀ e, w.contexts.err c.ctx = some e → w.contexts.err c.ctx = some e) ∧
        ∃ c', (step dir w.contexts false (w.sides dir) (.io i n err)).1.calls[i]? = some c' ∧
          c'.ctx = c.ctx ∧ c'.main.Ended (w.contexts.err c.ctx) n (err.map .io) := by
      rw [hio]
      exact ⟨fun _ he => he, _, (w.sides dir).getElem?_move hi _, rfl, rfl, rfl⟩
    obtain ⟨-, -, c₂, hc₂, -, he⟩ := (keeps_guarded initial).run_after
      (Q := fun cs s => (∀ e, w.contexts.err c.ctx = some e → cs.err c.ctx = some e) ∧
        ∃ c', s.calls[i]? = some c' ∧ c'.ctx = c.ctx ∧
          c'.main.Ended (w.contexts.err c.ctx) n (err.map .io))
      (fun cs s e hok hg hq => ⟨hq.1, ended_step hq.2 hg hq.1 (step_transition dir cs s hok).1⟩)
      (fun cs cs' s hle hq => ⟨fun e he => hle _ _ (hq.1 e he), hq.2⟩) h rfl hend hok hrun
    rw [hi'] at hc₂
    cases hc₂
    rw [hmain'] at he
    exact he

end Runs

end PionTransport.Netctx.Conn
