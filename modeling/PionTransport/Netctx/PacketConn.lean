import PionTransport.Netctx.Wrapper

/-!
# Packet connections under contexts

`ReadFromContext` and `WriteToContext` register a function with
`context.AfterFunc` that sets the deadline to a very old instant once the
context is cancelled. After the wrapped call they detach it. If it is too late
for that, they wait for the function to end and set the deadline to zero; a
deadline that was not touched is left as it is.
-/

namespace PionTransport.Netctx.PacketConn

open PionTransport.Core

/-- Where a call is. -/
inductive MainAt (ε : Type)
  /-- in front of the lock of its mutex -/
  | locking
  /-- in front of `WriteToNonBlock` -/
  | trying
  /-- in front of `context.AfterFunc` -/
  | registering
  /-- in the wrapped read or write -/
  | running
  /-- the wrapped call has returned, in front of `detachDeadline` -/
  | detaching (n : Nat) (err : Option (Err ε))
  /-- waits for the registered function -/
  | waiting (n : Nat) (err : Option (Err ε))
  /-- in front of setting the zero deadline -/
  | restoring (n : Nat) (err : Option (Err ε))
  /-- in front of the look at the context -/
  | finishing (n : Nat) (err : Option (Err ε)) (setDeadlineErr : Option ε)
  | returned (n : Nat) (err : Option (Err ε))
  deriving DecidableEq

/-- Where the registered function of a call is. -/
inductive HelperAt
  | unregistered
  | registered
  /-- will not run any more -/
  | detached
  | started
  | finished
  deriving DecidableEq, Repr

/-- A call of `ReadFromContext` or `WriteToContext`; `before` is the deadline that it found. -/
structure Call (ε : Type) where
  ctx : Nat
  main : MainAt ε := .locking
  helper : HelperAt := .unregistered
  before : Time := none
  deriving DecidableEq

/-- The steps of a call and of the function it registers. -/
inductive CallEvent (ε : Type)
  | call (ctx : Nat)
  /-- take the mutex and look at `closed` and the context -/
  | lock (i : Nat)
  /-- `WriteToNonBlock`, with its result if it has written -/
  | nonBlock (i : Nat) (r : Option (Nat × Option ε))
  | register (i : Nat)
  /-- the registered function is started -/
  | start (i : Nat)
  /-- it sets the very old deadline, with the result -/
  | setOld (i : Nat) (err : Option ε)
  /-- the wrapped call returns -/
  | io (i : Nat) (n : Nat) (err : Option ε)
  | detach (i : Nat)
  | wait (i : Nat)
  /-- set the zero deadline, with the result -/
  | restore (i : Nat) (err : Option ε)
  /-- look at the context and return -/
  | finish (i : Nat)

variable {ε : Type}

/-- Setting the deadline succeeds. -/
def CallEvent.ok : CallEvent ε → Bool
  | .setOld _ err | .restore _ err => err.isNone
  | _ => true

/-- The error that a call returns. -/
def callErr (ctxErr : Option CtxErr) (setDeadlineErr : Option ε) (n : Nat)
    (err : Option (Err ε)) : Option (Err ε) :=
  let err :=
    match ctxErr with
    | some e => if n = 0 then some (.ctx e) else err
    | none => err
  match err, setDeadlineErr with
  | err, none => err
  | none, some e => some (.setDeadline e)
  | some err, some e => some (.join err e)

/-- One step of a call or of its registered function; `nonBlock` says that the wrapped connection
has `WriteToNonBlock`. -/
def step (nonBlock : Bool) : SideStep (Call ε) (CallEvent ε) ε := fun dir contexts closed s e =>
  match e with
  | .call ctx => ({ s with calls := s.calls ++ [{ ctx }] }, closed, .moved)
  | .lock i =>
    match s.calls[i]?, s.holder with
    | some ⟨ctx, .locking, _, _⟩, none =>
      if closed then
        (s.move i fun c => { c with
            main := .returned 0 (some dir.closedErr), before := s.deadline }, closed,
          .returned i 0 (some dir.closedErr))
      else
        match contexts.err ctx with
        | some e =>
          (s.move i fun c => { c with
              main := .returned 0 (some (.ctx e)), before := s.deadline }, closed,
            .returned i 0 (some (.ctx e)))
        | none =>
          ({ s.move i fun c => { c with
                main := if dir = .write ∧ nonBlock then .trying else .registering
                before := s.deadline } with
            holder := some i }, closed, .moved)
    | _, _ => (s, closed, .blocked)
  | .nonBlock i r =>
    match s.calls[i]? with
    | some ⟨_, .trying, _, _⟩ =>
      match r with
      | some (n, err) =>
        ({ s.move i fun c => { c with main := .returned n (err.map .io) } with holder := none },
          closed, .returned i n (err.map .io))
      | none => (s.move i fun c => { c with main := .registering }, closed, .moved)
    | _ => (s, closed, .blocked)
  | .register i =>
    match s.calls[i]? with
    | some ⟨_, .registering, _, _⟩ =>
      (s.move i fun c => { c with main := .running, helper := .registered }, closed, .moved)
    | _ => (s, closed, .blocked)
  | .start i =>
    match s.calls[i]? with
    | some ⟨ctx, _, .registered, _⟩ =>
      if (contexts.err ctx).isSome then
        (s.move i fun c => { c with helper := .started }, closed, .moved)
      else (s, closed, .blocked)
    | _ => (s, closed, .blocked)
  | .setOld i err =>
    match s.calls[i]? with
    | some ⟨_, _, .started, _⟩ =>
      match err with
      | none =>
        ({ s.move i fun c => { c with helper := .finished } with deadline := veryOld }, closed,
          .moved)
      -- a connection whose deadline cannot be set is closed
      | some _ => (s.move i fun c => { c with helper := .finished }, true, .moved)
    | _ => (s, closed, .blocked)
  | .io i n err =>
    match s.calls[i]? with
    | some ⟨_, .running, _, _⟩ =>
      (s.move i fun c => { c with main := .detaching n (err.map .io) }, closed, .moved)
    | _ => (s, closed, .blocked)
  | .detach i =>
    match s.calls[i]? with
    | some ⟨_, .detaching n err, .registered, _⟩ =>
      (s.move i fun c => { c with main := .finishing n err none, helper := .detached }, closed,
        .moved)
    | some ⟨_, .detaching n err, _, _⟩ =>
      (s.move i fun c => { c with main := .waiting n err }, closed, .moved)
    | _ => (s, closed, .blocked)
  | .wait i =>
    match s.calls[i]? with
    | some ⟨_, .waiting n err, .finished, _⟩ =>
      (s.move i fun c => { c with main := .restoring n err }, closed, .moved)
    | _ => (s, closed, .blocked)
  | .restore i err' =>
    match s.calls[i]? with
    | some ⟨_, .restoring n err, _, _⟩ =>
      if closed then
        (s.move i fun c => { c with main := .finishing n err none }, closed, .moved)
      else
        match err' with
        | none =>
          ({ s.move i fun c => { c with main := .finishing n err none } with deadline := none },
            closed, .moved)
        | some e => (s.move i fun c => { c with main := .finishing n err (some e) }, closed, .moved)
    | _ => (s, closed, .blocked)
  | .finish i =>
    match s.calls[i]? with
    | some ⟨ctx, .finishing n err setDeadlineErr, _, _⟩ =>
      let err := callErr (contexts.err ctx) setDeadlineErr n err
      ({ s.move i fun c => { c with main := .returned n err } with holder := none }, closed,
        .returned i n err)
    | _ => (s, closed, .blocked)

/-- What one step can do while the wrapper is open and setting the deadline succeeds. -/
inductive Transition (contexts : Contexts) (s : Side (Call ε)) :
    CallEvent ε → Side (Call ε) → Outcome ε → Prop
  | blocked {e} : Transition contexts s e s .blocked
  | call {ctx} :
      Transition contexts s (.call ctx) { s with calls := s.calls ++ [{ ctx }] } .moved
  | refuse {i ctx helper t e} : s.calls[i]? = some ⟨ctx, .locking, helper, t⟩ →
      s.holder = none → contexts.err ctx = some e →
      Transition contexts s (.lock i)
        (s.move i fun c => { c with main := .returned 0 (some (.ctx e)), before := s.deadline })
        (.returned i 0 (some (.ctx e)))
  | lock {i ctx helper t main} : s.calls[i]? = some ⟨ctx, .locking, helper, t⟩ →
      s.holder = none → main = .trying ∨ main = .registering →
      Transition contexts s (.lock i)
        { s.move i fun c => { c with main, before := s.deadline } with holder := some i } .moved
  | wrote {i ctx helper t n err} : s.calls[i]? = some ⟨ctx, .trying, helper, t⟩ →
      Transition contexts s (.nonBlock i (some (n, err)))
        { s.move i fun c => { c with main := .returned n (err.map .io) } with holder := none }
        (.returned i n (err.map .io))
  | block {i ctx helper t} : s.calls[i]? = some ⟨ctx, .trying, helper, t⟩ →
      Transition contexts s (.nonBlock i none)
        (s.move i fun c => { c with main := .registering }) .moved
  | register {i ctx helper t} : s.calls[i]? = some ⟨ctx, .registering, helper, t⟩ →
      Transition contexts s (.register i)
        (s.move i fun c => { c with main := .running, helper := .registered }) .moved
  | start {i ctx main t} : s.calls[i]? = some ⟨ctx, main, .registered, t⟩ →
      (contexts.err ctx).isSome = true →
      Transition contexts s (.start i) (s.move i fun c => { c with helper := .started }) .moved
  | setOld {i ctx main t} : s.calls[i]? = some ⟨ctx, main, .started, t⟩ →
      Transition contexts s (.setOld i none)
        { s.move i fun c => { c with helper := .finished } with deadline := veryOld } .moved
  | io {i ctx helper t n err} : s.calls[i]? = some ⟨ctx, .running, helper, t⟩ →
      Transition contexts s (.io i n err)
        (s.move i fun c => { c with main := .detaching n (err.map .io) }) .moved
  | detach {i ctx t n err} : s.calls[i]? = some ⟨ctx, .detaching n err, .registered, t⟩ →
      Transition contexts s (.detach i)
        (s.move i fun c => { c with main := .finishing n err none, helper := .detached }) .moved
  | late {i ctx helper t n err} : s.calls[i]? = some ⟨ctx, .detaching n err, helper, t⟩ →
      helper ≠ .registered →
      Transition contexts s (.detach i)
        (s.move i fun c => { c with main := .waiting n err }) .moved
  | wait {i ctx t n err} : s.calls[i]? = some ⟨ctx, .waiting n err, .finished, t⟩ →
      Transition contexts s (.wait i)
        (s.move i fun c => { c with main := .restoring n err }) .moved
  | restore {i ctx helper t n err} : s.calls[i]? = some ⟨ctx, .restoring n err, helper, t⟩ →
      Transition contexts s (.restore i none)
        { s.move i fun c => { c with main := .finishing n err none } with deadline := none } .moved
  | finish {i ctx helper t n err se} : s.calls[i]? = some ⟨ctx, .finishing n err se, helper, t⟩ →
      Transition contexts s (.finish i)
        { s.move i fun c => { c with
            main := .returned n (callErr (contexts.err ctx) se n err) } with
          holder := none }
        (.returned i n (callErr (contexts.err ctx) se n err))

section Cases

variable (nonBlock : Bool) (dir : Direction) (contexts : Contexts) (s : Side (Call ε))

/-- A step of an open wrapper is one of the listed ones, and does not close it. -/
theorem step_transition {e : CallEvent ε} (hok : e.ok = true) :
    Transition contexts s e (step nonBlock dir contexts false s e).1
        (step nonBlock dir contexts false s e).2.2 ∧
      (step nonBlock dir contexts false s e).2.1 = false := by
  -- the branches that move follow in the events' order
  cases e <;> simp only [step] <;> (try split) <;> try exact ⟨.blocked, rfl⟩
  · exact ⟨.call, trivial⟩
  next hc hh =>
    rw [if_neg Bool.false_ne_true]
    split
    next e he => exact ⟨.refuse hc hh he, rfl⟩
    next he =>
      refine ⟨.lock hc hh ?_, rfl⟩
      split
      · exact .inl rfl
      · exact .inr rfl
  · split
    · exact ⟨.wrote ‹_›, rfl⟩
    · exact ⟨.block ‹_›, rfl⟩
  · exact ⟨.register ‹_›, rfl⟩
  · split
    · exact ⟨.start ‹_› ‹_›, rfl⟩
    · exact ⟨.blocked, rfl⟩
  · split
    · exact ⟨.setOld ‹_›, rfl⟩
    · cases hok
  · exact ⟨.io ‹_›, rfl⟩
  · exact ⟨.detach ‹_›, rfl⟩
  · exact ⟨.late ‹_› ‹_›, rfl⟩
  · exact ⟨.wait ‹_›, rfl⟩
  · rw [if_neg Bool.false_ne_true]
    split
    · exact ⟨.restore ‹_›, rfl⟩
    · cases hok
  · exact ⟨.finish ‹_›, rfl⟩

end Cases

/-- The registered function may still run. -/
def HelperAt.pending : HelperAt → Bool
  | .registered | .started => true
  | .unregistered | .detached | .finished => false

/-- The call holds its mutex. -/
def MainAt.holds : MainAt ε → Bool
  | .trying | .registering | .running | .detaching .. | .waiting .. | .restoring ..
  | .finishing .. => true
  | .locking | .returned .. => false

/-- Nothing is registered yet. -/
def MainAt.early : MainAt ε → Bool
  | .locking | .trying | .registering => true
  | .running | .detaching .. | .waiting .. | .restoring .. | .finishing .. | .returned .. => false

/-- A function is registered and not detached. -/
def MainAt.attached : MainAt ε → Bool
  | .running | .detaching .. => true
  | .locking | .trying | .registering | .waiting .. | .restoring .. | .finishing ..
  | .returned .. => false

/-- The call will wait for the registered function if that has run. -/
def MainAt.awaits : MainAt ε → Bool
  | .running | .detaching .. | .waiting .. => true
  | .locking | .trying | .registering | .restoring .. | .finishing .. | .returned .. => false

/-- The call will set the deadline to zero if the registered function has run. -/
def MainAt.restores : MainAt ε → Bool
  | .running | .detaching .. | .waiting .. | .restoring .. => true
  | .locking | .trying | .registering | .finishing .. | .returned .. => false

/-- What holds of a call. -/
structure Call.Ok (contexts : Contexts) (holder : Option Nat) (deadline : Time) (i : Nat)
    (c : Call ε) : Prop where
  holds : c.main.holds = true → holder = some i
  early : c.main.early = true → c.helper = .unregistered
  pending : c.helper.pending = true → c.main.awaits = true
  cancelled : c.main.attached = true → c.helper ≠ .registered →
    (contexts.err c.ctx).isSome = true
  restoring : ∀ n err, c.main = .restoring n err → c.helper = .finished
  succeeded : ∀ n err se, c.main = .finishing n err se → se = none
  /-- only the registered function moves the deadline -/
  kept : c.main.holds = true → c.helper ≠ .finished → deadline = c.before

/-- The invariant of one direction that had the deadline `initial` at first: only a call that will
still set it to zero leaves another deadline than that or the zero one. -/
structure Guarded (initial : Time) (contexts : Contexts) (s : Side (Call ε)) : Prop where
  calls : ∀ (i : Nat) (c : Call ε), s.calls[i]? = some c → c.Ok contexts s.holder s.deadline i
  deadline : s.deadline = initial ∨ s.deadline = none ∨
    ∃ (i : Nat) (c : Call ε), s.calls[i]? = some c ∧ c.main.restores = true ∧ c.helper = .finished

section Invariant

variable {initial : Time} {contexts : Contexts} {s s' : Side (Call ε)} {e : CallEvent ε}
  {o : Outcome ε}

theorem Guarded.new (initial : Time) (contexts : Contexts) :
    Guarded initial contexts ({ deadline := initial } : Side (Call ε)) where
  calls i c h := by cases h
  deadline := .inl rfl

theorem Guarded.mono (h : Guarded initial contexts s) {contexts' : Contexts}
    (hle : contexts.le contexts') : Guarded initial contexts' s where
  calls i c hi := by
    have hc := h.calls i c hi
    refine ⟨hc.holds, hc.early, hc.pending, fun hmain hhelper => ?_, hc.restoring, hc.succeeded,
      hc.kept⟩
    obtain ⟨err, herr⟩ := Option.isSome_iff_exists.mp (hc.cancelled hmain hhelper)
    exact Option.isSome_iff_exists.mpr ⟨err, hle _ _ herr⟩
  deadline := h.deadline

/-- Only the call that holds the mutex is under way. -/
theorem Call.Ok.idle {holder : Option Nat} {deadline : Time} {j : Nat} {c : Call ε}
    (h : c.Ok contexts holder deadline j) (hne : holder ≠ some j) (holder' : Option Nat)
    (deadline' : Time) : c.Ok contexts holder' deadline' j where
  holds hmain := absurd (h.holds hmain) hne
  early := h.early
  pending := h.pending
  cancelled := h.cancelled
  restoring := h.restoring
  succeeded := h.succeeded
  kept hmain := absurd (h.holds hmain) hne

/-- A call that has not registered a function has none. -/
theorem Call.Ok.unregistered {holder : Option Nat} {deadline : Time} {i : Nat} {c : Call ε}
    (h : c.Ok contexts holder deadline i) (hearly : c.main.early = true) :
    c.helper.pending = false ∧ c.helper ≠ .finished := by
  rw [h.early hearly]
  exact ⟨rfl, nofun⟩

theorem MainAt.holds_of_awaits {m : MainAt ε} (h : m.awaits = true) : m.holds = true := by
  cases m with
  | running | detaching | waiting => rfl
  | locking | trying | registering | restoring | finishing | returned => cases h

theorem MainAt.restores_of_awaits {m : MainAt ε} (h : m.awaits = true) : m.restores = true := by
  cases m with
  | running | detaching | waiting => rfl
  | locking | trying | registering | restoring | finishing | returned => cases h

theorem MainAt.holds_of_restores {m : MainAt ε} (h : m.restores = true) : m.holds = true := by
  cases m with
  | running | detaching | waiting | restoring => rfl
  | locking | trying | registering | finishing | returned => cases h

/-- The deadline after a step that does not touch it. -/
theorem Guarded.deadline_move (h : Guarded initial contexts s) {i : Nat} {c : Call ε}
    (hi : s.calls[i]? = some c) {f : Call ε → Call ε}
    (hf : c.main.restores = true → c.helper = .finished →
      (f c).main.restores = true ∧ (f c).helper = .finished) :
    s.deadline = initial ∨ s.deadline = none ∨
      ∃ (j : Nat) (c : Call ε), (s.move i f).calls[j]? = some c ∧ c.main.restores = true ∧
        c.helper = .finished := by
  obtain hd | hd | ⟨j, hc⟩ := h.deadline
  · exact .inl hd
  · exact .inr (.inl hd)
  · exact .inr (.inr ⟨j, Side.exists_move hc hi fun hc => hf hc.1 hc.2⟩)

/-- A step of the holder's own that keeps the mutex and the deadline. -/
theorem Guarded.move (h : Guarded initial contexts s) {i : Nat} {c : Call ε}
    (hi : s.calls[i]? = some c) {f : Call ε → Call ε}
    (hok : (f c).Ok contexts s.holder s.deadline i)
    (hf : c.main.restores = true → c.helper = .finished →
      (f c).main.restores = true ∧ (f c).helper = .finished) :
    Guarded initial contexts (s.move i f) where
  calls := s.forall_move h.calls hi hok fun _ _ _ hj => hj
  deadline := h.deadline_move hi hf

/-- A step of the holder's own that may release the mutex or move the deadline. -/
theorem Guarded.forall_move (h : Guarded initial contexts s) {i : Nat} {c : Call ε}
    (hi : s.calls[i]? = some c) (hmain : c.main.holds = true) {f : Call ε → Call ε}
    {holder : Option Nat} {deadline : Time} (hok : (f c).Ok contexts holder deadline i) (j : Nat)
    (c' : Call ε) (hj : (s.move i f).calls[j]? = some c') : c'.Ok contexts holder deadline j := by
  have hh := (h.calls i c hi).holds hmain
  refine s.forall_move h.calls hi hok (fun k c' hk hc' => ?_) j c' hj
  exact hc'.idle (by rw [hh]; simpa using hk.symm) _ _

/-- The mutex is taken. -/
theorem Guarded.lock (h : Guarded initial contexts s) {i ctx : Nat} {helper : HelperAt} {t : Time}
    {main : MainAt ε} (hi : s.calls[i]? = some ⟨ctx, .locking, helper, t⟩)
    (hfree : s.holder = none) (hnext : main = .trying ∨ main = .registering) :
    Guarded initial contexts
      { s.move i fun c => { c with main, before := s.deadline } with holder := some i } := by
  have hc := h.calls i _ hi
  have hun := hc.unregistered rfl
  have hearly : main.early = true ∧ main.attached = false := by
    obtain rfl | rfl := hnext <;> exact ⟨rfl, rfl⟩
  refine ⟨s.forall_move h.calls hi ⟨fun _ => rfl, fun _ => hc.early rfl, ?_, ?_, ?_, ?_,
    fun _ _ => rfl⟩ fun j c' _ hj => hj.idle (by simp [hfree]) _ _,
    h.deadline_move hi fun _ hf => absurd hf hun.2⟩
  · intro hp
    exact absurd (hun.1.symm.trans hp) nofun
  · intro ha
    exact absurd (hearly.2.symm.trans ha) nofun
  · rintro n err rfl
    cases hearly.1
  · rintro n err se rfl
    cases hearly.1

/-- The registered function starts to run. -/
theorem Guarded.start (h : Guarded initial contexts s) {i ctx : Nat} {main : MainAt ε} {t : Time}
    (hi : s.calls[i]? = some ⟨ctx, main, .registered, t⟩)
    (hctx : (contexts.err ctx).isSome = true) :
    Guarded initial contexts (s.move i fun c => { c with helper := .started }) := by
  have hc := h.calls i _ hi
  have hm := hc.pending rfl
  refine h.move hi ⟨hc.holds, ?_, fun _ => hm, fun _ _ => hctx, ?_, hc.succeeded,
    fun hmain _ => hc.kept hmain nofun⟩ fun _ hf => (by cases hf)
  · intro hearly
    cases hc.early hearly
  · rintro n err rfl
    cases hm

/-- The registered function moves the deadline, which the call will set to zero. -/
theorem Guarded.setOld (h : Guarded initial contexts s) {i ctx : Nat} {main : MainAt ε} {t : Time}
    (hi : s.calls[i]? = some ⟨ctx, main, .started, t⟩) :
    Guarded initial contexts
      { s.move i fun c => { c with helper := .finished } with deadline := veryOld } := by
  have hc := h.calls i _ hi
  have hm := hc.pending rfl
  refine ⟨h.forall_move hi (MainAt.holds_of_awaits hm) ⟨hc.holds, ?_, nofun,
    fun ha _ => hc.cancelled ha nofun, fun _ _ _ => rfl, hc.succeeded,
    fun _ hne => absurd rfl hne⟩,
    .inr (.inr ⟨i, _, s.getElem?_move hi _, MainAt.restores_of_awaits hm, rfl⟩)⟩
  intro hearly
  cases hc.early hearly

theorem Guarded.step (h : Guarded initial contexts s) (ht : Transition contexts s e s' o) :
    Guarded initial contexts s' := by
  cases ht with
  | blocked => exact h
  | call =>
    refine ⟨fun i c hi => ?_, ?_⟩
    · obtain ⟨-, rfl⟩ | hi := getElem?_snoc_iff.mp hi
      · exact ⟨nofun, fun _ => rfl, nofun, nofun, nofun, nofun, nofun⟩
      · exact h.calls i c hi
    · obtain hd | hd | ⟨i, hc⟩ := h.deadline
      · exact .inl hd
      · exact .inr (.inl hd)
      · exact .inr (.inr ⟨i, Side.exists_snoc _ hc⟩)
  | refuse hi =>
    have hun := (h.calls _ _ hi).unregistered rfl
    exact h.move hi ⟨nofun, nofun, fun hp => absurd (hun.1.symm.trans hp) nofun, nofun, nofun,
      nofun, nofun⟩ fun _ hf => absurd hf hun.2
  | lock hi hfree hnext => exact h.lock hi hfree hnext
  | wrote hi =>
    have hun := (h.calls _ _ hi).unregistered rfl
    exact ⟨h.forall_move hi rfl ⟨nofun, nofun, fun hp => absurd (hun.1.symm.trans hp) nofun, nofun,
      nofun, nofun, nofun⟩, h.deadline_move hi fun _ hf => absurd hf hun.2⟩
  | block hi =>
    have hc := h.calls _ _ hi
    have hun := hc.unregistered rfl
    exact h.move hi ⟨fun _ => hc.holds rfl, fun _ => hc.early rfl,
      fun hp => absurd (hun.1.symm.trans hp) nofun, nofun, nofun, nofun, fun _ => hc.kept rfl⟩
      fun _ hf => absurd hf hun.2
  | register hi =>
    have hc := h.calls _ _ hi
    have hun := hc.unregistered rfl
    exact h.move hi ⟨fun _ => hc.holds rfl, nofun, fun _ => rfl, fun _ hne => absurd rfl hne, nofun,
      nofun, fun _ _ => hc.kept rfl hun.2⟩ fun _ hf => absurd hf hun.2
  | start hi hctx => exact h.start hi hctx
  | setOld hi => exact h.setOld hi
  | io hi =>
    have hc := h.calls _ _ hi
    exact h.move hi ⟨fun _ => hc.holds rfl, nofun, fun _ => rfl, fun _ => hc.cancelled rfl, nofun,
      nofun, fun _ => hc.kept rfl⟩ fun _ hf => ⟨rfl, hf⟩
  | detach hi =>
    have hc := h.calls _ _ hi
    refine h.move hi ⟨fun _ => hc.holds rfl, nofun, nofun, nofun, nofun, ?_,
      fun _ _ => hc.kept rfl nofun⟩ fun _ hf => (by cases hf)
    intro n err se hse
    cases hse
    rfl
  | late hi =>
    have hc := h.calls _ _ hi
    exact h.move hi ⟨fun _ => hc.holds rfl, nofun, fun _ => rfl, nofun, nofun, nofun,
      fun _ => hc.kept rfl⟩ fun _ hf => ⟨rfl, hf⟩
  | wait hi =>
    have hc := h.calls _ _ hi
    exact h.move hi ⟨fun _ => hc.holds rfl, nofun, nofun, nofun, fun _ _ _ => rfl, nofun,
      fun _ hne => absurd rfl hne⟩ fun _ hf => ⟨rfl, hf⟩
  | restore hi =>
    have hc := h.calls _ _ hi
    obtain rfl := hc.restoring _ _ rfl
    refine ⟨h.forall_move hi rfl ⟨fun _ => hc.holds rfl, nofun, nofun, nofun, nofun, ?_,
      fun _ hne => absurd rfl hne⟩, .inr (.inl rfl)⟩
    intro n err se hse
    cases hse
    rfl
  | finish hi =>
    have hc := h.calls _ _ hi
    refine ⟨h.forall_move hi rfl ⟨nofun, nofun, ?_, nofun, nofun, nofun, nofun⟩,
      h.deadline_move hi fun hr => (by cases hr)⟩
    intro hp
    cases hc.pending hp

/-- While the mutex is free the deadline is the first one or zero. -/
theorem Guarded.deadline_free (h : Guarded initial contexts s) (hfree : s.holder = none) :
    s.deadline = initial ∨ s.deadline = none := by
  obtain hd | hd | ⟨i, c, hi, hmain, -⟩ := h.deadline
  · exact .inl hd
  · exact .inr hd
  · have hh := (h.calls i c hi).holds (MainAt.holds_of_restores hmain)
    rw [hfree] at hh
    cases hh

/-- A returning call has released the mutex, and its function will not run; unless the function
has run, the deadline is the one that the call found. -/
theorem Guarded.returned (h : Guarded initial contexts s) {i n : Nat} {err : Option (Err ε)}
    (ht : Transition contexts s e s' (.returned i n err)) :
    s'.holder = none ∧ ∃ c, s'.calls[i]? = some c ∧ c.main = .returned n err ∧
      c.helper.pending = false ∧ (c.helper ≠ .finished → s'.deadline = c.before) := by
  cases ht with
  | refuse hi hfree =>
    have hun := (h.calls _ _ hi).unregistered rfl
    exact ⟨hfree, _, s.getElem?_move hi _, rfl, hun.1, fun _ => rfl⟩
  | wrote hi =>
    have hc := h.calls _ _ hi
    exact ⟨rfl, _, s.getElem?_move hi _, rfl, (hc.unregistered rfl).1, hc.kept rfl⟩
  | finish hi =>
    have hc := h.calls _ _ hi
    refine ⟨rfl, _, s.getElem?_move hi _, rfl, ?_, hc.kept rfl⟩
    by_contra hp
    cases hc.pending (by simpa using hp)

/-- The call whose registered function takes a step. -/
def CallEvent.helper : CallEvent ε → Option Nat
  | .start i | .setOld i _ => some i
  | .call _ | .lock _ | .nonBlock .. | .register _ | .io .. | .detach _ | .wait _ | .restore ..
  | .finish _ => none

/-- A function that is not pending takes no step. -/
theorem step_helper {nonBlock : Bool} {dir : Direction} {closed : Bool} {i : Nat} {c : Call ε}
    (he : e.helper = some i) (hi : s.calls[i]? = some c) (hp : c.helper.pending = false) :
    step nonBlock dir contexts closed s e = (s, closed, .blocked) := by
  obtain ⟨ctx, main, helper, before⟩ := c
  cases e with
  | call | lock | nonBlock | register | io | detach | wait | restore | finish => cases he
  | start | setOld =>
    cases he
    simp only [step, hi]
    cases helper with
    | unregistered | detached | finished => rfl
    | registered | started => cases hp

/-- The error of a call that could set the deadline. -/
theorem callErr_fits {ctxErr now : Option CtxErr} (h : ∀ e, ctxErr = some e → now = some e)
    (n : Nat) (err : Option (Err ε)) : ErrFits ctxErr n err (callErr now none n err) := by
  refine ⟨fun hn => ?_, fun e hn he => ?_⟩
  · have hn : n ≠ 0 := by omega
    cases now <;> cases err <;> simp [callErr, hn]
  · subst hn
    simp [callErr, h e he]

/-- The wrapped call has returned `n` and `err` when the context had the error `ctxErr`. -/
def MainAt.Ended (ctxErr : Option CtxErr) (n : Nat) (err : Option (Err ε)) : MainAt ε → Prop
  | .detaching n' err' | .waiting n' err' | .restoring n' err' | .finishing n' err' none =>
    n' = n ∧ err' = err
  | .returned n' err' => n' = n ∧ ErrFits ctxErr n err err'
  | .locking | .trying | .registering | .running | .finishing _ _ (some _) => False

/-- The end of a wrapped call determines what the call returns. -/
theorem ended_step {i ctx n : Nat} {ctxErr : Option CtxErr} {err : Option (Err ε)}
    (h : ∃ c, s.calls[i]? = some c ∧ c.ctx = ctx ∧ c.main.Ended ctxErr n err)
    (hctx : ∀ e, ctxErr = some e → contexts.err ctx = some e) (ht : Transition contexts s e s' o) :
    ∃ c, s'.calls[i]? = some c ∧ c.ctx = ctx ∧ c.main.Ended ctxErr n err := by
  cases ht with
  | blocked => exact h
  | call => exact Side.exists_snoc _ h
  | refuse hj | lock hj | wrote hj | block hj | register hj | io hj =>
    exact Side.exists_move h hj fun hc => False.elim hc.2
  | start hj | setOld hj | detach hj | late hj | wait hj | restore hj =>
    exact Side.exists_move h hj id
  | @finish j ctx' helper t n' err' se hj =>
    refine Side.exists_move h hj fun hc => ?_
    obtain ⟨rfl, he⟩ := hc
    cases se with
    | some => cases he
    | none =>
      obtain ⟨rfl, rfl⟩ := he
      exact ⟨rfl, rfl, callErr_fits hctx n' err'⟩

/-- A detached function stays detached. -/
theorem Guarded.detached (h : Guarded initial contexts s) {i : Nat} {before : Time}
    (hd : ∃ c, s.calls[i]? = some c ∧ c.helper = .detached ∧ c.before = before)
    (ht : Transition contexts s e s' o) :
    ∃ c, s'.calls[i]? = some c ∧ c.helper = .detached ∧ c.before = before := by
  cases ht with
  | blocked => exact hd
  | call => exact Side.exists_snoc _ hd
  | refuse hj | lock hj | register hj =>
    refine Side.exists_move hd hj fun hc => ?_
    cases hc.1.symm.trans ((h.calls _ _ hj).early rfl)
  | start hj | setOld hj => exact Side.exists_move hd hj fun hc => (by cases hc.1)
  | detach hj => exact Side.exists_move hd hj fun hc => ⟨rfl, hc.2⟩
  | wrote hj | block hj | io hj | late hj | wait hj | restore hj | finish hj =>
    exact Side.exists_move hd hj id

end Invariant

/-- What holds of a wrapper of a connection that had the deadlines `initial`. -/
structure Restored (nonBlock : Bool) (initial : Direction → Time) (w : Wrapper (Call ε)) :
    Prop where
  /-- A call returns when its function will not run and the deadline is the first one or zero. -/
  returns : ∀ dir e w' i n err, CallEvent.ok e = true →
    w.step false (step nonBlock) (.side dir e) = some (w', .returned i n err) →
    ((w'.sides dir).deadline = initial dir ∨ (w'.sides dir).deadline = none) ∧
      (initial dir ≠ veryOld → (w'.sides dir).deadline ≠ veryOld) ∧
      ∃ c, (w'.sides dir).calls[i]? = some c ∧ c.main = .returned n err ∧
        c.helper.pending = false ∧ (c.helper ≠ .finished → (w'.sides dir).deadline = c.before)
  /-- A call finds a deadline when it takes the mutex. -/
  found : ∀ dir (i : Nat) w',
    w.step false (step nonBlock) (.side dir (.lock i)) = some (w', .moved) →
    ∃ c, (w'.sides dir).calls[i]? = some c ∧ c.before = (w.sides dir).deadline
  /-- It leaves that deadline if the context is not cancelled before the function is detached. -/
  unchanged : ∀ dir (i : Nat) c n err es w' os e w'' m err', (w.sides dir).calls[i]? = some c →
    c.main = .detaching n err → w.contexts.err c.ctx = none →
    (∀ e ∈ es, Event.ok CallEvent.ok e = true) → CallEvent.ok e = true →
    run (Wrapper.step false (step nonBlock)) w (.side dir (.detach i) :: es) = some (w', os) →
    w'.step false (step nonBlock) (.side dir e) = some (w'', .returned i m err') →
    (w''.sides dir).deadline = c.before
  /-- The function of a call that has returned takes no step. -/
  helper : ∀ dir e (i : Nat) c n err, (w.sides dir).calls[i]? = some c →
    c.main = .returned n err → e.helper = some i →
    w.step false (step nonBlock) (.side dir e) = some (w, .blocked)
  /-- The result of the wrapped call is the result of the call, with the right error. -/
  result : ∀ dir (i : Nat) c n err es w' os c' m err', (w.sides dir).calls[i]? = some c →
    c.main = .running → (∀ e ∈ es, Event.ok CallEvent.ok e = true) →
    run (Wrapper.step false (step nonBlock)) w (.side dir (.io i n err) :: es) = some (w', os) →
    (w'.sides dir).calls[i]? = some c' → c'.main = .returned m err' →
    m = n ∧ ErrFits (w.contexts.err c.ctx) n (err.map .io) err'

section Runs

variable {nonBlock : Bool} {initial : Direction → Time} {w w' : Wrapper (Call ε)}
  {dir : Direction} {e : CallEvent ε} {i n : Nat} {err : Option (Err ε)}

theorem keeps_guarded (nonBlock : Bool) (initial : Direction → Time) :
    SideStep.Keeps (step (ε := ε) nonBlock) CallEvent.ok
      fun dir cs s => Guarded (initial dir) cs s where
  step dir cs s e hok h := by
    obtain ⟨ht, hopen⟩ := step_transition nonBlock dir cs s hok
    exact ⟨h.step ht, hopen⟩
  mono _ _ _ _ hle h := h.mono hle

/-- The return of a call of an open wrapper. -/
theorem returned_of_open (h : w.Open fun dir cs s => Guarded (initial dir) cs s)
    (hok : e.ok = true)
    (hw : w.step false (step nonBlock) (.side dir e) = some (w', .returned i n err)) :
    ((w'.sides dir).deadline = initial dir ∨ (w'.sides dir).deadline = none) ∧
      ∃ c, (w'.sides dir).calls[i]? = some c ∧ c.main = .returned n err ∧
        c.helper.pending = false ∧ (c.helper ≠ .finished → (w'.sides dir).deadline = c.before) := by
  obtain ⟨hside, -, ho⟩ := Wrapper.step_side hw
  rw [h.1] at hside ho
  obtain ⟨ht, -⟩ := step_transition nonBlock dir w.contexts (w.sides dir) hok
  rw [← hside, ← ho] at ht
  obtain ⟨hfree, hc⟩ := (h.2 dir).returned ht
  exact ⟨((h.2 dir).step ht).deadline_free hfree, hc⟩

/-- The function of a call whose context is not cancelled can be detached. -/
theorem step_detach {contexts : Contexts} {s : Side (Call ε)} {closed : Bool} {c : Call ε}
    (hi : s.calls[i]? = some c) (hc : c.Ok contexts s.holder s.deadline i)
    (hmain : c.main = .detaching n err) (hctx : contexts.err c.ctx = none) :
    (step nonBlock dir contexts closed s (.detach i)).1 =
      s.move i fun c => { c with main := .finishing n err none, helper := .detached } := by
  have hhelper : c.helper = .registered := by
    by_contra hne
    have hs := hc.cancelled (by rw [hmain]; rfl) hne
    rw [hctx] at hs
    cases hs
  obtain ⟨ctx, main, helper, before⟩ := c
  cases hmain
  cases hhelper
  simp only [step, hi]

/-- An open wrapper whose directions are guarded keeps its promises. -/
theorem restored (h : w.Open fun dir cs s => Guarded (initial dir) cs s) :
    Restored nonBlock initial w where
  returns dir e w' i n err hok hw := by
    obtain ⟨hd, hc⟩ := returned_of_open h hok hw
    refine ⟨hd, fun hinitial hold => ?_, hc⟩
    obtain hd | hd := hd
    · exact hinitial (hd.symm.trans hold)
    · rw [hold] at hd
      cases hd
  found dir i w' hw := by
    obtain ⟨hside, -, ho⟩ := Wrapper.step_side hw
    rw [h.1] at hside ho
    obtain ⟨ht, -⟩ := step_transition nonBlock dir w.contexts (w.sides dir)
      (show CallEvent.ok (.lock i) = true from rfl)
    rw [← hside, ← ho] at ht
    generalize w'.sides dir = s' at ht
    cases ht with
    | lock hi => exact ⟨_, (w.sides dir).getElem?_move hi _, rfl⟩
  unchanged dir i c n err es w' os e w'' m err' hi hmain hctx hok hok' hrun hw' := by
    have hd : ∃ c', (step nonBlock dir w.contexts false (w.sides dir) (.detach i)).1.calls[i]? =
        some c' ∧ c'.helper = .detached ∧ c'.before = c.before := by
      rw [step_detach hi ((h.2 dir).calls i c hi) hmain hctx]
      exact ⟨_, (w.sides dir).getElem?_move hi _, rfl, rfl⟩
    obtain ⟨h', hd'⟩ := (keeps_guarded nonBlock initial).run_after
      (Q := fun _ s => ∃ c', s.calls[i]? = some c' ∧ c'.helper = .detached ∧ c'.before = c.before)
      (fun cs s e hok hg hq => hg.detached hq (step_transition nonBlock dir cs s hok).1)
      (fun _ _ _ _ hq => hq) h rfl hd hok hrun
    -- the return itself is one more step that leaves the function detached
    obtain ⟨hside', -, -⟩ := Wrapper.step_side hw'
    rw [h'.1] at hside'
    have ht := (step_transition nonBlock dir w'.contexts (w'.sides dir) hok').1
    rw [← hside'] at ht
    obtain ⟨c₂, hc₂, hhelper, hbefore⟩ := (h'.2 dir).detached hd' ht
    obtain ⟨-, c₃, hc₃, -, -, hkept⟩ := returned_of_open h' hok' hw'
    rw [hc₂] at hc₃
    cases hc₃
    rw [hkept (by simp [hhelper]), hbefore]
  helper dir e i c n err hi hmain he := by
    have hp : c.helper.pending = false := by
      by_contra hp
      have hm := ((h.2 dir).calls i c hi).pending (by simpa using hp)
      rw [hmain] at hm
      cases hm
    rw [Wrapper.step, step_helper he hi hp]
    simp
  result dir i c n err es w' os c' m err' hi hmain hok hrun hi' hmain' := by
    have hio : (step nonBlock dir w.contexts false (w.sides dir) (.io i n err)).1 =
        (w.sides dir).move i fun c => { c with main := .detaching n (err.map .io) } := by
      obtain ⟨ctx, main, helper, before⟩ := c
      cases hmain
      simp only [step, hi]
    have hend : (∀ e, w.contexts.err c.ctx = some e → w.contexts.err c.ctx = some e) ∧
        ∃ c', (step nonBlock dir w.contexts false (w.sides dir) (.io i n err)).1.calls[i]? =
          some c' ∧ c'.ctx = c.ctx ∧ c'.main.Ended (w.contexts.err c.ctx) n (err.map .io) := by
      rw [hio]
      exact ⟨fun _ he => he, _, (w.sides dir).getElem?_move hi _, rfl, rfl, rfl⟩
    obtain ⟨-, -, c₂, hc₂, -, he⟩ := (keeps_guarded nonBlock initial).run_after
      (Q := fun cs s => (∀ e, w.contexts.err c.ctx = some e → cs.err c.ctx = some e) ∧
        ∃ c', s.calls[i]? = some c' ∧ c'.ctx = c.ctx ∧
          c'.main.Ended (w.contexts.err c.ctx) n (err.map .io))
      (fun cs s e hok _ hq =>
        ⟨hq.1, ended_step hq.2 hq.1 (step_transition nonBlock dir cs s hok).1⟩)
      (fun cs cs' s hle hq => ⟨fun e he => hle _ _ (hq.1 e he), hq.2⟩) h rfl hend hok hrun
    rw [hi'] at hc₂
    cases hc₂
    rw [hmain'] at he
    exact he

end Runs

end PionTransport.Netctx.PacketConn
