import Mathlib.Logic.Function.Basic
import PionTransport.Core.Heap
import PionTransport.Core.Run

/-!
# Connections under contexts

What the two wrappers of `netctx` share: contexts that anyone may cancel, and
for each direction of the wrapped connection its deadline, a mutex and the
calls. The calls of one direction take its mutex in turn. How a call proceeds is
a parameter.
-/

namespace PionTransport.Netctx

/-- The directions of a connection. -/
inductive Direction
  | read
  | write
  deriving DecidableEq, Repr

/-- What `Err` of a cancelled context returns. -/
inductive CtxErr
  | canceled
  | deadlineExceeded
  deriving DecidableEq, Repr

/-- The errors of a call; `ε` are those of the wrapped connection. -/
inductive Err (ε : Type)
  /-- returned by the wrapped read or write -/
  | io (e : ε)
  /-- returned by the wrapped `SetReadDeadline` or `SetWriteDeadline` -/
  | setDeadline (e : ε)
  | ctx (e : CtxErr)
  /-- `net.ErrClosed` -/
  | errClosed
  | errClosing
  /-- `errors.Join` -/
  | join (err : Err ε) (e : ε)
  deriving DecidableEq, Repr

/-- What a call on a closed wrapper returns. -/
def Direction.closedErr {ε : Type} : Direction → Err ε
  | .read => .errClosed
  | .write => .errClosing

/-- A deadline in nanoseconds since the epoch; `none` is the zero time. -/
abbrev Time := Option Int

/-- The instant that makes pending I/O fail. -/
def veryOld : Time := some 1

/-- The contexts so far, with what `Err` of each returns. -/
abbrev Contexts := List (Option CtxErr)

/-- `Err` of a context. -/
def Contexts.err (contexts : Contexts) (ctx : Nat) : Option CtxErr := contexts[ctx]?.join

/-- One direction of the wrapped connection. -/
structure Side (κ : Type) where
  deadline : Time
  /-- the call that holds the mutex of this direction -/
  holder : Option Nat := none
  calls : List κ := []

/-- The wrapper and its two directions. -/
structure Wrapper (κ : Type) where
  contexts : Contexts := []
  closed : Bool := false
  sides : Direction → Side κ

/-- A wrapper of a connection with the given deadlines. -/
def newWrapper {κ : Type} (deadlines : Direction → Time) : Wrapper κ where
  sides dir := { deadline := deadlines dir }

/-- The steps of contexts, of `Close` and of calls. -/
inductive Event (ι : Type)
  | newContext
  /-- a context is cancelled -/
  | cancel (ctx : Nat) (err : CtxErr)
  | close
  /-- a step of a call -/
  | side (dir : Direction) (e : ι)

/-- What a step is seen to do. -/
inductive Outcome (ε : Type)
  | blocked
  | moved
  | returned (i : Nat) (n : Nat) (err : Option (Err ε))
  deriving DecidableEq

/-- A step of a call sees the contexts and whether the wrapper is closed. -/
abbrev SideStep (κ ι ε : Type) :=
  Direction → Contexts → Bool → Side κ → ι → Side κ × Bool × Outcome ε

section Steps

variable {κ ι ε : Type}

/-- Change one call. -/
def Side.move (s : Side κ) (i : Nat) (f : κ → κ) : Side κ := { s with calls := s.calls.modify i f }

variable {s : Side κ} {i : Nat} {c : κ}

/-- What holds of every call after one of them has changed. -/
theorem Side.forall_move {P Q : Nat → κ → Prop} {f : κ → κ}
    (h : ∀ j c, s.calls[j]? = some c → P j c) (hi : s.calls[i]? = some c) (hf : Q i (f c))
    (hrest : ∀ j c', j ≠ i → P j c' → Q j c') (j : Nat) (c' : κ)
    (hj : (s.move i f).calls[j]? = some c') : Q j c' := by
  rcases (Core.getElem?_modify_of_some hi).mp hj with ⟨rfl, rfl⟩ | ⟨hne, hj⟩
  · exact hf
  · exact hrest j c' hne (h j c' hj)

theorem Side.getElem?_move (hi : s.calls[i]? = some c) (f : κ → κ) :
    (s.move i f).calls[i]? = some (f c) :=
  Core.getElem?_modify_self hi f

theorem Side.getElem?_move_ne {j : Nat} (hij : j ≠ i) (f : κ → κ) :
    (s.move i f).calls[j]? = s.calls[j]? := by
  simp [Side.move, Ne.symm hij]

/-- A call keeps a property while another call or another part of its own changes. -/
theorem Side.exists_move {Q : κ → Prop} {j : Nat} {f : κ → κ}
    (h : ∃ c, s.calls[i]? = some c ∧ Q c) (hj : s.calls[j]? = some c) (hf : Q c → Q (f c)) :
    ∃ c, (s.move j f).calls[i]? = some c ∧ Q c := by
  obtain ⟨c', hi, hq⟩ := h
  by_cases hij : i = j
  · subst hij
    rw [hi] at hj
    cases hj
    exact ⟨f c, s.getElem?_move hi f, hf hq⟩
  · exact ⟨c', (s.getElem?_move_ne hij f).trans hi, hq⟩

theorem Side.exists_snoc {Q : κ → Prop} (c : κ) (h : ∃ c, s.calls[i]? = some c ∧ Q c) :
    ∃ c', (s.calls ++ [c])[i]? = some c' ∧ Q c' := by
  obtain ⟨c', hi, hq⟩ := h
  exact ⟨c', Core.getElem?_snoc_iff.mpr (.inr hi), hq⟩

/-- One step; `locks` says that `Close` takes both mutexes. -/
def Wrapper.step (locks : Bool) (f : SideStep κ ι ε) (w : Wrapper κ) :
    Event ι → Option (Wrapper κ × Outcome ε)
  | .newContext => some ({ w with contexts := w.contexts ++ [none] }, .moved)
  | .cancel ctx err =>
    some ({ w with contexts := w.contexts.modify ctx fun e => e <|> some err }, .moved)
  | .close =>
    if locks ∧ ((w.sides .read).holder ≠ none ∨ (w.sides .write).holder ≠ none) then
      some (w, .blocked)
    else some ({ w with closed := true }, .moved)
  | .side dir e =>
    let r := f dir w.contexts w.closed (w.sides dir) e
    some ({ w with sides := Function.update w.sides dir r.1, closed := r.2.1 }, r.2.2)

/-- No context is forgotten or uncancelled. -/
def Contexts.le (cs cs' : Contexts) : Prop :=
  ∀ ctx err, cs.err ctx = some err → cs'.err ctx = some err

theorem Contexts.err_eq_some {cs : Contexts} {ctx : Nat} {err : CtxErr} :
    cs.err ctx = some err ↔ cs[ctx]? = some (some err) := by
  unfold Contexts.err
  cases cs[ctx]? <;> simp

theorem Contexts.le_new (cs : Contexts) : cs.le (cs ++ [none]) := by
  intro ctx err h
  rw [Contexts.err_eq_some] at h ⊢
  exact Core.getElem?_snoc_iff.mpr (.inr h)

theorem Contexts.le_cancel (cs : Contexts) (c : Nat) (e : CtxErr) :
    cs.le (cs.modify c fun err => err <|> some e) := by
  intro ctx err h
  rw [Contexts.err_eq_some] at h ⊢
  refine Core.getElem?_modify_iff.mpr ⟨_, h, ?_⟩
  split <;> rfl

/-- The wrapper is not closed, and a step of a call is one of the given ones. -/
def Event.ok (ok : ι → Bool) : Event ι → Bool
  | .newContext | .cancel .. => true
  | .close => false
  | .side _ e => ok e

section Keeps

variable {locks : Bool} {f : SideStep κ ι ε} {ok : ι → Bool}
  {P : Direction → Contexts → Side κ → Prop}

/-- The steps of the calls keep a property of one direction and leave the wrapper open, and the
property outlasts cancellations. -/
structure SideStep.Keeps (f : SideStep κ ι ε) (ok : ι → Bool)
    (P : Direction → Contexts → Side κ → Prop) : Prop where
  step : ∀ dir cs s e, ok e = true → P dir cs s →
    P dir cs (f dir cs false s e).1 ∧ (f dir cs false s e).2.1 = false
  mono : ∀ dir cs cs' s, cs.le cs' → P dir cs s → P dir cs' s

/-- An open wrapper whose two directions have a property. -/
def Wrapper.Open (P : Direction → Contexts → Side κ → Prop) (w : Wrapper κ) : Prop :=
  w.closed = false ∧ ∀ dir, P dir w.contexts (w.sides dir)

variable {w w' : Wrapper κ}

theorem SideStep.Keeps.wrapper (hf : f.Keeps ok P) {e : Event ι} {o : Outcome ε} (h : w.Open P)
    (hok : e.ok ok = true) (hw : w.step locks f e = some (w', o)) :
    w'.Open P := by
  obtain ⟨hclosed, h⟩ := h
  cases e with
  | newContext =>
    cases hw
    exact ⟨hclosed, fun dir => hf.mono dir _ _ _ (Contexts.le_new _) (h dir)⟩
  | cancel ctx err =>
    cases hw
    exact ⟨hclosed, fun dir => hf.mono dir _ _ _ (Contexts.le_cancel _ _ _) (h dir)⟩
  | close => cases hok
  | side dir e' =>
    cases hw
    obtain ⟨hside, hopen⟩ := hf.step dir w.contexts (w.sides dir) e' hok (h dir)
    rw [← hclosed] at hside hopen
    refine ⟨hopen.trans hclosed, fun dir' => ?_⟩
    by_cases hdir : dir' = dir
    · subst hdir
      simpa using hside
    · simpa [Function.update_of_ne hdir] using h dir'

variable {es : List (Event ι)}

/-- The run rule of the wrapper. -/
theorem SideStep.Keeps.run (hf : f.Keeps ok P) (h : w.Open P) (hok : ∀ e ∈ es, e.ok ok = true) :
    ∃ w' os, Core.run (Wrapper.step locks f) w es = some (w', os) ∧ w'.Open P := by
  refine Core.run_keeps_of_mem (fun w e hok h => ?_) hok h
  have hstep : ∃ r, w.step locks f e = some r := by
    cases e with
    | close => cases hok
    | newContext | cancel | side => exact ⟨_, rfl⟩
  obtain ⟨⟨w', o⟩, hstep⟩ := hstep
  exact ⟨w', o, hstep, hf.wrapper h hok hstep⟩

variable {dir : Direction}

/-- A property of one direction that the steps keep beside another one is kept by the runs. -/
theorem SideStep.Keeps.run_beside (hf : f.Keeps ok P) {Q : Contexts → Side κ → Prop}
    (hstep : ∀ cs s e, ok e = true → P dir cs s → Q cs s → Q cs (f dir cs false s e).1)
    (hmono : ∀ cs cs' s, cs.le cs' → Q cs s → Q cs' s) (h : w.Open P)
    (hq : Q w.contexts (w.sides dir)) (hok : ∀ e ∈ es, e.ok ok = true) {os : List (Outcome ε)}
    (hrun : Core.run (Wrapper.step locks f) w es = some (w', os)) :
    w'.Open P ∧ Q w'.contexts (w'.sides dir) := by
  have hfq : f.Keeps ok fun dir' cs s => P dir' cs s ∧ (dir' = dir → Q cs s) := by
    refine ⟨fun dir' cs s e hok h => ?_, fun dir' cs cs' s hle h => ?_⟩
    · obtain ⟨hp, hopen⟩ := hf.step dir' cs s e hok h.1
      refine ⟨⟨hp, ?_⟩, hopen⟩
      rintro rfl
      exact hstep cs s e hok h.1 (h.2 rfl)
    · exact ⟨hf.mono dir' cs cs' s hle h.1, fun hdir => hmono cs cs' s hle (h.2 hdir)⟩
  have hpq : w.Open fun dir' cs s => P dir' cs s ∧ (dir' = dir → Q cs s) := by
    refine ⟨h.1, fun dir' => ⟨h.2 dir', ?_⟩⟩
    rintro rfl
    exact hq
  obtain ⟨w₁, os₁, hrun₁, hopen, h₁⟩ := hfq.run hpq hok
  rw [hrun] at hrun₁
  cases hrun₁
  exact ⟨⟨hopen, fun dir' => (h₁ dir').1⟩, (h₁ dir).2 rfl⟩

/-- What a step of a call does to the wrapper that it is a step of. -/
theorem Wrapper.step_side {e : ι} {o : Outcome ε}
    (hw : w.step locks f (.side dir e) = some (w', o)) :
    w'.sides dir = (f dir w.contexts w.closed (w.sides dir) e).1 ∧
      w'.contexts = w.contexts ∧ o = (f dir w.contexts w.closed (w.sides dir) e).2.2 := by
  cases hw
  exact ⟨Function.update_self .., rfl, rfl⟩

/-- The same after a step of a call that makes the property true. -/
theorem SideStep.Keeps.run_after (hf : f.Keeps ok P) {Q : Contexts → Side κ → Prop}
    (hstep : ∀ cs s e, ok e = true → P dir cs s → Q cs s → Q cs (f dir cs false s e).1)
    (hmono : ∀ cs cs' s, cs.le cs' → Q cs s → Q cs' s) (h : w.Open P) {e : ι} (he : ok e = true)
    (hq : Q w.contexts (f dir w.contexts false (w.sides dir) e).1)
    (hok : ∀ e ∈ es, e.ok ok = true) {os : List (Outcome ε)}
    (hrun : Core.run (Wrapper.step locks f) w (.side dir e :: es) = some (w', os)) :
    w'.Open P ∧ Q w'.contexts (w'.sides dir) := by
  obtain ⟨w₁, o, os', hw, hrest, -⟩ := Core.run_cons_inv hrun
  obtain ⟨hside, hcontexts, -⟩ := Wrapper.step_side hw
  rw [h.1] at hside
  rw [← hside, ← hcontexts] at hq
  have he : Event.ok ok (.side dir e) = true := he
  exact hf.run_beside hstep hmono (hf.wrapper h he hw) hq hok hrest

end Keeps

/-- The error `err'` of a call is right for a wrapped call that returned `n` and `err` when the
context had the error `ctxErr`. -/
def ErrFits (ctxErr : Option CtxErr) (n : Nat) (err err' : Option (Err ε)) : Prop :=
  (0 < n → err' = err) ∧ ∀ e, n = 0 → ctxErr = some e → err' = some (.ctx e)

end Steps

end PionTransport.Netctx
