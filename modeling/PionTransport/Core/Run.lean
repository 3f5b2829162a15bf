import Mathlib.Data.List.Basic

/-!
# Runs of fallible machines

A machine is a step function that may fail (`none` is a runtime panic) and
otherwise returns its next state together with an observable output. A run
feeds it a list of inputs. The simulation rule below turns one matching step
into a matching run, and in particular shows that no step of the run fails.
-/

namespace PionTransport.Core

section Machine

variable {σ ι ο α : Type*}

/-- Feed the inputs in order, collecting the outputs; any failing step fails the run. -/
def run (step : σ → ι → Option (σ × ο)) : σ → List ι → Option (σ × List ο)
  | s, [] => some (s, [])
  | s, i :: is => do
    let (s', o) ← step s i
    let (s'', os) ← run step s' is
    return (s'', o :: os)

@[simp] theorem run_nil (step : σ → ι → Option (σ × ο)) (s : σ) :
    run step s [] = some (s, []) := rfl

variable {step : σ → ι → Option (σ × ο)} {s s' : σ} {i : ι}

/-- A successful head step passes its state to the rest of the run. -/
theorem run_cons {o : ο} (h : step s i = some (s', o)) (is : List ι) :
    run step s (i :: is) = (run step s' is).map fun r => (r.1, o :: r.2) := by
  simp only [run, h, Option.bind_eq_bind, Option.bind_some]
  cases run step s' is <;> rfl

/-- A step and a run from where it leads make up a run. -/
theorem run_cons_some {s'' : σ} {o : ο} {is : List ι} {os : List ο} (h : step s i = some (s', o))
    (hrun : run step s' is = some (s'', os)) : run step s (i :: is) = some (s'', o :: os) := by
  rw [run_cons h, hrun]
  rfl

/-- A failing head step fails the whole run. -/
theorem run_cons_none (h : step s i = none) (is : List ι) : run step s (i :: is) = none := by
  simp only [run, h, Option.bind_eq_bind, Option.bind_none]

variable {is : List ι} {os : List ο}

/-- A successful run splits at its first step. -/
theorem run_cons_inv {s'' : σ} (h : run step s (i :: is) = some (s'', os)) :
    ∃ s' o os', step s i = some (s', o) ∧ run step s' is = some (s'', os') ∧ os = o :: os' := by
  cases hs : step s i with
  | none =>
    rw [run_cons_none hs] at h
    cases h
  | some r =>
    rw [run_cons hs] at h
    obtain ⟨⟨t, os'⟩, hrest, he⟩ := Option.map_eq_some_iff.mp h
    obtain ⟨rfl, rfl⟩ := Prod.mk.inj he
    exact ⟨r.1, r.2, os', rfl, hrest, rfl⟩

/-- Induction on a run, from its end back to its first step. -/
@[elab_as_elim]
theorem run_induct {s' : σ}
    {motive : (s : σ) → (is : List ι) → (os : List ο) → run step s is = some (s', os) → Prop}
    (nil : motive s' [] [] rfl)
    (cons : ∀ {s i s₁ o is os} (hstep : step s i = some (s₁, o))
      (hrest : run step s₁ is = some (s', os)), motive s₁ is os hrest →
      motive s (i :: is) (o :: os) (run_cons_some hstep hrest))
    {s : σ} {is : List ι} {os : List ο} (hrun : run step s is = some (s', os)) :
    motive s is os hrun := by
  induction is generalizing s os with
  | nil =>
    cases hrun
    exact nil
  | cons i is ih =>
    obtain ⟨s₁, o, os', hstep, hrest, rfl⟩ := run_cons_inv hrun
    exact cons hstep hrest (ih hrest)

/-- A run continues from the state that its first part reaches. -/
theorem run_append (h : run step s is = some (s', os)) (js : List ι) :
    run step s (is ++ js) = (run step s' js).map fun r => (r.1, os ++ r.2) := by
  induction is generalizing s os with
  | nil =>
    obtain ⟨rfl, rfl⟩ := Prod.mk.inj (Option.some.inj h)
    simp
  | cons i is ih =>
    obtain ⟨s₁, o, os', hs, hrest, rfl⟩ := run_cons_inv h
    rw [List.cons_append, run_cons hs, ih hrest, Option.map_map]
    rfl

/-- A successful run splits anywhere. -/
theorem run_append_inv {s'' : σ} {js : List ι} (h : run step s (is ++ js) = some (s'', os)) :
    ∃ s' os₁ os₂, run step s is = some (s', os₁) ∧ run step s' js = some (s'', os₂) ∧
      os = os₁ ++ os₂ := by
  induction is generalizing s os with
  | nil => exact ⟨s, [], os, rfl, h, rfl⟩
  | cons i is ih =>
    obtain ⟨s₁, o, os', hs, hrest, rfl⟩ := run_cons_inv h
    obtain ⟨s', os₁, os₂, hfirst, hsecond, rfl⟩ := ih hrest
    exact ⟨s', o :: os₁, os₂, run_cons_some hs hfirst, hsecond, rfl⟩

/-- What is computed of a run on given inputs. -/
theorem holds_of_run (hrun : run step s is = some (s', os)) (P : σ → List ο → Prop)
    [∀ s os, Decidable (P s os)] (h : (run step s is).any fun r => P r.1 r.2) : P s' os := by
  rw [hrun] at h
  exact of_decide_eq_true h

/-- The end of a run on given inputs, from what is computed of it. -/
theorem exists_run {Q : σ → List ο → Prop} (P : σ → List ο → Prop) [∀ s os, Decidable (P s os)]
    (h : (run step s is).any fun r => P r.1 r.2)
    (hQ : ∀ s' os, run step s is = some (s', os) → P s' os → Q s' os) :
    ∃ s' os, run step s is = some (s', os) ∧ Q s' os := by
  obtain ⟨⟨s', os⟩, hrun, -⟩ := (Option.any_eq_true ..).mp h
  exact ⟨s', os, hrun, hQ s' os hrun (holds_of_run hrun P h)⟩

/-- The ends of a run and of another one that continues it. -/
theorem exists_runs {js : List ι} {Q : σ → List ο → σ → List ο → Prop}
    (P : σ → List ο → σ → List ο → Prop) [∀ s os s' os', Decidable (P s os s' os')]
    (h : (run step s is).any fun r => (run step r.1 js).any fun r' => P r.1 r.2 r'.1 r'.2)
    (hQ : ∀ s₁ os₁ s₂ os₂, run step s is = some (s₁, os₁) → run step s₁ js = some (s₂, os₂) →
      P s₁ os₁ s₂ os₂ → Q s₁ os₁ s₂ os₂) :
    ∃ s₁ os₁ s₂ os₂, run step s is = some (s₁, os₁) ∧ run step s₁ js = some (s₂, os₂) ∧
      Q s₁ os₁ s₂ os₂ := by
  obtain ⟨⟨s₁, os₁⟩, hrun, h⟩ := (Option.any_eq_true ..).mp h
  obtain ⟨⟨s₂, os₂⟩, hrun', hP⟩ := (Option.any_eq_true ..).mp h
  exact ⟨s₁, os₁, s₂, os₂, hrun, hrun', hQ s₁ os₁ s₂ os₂ hrun hrun' (of_decide_eq_true hP)⟩

/-- Every step of a run meets a condition on the state and the input before it. -/
def Along (step : σ → ι → Option (σ × ο)) (P : σ → ι → Prop) : σ → List ι → Prop
  | _, [] => True
  | s, i :: is => P s i ∧
    match step s i with
    | none => True
    | some (s', _) => Along step P s' is

instance Along.decidable {step : σ → ι → Option (σ × ο)} {P : σ → ι → Prop}
    [∀ s i, Decidable (P s i)] : ∀ s is, Decidable (Along step P s is)
  | _, [] => isTrue trivial
  | s, i :: is =>
    match h : step s i with
    | none => decidable_of_iff (P s i) (by simp [Along, h])
    | some (s', _) =>
      have : Decidable (Along step P s' is) := Along.decidable s' is
      decidable_of_iff (P s i ∧ Along step P s' is) (by simp [Along, h])

variable {P Q : σ → ι → Prop}

theorem along_cons {o : ο} (h : Along step P s (i :: is)) (hstep : step s i = some (s', o)) :
    P s i ∧ Along step P s' is := by
  simp only [Along, hstep] at h
  exact h

/-- A condition that is met along a run is met along its first part, and from there on. -/
theorem along_append {js : List ι} (h : Along step P s (is ++ js))
    (hrun : run step s is = some (s', os)) :
    Along step P s is ∧ Along step P s' js := by
  induction is generalizing s os with
  | nil =>
    cases hrun
    exact ⟨trivial, h⟩
  | cons i is ih =>
    obtain ⟨s₁, o, os', hs, hrest, rfl⟩ := run_cons_inv hrun
    obtain ⟨hi, htail⟩ := along_cons h hs
    obtain ⟨hfirst, hsecond⟩ := ih htail hrest
    refine ⟨⟨hi, ?_⟩, hsecond⟩
    rw [hs]
    exact hfirst

/-- A weaker condition is met too. -/
theorem Along.imp (h : Along step P s is) (hPQ : ∀ s i, P s i → Q s i) : Along step Q s is := by
  induction is generalizing s with
  | nil => trivial
  | cons i is ih =>
    refine ⟨hPQ s i h.1, ?_⟩
    have hrest := h.2
    split at hrest
    · trivial
    · exact ih hrest

/-- Two conditions that are met are met together. -/
theorem Along.and (hP : Along step P s is) (hQ : Along step Q s is) :
    Along step (fun s i => P s i ∧ Q s i) s is := by
  induction is generalizing s with
  | nil => trivial
  | cons i is ih =>
    refine ⟨⟨hP.1, hQ.1⟩, ?_⟩
    cases hs : step s i with
    | none => trivial
    | some r => exact ih (along_cons hP hs).2 (along_cons hQ hs).2

/-- A condition that the inputs alone meet in every state is met by the run. -/
theorem along_of_mem (h : ∀ i ∈ is, ∀ s, P s i) (s : σ) : Along step P s is := by
  induction is generalizing s with
  | nil => trivial
  | cons i is ih =>
    refine ⟨h i List.mem_cons_self s, ?_⟩
    split
    · trivial
    · exact ih (fun j hj => h j (List.mem_cons_of_mem i hj)) _

/-- A condition that always holds is met by every run. -/
theorem along_of_forall (h : ∀ s i, P s i) (s : σ) (is : List ι) : Along step P s is :=
  along_of_mem (fun i _ s => h s i) s

/-- A trace of a labelled transition relation, with one output for every input. -/
inductive Trace (Step : α → ι → ο → α → Prop) : α → List ι → List ο → α → Prop
  | nil (a) : Trace Step a [] [] a
  | cons {a b c i o is os} : Step a i o b → Trace Step b is os c →
      Trace Step a (i :: is) (o :: os) c

variable {a : α}

/-- Forward simulation: if every concrete step from related states succeeds and is
matched by an abstract step, every concrete run succeeds and is matched by a trace. -/
theorem run_simulates {S : α → ι → ο → α → Prop} {R : σ → α → Prop}
    (hstep : ∀ s a i, R s a → ∃ s' o a', step s i = some (s', o) ∧ S a i o a' ∧ R s' a')
    (is : List ι) (h : R s a) :
    ∃ s' os a', run step s is = some (s', os) ∧ Trace S a is os a' ∧ R s' a' := by
  induction is generalizing s a with
  | nil => exact ⟨s, [], a, rfl, Trace.nil a, h⟩
  | cons i is ih =>
    obtain ⟨s₁, o, a₁, hs, ha, hR⟩ := hstep s a i h
    obtain ⟨s₂, os, a₂, hrun, htrace, hR₂⟩ := ih hR
    exact ⟨s₂, o :: os, a₂, run_cons_some hs hrun, Trace.cons ha htrace, hR₂⟩

/-- Run a total specification, collecting its outputs. -/
def replay (spec : α → ι → α × ο) : α → List ι → α × List ο
  | a, [] => (a, [])
  | a, i :: is =>
    let r := replay spec (spec a i).1 is
    (r.1, (spec a i).2 :: r.2)

/-- A trace of a functional relation is the run of that function. -/
theorem Trace.eq_replay {spec : α → ι → α × ο} {b : α}
    (h : Trace (fun a i o a' => spec a i = (a', o)) a is os b) : replay spec a is = (b, os) := by
  induction h with
  | nil a => rfl
  | cons hstep _ ih => simp only [replay, hstep, ih]

/-- A machine whose every step agrees with a total specification has exactly its outputs. -/
theorem run_replays {spec : α → ι → α × ο} {R : σ → α → Prop}
    (hstep : ∀ s a i, R s a → ∃ s', step s i = some (s', (spec a i).2) ∧ R s' (spec a i).1)
    (is : List ι) (h : R s a) :
    ∃ s', run step s is = some (s', (replay spec a is).2) ∧ R s' (replay spec a is).1 := by
  obtain ⟨s', os, a', hrun, htrace, hR⟩ :=
    run_simulates (S := fun a i o a' => spec a i = (a', o))
      (fun s a i hR => by
        obtain ⟨s', hs, hR'⟩ := hstep s a i hR
        exact ⟨s', (spec a i).2, (spec a i).1, hs, rfl, hR'⟩) is h
  rw [htrace.eq_replay]
  exact ⟨s', hrun, hR⟩

variable {Inv I : σ → Prop}

/-- A machine whose steps succeed and keep an invariant where a condition is met never fails along a
run that meets it everywhere, and keeps the invariant. -/
theorem run_keeps_along (hstep : ∀ s i, P s i → Inv s → ∃ s' o, step s i = some (s', o) ∧ Inv s')
    (hP : Along step P s is) (h : Inv s) :
    ∃ s' os, run step s is = some (s', os) ∧ Inv s' := by
  induction is generalizing s with
  | nil => exact ⟨s, [], rfl, h⟩
  | cons i is ih =>
    obtain ⟨s₁, o, hs, h₁⟩ := hstep s i hP.1 h
    obtain ⟨s₂, os, hrun, h₂⟩ := ih (along_cons hP hs).2 h₁
    exact ⟨s₂, o :: os, run_cons_some hs hrun, h₂⟩

/-- An invariant that only the steps on some inputs keep is kept by the runs on such inputs. -/
theorem run_keeps_of_mem {P : ι → Prop}
    (hstep : ∀ s i, P i → Inv s → ∃ s' o, step s i = some (s', o) ∧ Inv s') (hP : ∀ i ∈ is, P i)
    (h : Inv s) : ∃ s' os, run step s is = some (s', os) ∧ Inv s' :=
  run_keeps_along hstep (along_of_mem (fun i hi _ => hP i hi) s) h

/-- A machine whose every step succeeds and keeps an invariant never fails and keeps it. -/
theorem run_keeps (hstep : ∀ s i, Inv s → ∃ s' o, step s i = some (s', o) ∧ Inv s') (is : List ι)
    (h : Inv s) : ∃ s' os, run step s is = some (s', os) ∧ Inv s' :=
  run_keeps_of_mem (fun s i _ => hstep s i) (fun _ _ => trivial) h

/-- A machine whose steps are mirrored by another one, where a condition is met, is mirrored along
a run that meets it everywhere. -/
theorem run_map {σ' ι' ο' : Type*} {step' : σ' → ι' → Option (σ' × ο')} {f : σ → σ'} {g : ι → ι'}
    {h : ο → ο'} (hstep : ∀ s i, P s i → step' (f s) (g i) = (step s i).map (Prod.map f h))
    (hP : Along step P s is) :
    run step' (f s) (is.map g) = (run step s is).map (Prod.map f (List.map h)) := by
  induction is generalizing s with
  | nil => rfl
  | cons i is ih =>
    have hi := hstep s i hP.1
    cases hs : step s i with
    | none =>
      rw [hs] at hi
      rw [List.map_cons, run_cons_none hi, run_cons_none hs]
      rfl
    | some r =>
      rw [hs] at hi
      rw [List.map_cons, run_cons hi, run_cons hs, ih (along_cons hP hs).2, Option.map_map,
        Option.map_map]
      rfl

/-- A value that records the inputs of a run with their outputs. -/
def chronicle {γ : Type*} (record : γ → ι → ο → γ) (g : γ) (is : List ι) (os : List ο) : γ :=
  (is.zip os).foldl (fun g io => record g io.1 io.2) g

variable {γ : Type*}

/-- A machine whose steps succeed and keep a relation to what is recorded of them, where a condition
is met, never fails along a run that meets it everywhere, and keeps it. -/
theorem run_keeps_history_along {record : γ → ι → ο → γ} {R : σ → γ → Prop}
    (hstep : ∀ s g i, P s i → R s g → ∃ s' o, step s i = some (s', o) ∧ R s' (record g i o)) {g : γ}
    (hP : Along step P s is) (h : R s g) :
    ∃ s' os, run step s is = some (s', os) ∧ R s' (chronicle record g is os) := by
  induction is generalizing s g with
  | nil => exact ⟨s, [], rfl, h⟩
  | cons i is ih =>
    obtain ⟨s₁, o, hs, h₁⟩ := hstep s g i hP.1 h
    obtain ⟨s₂, os, hrun, h₂⟩ := ih (along_cons hP hs).2 h₁
    exact ⟨s₂, o :: os, run_cons_some hs hrun, h₂⟩

/-- The same where the condition is on the inputs alone. -/
theorem run_keeps_history {record : γ → ι → ο → γ} {R : σ → γ → Prop} {P : ι → Prop}
    (hstep : ∀ s g i, P i → R s g → ∃ s' o, step s i = some (s', o) ∧ R s' (record g i o))
    (hP : ∀ i ∈ is, P i) {g : γ} (h : R s g) :
    ∃ s' os, run step s is = some (s', os) ∧ R s' (chronicle record g is os) :=
  run_keeps_history_along hstep (along_of_mem (fun i hi _ => hP i hi) s) h

/-- What the steps that succeed keep of the outputs so far and the state, where a condition is met,
a run that meets it everywhere keeps. -/
theorem keeps_outputs {I : List ο → σ → Prop}
    (hstep : ∀ {os s i s' o}, I os s → P s i → step s i = some (s', o) → I (os ++ [o]) s')
    (os : List ο) {os' : List ο} (h : I os s) (hP : Along step P s is)
    (hrun : run step s is = some (s', os')) : I (os ++ os') s' := by
  induction is generalizing s os os' with
  | nil =>
    cases hrun
    rwa [List.append_nil]
  | cons i is ih =>
    obtain ⟨s₁, o, os₁, hs, hrest, rfl⟩ := run_cons_inv hrun
    have h₁ := ih _ (hstep h hP.1 hs) (along_cons hP hs).2 hrest
    rwa [List.append_assoc] at h₁

/-- The same for the state alone. -/
theorem keeps_along (hstep : ∀ {s i s' o}, I s → P s i → step s i = some (s', o) → I s') (h : I s)
    (hP : Along step P s is) (hrun : run step s is = some (s', os)) : I s' :=
  keeps_outputs (I := fun _ => I) (fun h hp hs => hstep h hp hs) [] h hP hrun

/-- What every step that succeeds keeps, every run that succeeds keeps. -/
theorem keeps_of_step (hstep : ∀ {s i s' o}, I s → step s i = some (s', o) → I s') (h : I s)
    (hrun : run step s is = some (s', os)) : I s' :=
  keeps_along (P := fun _ _ => True) (fun h _ hs => hstep h hs) h
    (along_of_forall (fun _ _ => trivial) s is) hrun

/-- What follows from a condition and an invariant that the steps keep is met along the run too. -/
theorem Along.of_invariant (hstep : ∀ {s i s' o}, I s → P s i → step s i = some (s', o) → I s')
    (hQ : ∀ {s i}, I s → P s i → Q s i) (h : I s) (hP : Along step P s is) :
    Along step Q s is := by
  induction is generalizing s with
  | nil => trivial
  | cons i is ih =>
    refine ⟨hQ h hP.1, ?_⟩
    cases hs : step s i with
    | none => trivial
    | some r => exact ih (hstep h hP.1 hs) (along_cons hP hs).2

/-- Run a machine beside a history variable that it cannot read. -/
def observe {γ : Type*} (step : σ → ι → Option (σ × ο)) (record : σ → γ → ι → γ) :
    σ × γ → ι → Option ((σ × γ) × ο) :=
  fun sg i => (step sg.1 i).map fun r => ((r.1, record sg.1 sg.2 i), r.2)

/-- Erasing the history variable gives back the run. -/
theorem run_of_observe {record : σ → γ → ι → γ} {g g' : γ}
    (h : run (observe step record) (s, g) is = some ((s', g'), os)) :
    run step s is = some (s', os) := by
  induction is generalizing s g os with
  | nil =>
    simp only [run_nil, Option.some.injEq, Prod.mk.injEq] at h ⊢
    exact ⟨h.1.1, h.2⟩
  | cons i is ih =>
    obtain ⟨⟨s₁, g₁⟩, o, os', hstep, hrest, rfl⟩ := run_cons_inv h
    obtain ⟨⟨s₂, o₂⟩, hs, he⟩ := Option.map_eq_some_iff.mp hstep
    simp only [Prod.mk.injEq] at he
    obtain ⟨⟨rfl, rfl⟩, rfl⟩ := he
    rw [run_cons hs, ih hrest]
    rfl

/-- A history variable does not stop a run. -/
theorem observe_of_run (record : σ → γ → ι → γ) (h : run step s is = some (s', os)) (g : γ) :
    ∃ g', run (observe step record) (s, g) is = some ((s', g'), os) := by
  induction is generalizing s g os with
  | nil =>
    cases h
    exact ⟨g, rfl⟩
  | cons i is ih =>
    obtain ⟨s₁, o, os', hs, hrest, rfl⟩ := run_cons_inv h
    obtain ⟨g', hobs⟩ := ih hrest (record s g i)
    have hstep : observe step record (s, g) i = some ((s₁, record s g i), o) := by
      simp only [observe, hs, Option.map_some]
    refine ⟨g', ?_⟩
    rw [run_cons hstep, hobs]
    rfl

/-- A condition on the machine is met beside a history variable. -/
theorem Along.observe (record : σ → γ → ι → γ) (h : Along step P s is) (g : γ) :
    Along (Core.observe step record) (fun sg i => P sg.1 i) (s, g) is := by
  induction is generalizing s g with
  | nil => trivial
  | cons i is ih =>
    refine ⟨h.1, ?_⟩
    cases hs : step s i with
    | none => simp only [Core.observe, hs, Option.map_none]
    | some r =>
      simp only [Core.observe, hs, Option.map_some]
      exact ih (along_cons h hs).2 _

end Machine

end PionTransport.Core
