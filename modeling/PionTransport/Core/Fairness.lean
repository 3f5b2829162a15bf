import PionTransport.Core.Run

/-!
# Fair schedules

An infinite schedule that takes what is due again and again reaches its goal, if what
is due stays due until it is taken, and brings the goal nearer when it is.
-/

namespace PionTransport.Core

variable {σ ι ο α : Type*}

/-- The next `k` inputs of a schedule from the one with number `n` on. -/
def window (is : Nat → ι) (n k : Nat) : List ι := (List.range k).map fun m => is (n + m)

theorem window_succ (is : Nat → ι) (n k : Nat) :
    window is n (k + 1) = is n :: window is (n + 1) k := by
  simp only [window, List.range_succ_eq_map, List.map_cons, List.map_map, Nat.add_zero,
    List.cons.injEq, true_and]
  refine List.map_congr_left fun m _ => congrArg is ?_
  simp only [Nat.succ_eq_add_one]
  omega

/-- A run of the machine over the schedule gives an output of some kind. -/
def Reaches (step : σ → ι → Option (σ × ο)) (is : Nat → ι) (Goal : ο → Prop) (n : Nat) (s : σ) :
    Prop :=
  ∃ k s' os, run step s (window is n k) = some (s', os) ∧ ∃ o ∈ os, Goal o

section Schedule

variable {step : σ → ι → Option (σ × ο)} {is : Nat → ι} {Goal : ο → Prop} {n : Nat} {s s' : σ}
  {o : ο}

/-- The next step reaches the goal. -/
theorem Reaches.now (hs : step s (is n) = some (s', o)) (ho : Goal o) :
    Reaches step is Goal n s := by
  refine ⟨1, s', [o], ?_, o, List.mem_singleton_self o, ho⟩
  rw [window_succ, run_cons hs]
  rfl

/-- A later step reaches it. -/
theorem Reaches.later (hs : step s (is n) = some (s', o))
    (h : Reaches step is Goal (n + 1) s') : Reaches step is Goal n s := by
  obtain ⟨k, s'', os, hrun, o', ho', hgoal⟩ := h
  refine ⟨k + 1, s'', o :: os, ?_, o', List.mem_cons_of_mem o ho', hgoal⟩
  rw [window_succ, run_cons hs, hrun]
  rfl

/-- Wherever the machine is on its way, its next step reaches the goal, brings it nearer or leaves
everything as due as it was, if the step itself was not due. -/
theorem reaches_of_fair {lt : α → α → Prop} (hwf : WellFounded lt) {At : Nat → α → σ → Prop}
    (Due : α → σ → ι → Prop)
    (hstep : ∀ {n a s}, At n a s → ∃ s' o, step s (is n) = some (s', o) ∧
      (Goal o ∨ (∃ b, lt b a ∧ At (n + 1) b s') ∨
        At (n + 1) a s' ∧ ¬ Due a s (is n) ∧ ∀ i, Due a s i → Due a s' i))
    (hfair : ∀ {n a s}, At n a s → ∃ m, n ≤ m ∧ Due a s (is m)) {a : α} (h : At n a s) :
    Reaches step is Goal n s := by
  induction a using hwf.induction generalizing n s with
  | _ a nearer =>
    obtain ⟨m, hnm, hdue⟩ := hfair h
    -- by induction on how far away the due input is
    induction hd : m - n generalizing n s with
    | zero =>
      obtain rfl : n = m := by omega
      obtain ⟨s', o, hs, hgoal | ⟨b, hlt, hb⟩ | ⟨-, hnot, -⟩⟩ := hstep h
      · exact .now hs hgoal
      · exact .later hs (nearer b hlt hb)
      · exact absurd hdue hnot
    | succ d ih =>
      obtain ⟨s', o, hs, hgoal | ⟨b, hlt, hb⟩ | ⟨hkept, -, hdue'⟩⟩ := hstep h
      · exact .now hs hgoal
      · exact .later hs (nearer b hlt hb)
      · exact .later hs (ih hkept (by omega) (hdue' _ hdue) (by omega))

end Schedule

end PionTransport.Core
