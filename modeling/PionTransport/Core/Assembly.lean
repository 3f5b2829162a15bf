import Mathlib.Logic.Relation

/-!
# Assembly listings

A listing is a list of lines: labels, operations, conditional branches and returns. What
operations and conditions mean is a parameter. The place in a listing is the rest of it, so
that a branch goes on with the lines from its label. Runs are chained by what one step
reaches, and a run that reaches a return gives its result with enough fuel.
-/

namespace PionTransport.Core

open Relation

/-- A line of a listing. -/
inductive Line (ι κ l : Type*)
  | label (name : l)
  | op (instr : ι)
  /-- branch to a label if a condition holds -/
  | branch (cond : κ) (target : l)
  | ret

/-- What operations do and when conditions hold. -/
structure Isa (σ ι κ : Type*) where
  effect : ι → σ → σ
  holds : κ → σ → Bool

section Listing

variable {σ ι κ l : Type*} [DecidableEq l]

/-- The line is the label. -/
def Line.isLabel (name : l) : Line ι κ l → Bool
  | .label name' => decide (name' = name)
  | .op _ | .branch _ _ | .ret => false

/-- The lines from a label on. -/
def linesFrom (listing : List (Line ι κ l)) (name : l) : List (Line ι κ l) :=
  listing.dropWhile fun line => !line.isLabel name

/-- One line. A listing that has returned or is at its end does not go on. -/
def Isa.step (isa : Isa σ ι κ) (listing : List (Line ι κ l)) :
    List (Line ι κ l) × σ → Option (List (Line ι κ l) × σ)
  | ([], _) | (.ret :: _, _) => none
  | (.label _ :: rest, s) => some (rest, s)
  | (.op instr :: rest, s) => some (rest, isa.effect instr s)
  | (.branch cond target :: rest, s) =>
    some (if isa.holds cond s then linesFrom listing target else rest, s)

/-- Run the lines until the listing returns. -/
def Isa.exec (isa : Isa σ ι κ) (listing : List (Line ι κ l)) :
    Nat → List (Line ι κ l) × σ → Option σ
  | 0, _ => none
  | _ + 1, (.ret :: _, s) => some s
  | fuel + 1, c => (isa.step listing c).bind (isa.exec listing fuel)

variable {isa : Isa σ ι κ} {listing rest : List (Line ι κ l)} {s s' : σ}

/-- Some steps lead from one place and state to another. -/
def Isa.Reaches (isa : Isa σ ι κ) (listing : List (Line ι κ l)) :
    List (Line ι κ l) × σ → List (Line ι κ l) × σ → Prop :=
  ReflTransGen fun c c' => isa.step listing c = some c'

namespace Isa.Reaches

theorem refl (c : List (Line ι κ l) × σ) : isa.Reaches listing c c := ReflTransGen.refl

theorem trans {c c' c'' : List (Line ι κ l) × σ} (h : isa.Reaches listing c c')
    (h' : isa.Reaches listing c' c'') : isa.Reaches listing c c'' :=
  ReflTransGen.trans h h'

theorem label {name : l} : isa.Reaches listing (.label name :: rest, s) (rest, s) :=
  ReflTransGen.single rfl

theorem op {instr : ι} :
    isa.Reaches listing (.op instr :: rest, s) (rest, isa.effect instr s) :=
  ReflTransGen.single rfl

theorem taken {cond : κ} {target : l} (h : isa.holds cond s = true) :
    isa.Reaches listing (.branch cond target :: rest, s) (linesFrom listing target, s) := by
  apply ReflTransGen.single
  simp only [step, h, if_true]

theorem notTaken {cond : κ} {target : l} (h : isa.holds cond s = false) :
    isa.Reaches listing (.branch cond target :: rest, s) (rest, s) := by
  apply ReflTransGen.single
  simp only [step, h, Bool.false_eq_true, if_false]

/-- Straight-line code. -/
theorem ops (instrs : List ι) (rest : List (Line ι κ l)) (s : σ) :
    isa.Reaches listing (instrs.map .op ++ rest, s)
      (rest, instrs.foldl (fun s instr => isa.effect instr s) s) := by
  induction instrs generalizing s with
  | nil => exact refl _
  | cons instr instrs ih => exact op.trans (ih _)

/-- A run that reaches a return ends with enough fuel. -/
theorem exec_eq {c : List (Line ι κ l) × σ} (h : isa.Reaches listing c (.ret :: rest, s)) :
    ∃ enough, ∀ fuel, enough ≤ fuel → isa.exec listing fuel c = some s := by
  induction h using ReflTransGen.head_induction_on with
  | refl =>
    refine ⟨1, fun fuel hfuel => ?_⟩
    obtain ⟨fuel, rfl⟩ := Nat.exists_eq_add_of_le' hfuel
    rfl
  | head hstep _ ih =>
    obtain ⟨enough, hexec⟩ := ih
    refine ⟨enough + 1, fun fuel hfuel => ?_⟩
    obtain ⟨fuel, rfl⟩ := Nat.exists_eq_add_of_le' (Nat.le_of_add_left_le hfuel)
    rw [exec, hstep, Option.bind_some, hexec fuel (Nat.le_of_add_le_add_right hfuel)]
    -- a listing that steps has not returned
    rintro rest s rfl
    cases hstep

end Isa.Reaches

end Listing

end PionTransport.Core
