import Mathlib.Algebra.GroupWithZero.Nat
import PionTransport.Core.Heap
import PionTransport.Core.Run

/-!
# Potentials

A number that no step raises, and that every step of some kind lowers, bounds how many
steps of that kind a run has.
-/

namespace PionTransport.Core

variable {σ ι ο : Type*}

/-- How many steps of a run are of some kind. -/
def counted (kind : ι → ο → Bool) (is : List ι) (os : List ο) : Nat :=
  (is.zip os).countP fun io => kind io.1 io.2

theorem counted_cons (kind : ι → ο → Bool) (i : ι) (is : List ι) (o : ο) (os : List ο) :
    counted kind (i :: is) (o :: os) = (if kind i o then 1 else 0) + counted kind is os := by
  rw [counted, List.zip_cons_cons, List.countP_cons, Nat.add_comm]
  rfl

/-- The steps of the kind are paid for until a goal is reached, which is then kept. -/
theorem reaches_of_potential {step : σ → ι → Option (σ × ο)} {I G : σ → Prop} {P : σ → ι → Prop}
    (kind : ι → ο → Bool) (potential : σ → Nat)
    (hstep : ∀ {s i s' o}, I s → P s i → step s i = some (s', o) →
      I s' ∧ (G s → G s') ∧ (G s' ∨ (if kind i o then 1 else 0) + potential s' ≤ potential s))
    {is : List ι} {s s' : σ} {os : List ο} (h : I s) (hP : Along step P s is)
    (hrun : run step s is = some (s', os)) :
    I s' ∧ (G s → G s') ∧ (G s' ∨ counted kind is os + potential s' ≤ potential s) := by
  induction hrun using run_induct with
  | nil => exact ⟨h, id, .inr (by simp [counted])⟩
  | cons hs _ ih =>
    obtain ⟨h₁, hkeep, hpaid⟩ := hstep h hP.1 hs
    obtain ⟨h', hkeep', hpaid'⟩ := ih h₁ (along_cons hP hs).2
    refine ⟨h', fun hG => hkeep' (hkeep hG), ?_⟩
    rcases hpaid with hG | hpaid
    · exact .inl (hkeep' hG)
    · refine hpaid'.imp_right fun hpaid' => ?_
      rw [counted_cons]
      omega

/-- The steps of the kind are paid for by the potential, as long as the invariant holds. -/
theorem counted_le_of_potential {step : σ → ι → Option (σ × ο)} {I : σ → Prop}
    (kind : ι → ο → Bool) (potential : σ → Nat)
    (hstep : ∀ {s i s' o}, I s → step s i = some (s', o) →
      I s' ∧ (if kind i o then 1 else 0) + potential s' ≤ potential s)
    {is : List ι} {s s' : σ} {os : List ο} (h : I s) (hrun : run step s is = some (s', os)) :
    I s' ∧ counted kind is os + potential s' ≤ potential s := by
  obtain ⟨h', -, hpaid⟩ := reaches_of_potential (G := fun _ => False) kind potential
    (fun h _ hs => ⟨(hstep h hs).1, id, .inr (hstep h hs).2⟩) h
    (along_of_forall (fun _ _ => trivial) ..) hrun
  exact ⟨h', hpaid.resolve_left id⟩

/-- How a sum over a heap changes when one cell does. -/
theorem sum_map_modify {α : Type*} {g : α → Nat} {f : α → α} {heap : List α} {i : Nat} {x : α}
    (h : heap[i]? = some x) :
    ((heap.modify i f).map g).sum + g x = (heap.map g).sum + g (f x) := by
  obtain ⟨l, r, rfl, hmodify⟩ := exists_split h
  rw [hmodify f]
  simp only [List.map_append, List.map_cons, List.sum_append, List.sum_cons]
  omega

end PionTransport.Core
