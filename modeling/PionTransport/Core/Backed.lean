import Mathlib.Algebra.Group.Int.Defs
import Mathlib.Data.List.Basic

/-!
# Slices over their arrays

A slice sees a part of its array; behind it lie cells that it does not see but that
it can be extended over. They hold what was stored in them before. Appending writes
into these cells if they suffice and otherwise moves to a new array, whose size is
up to the runtime. A slice expression out of range fails with `none`.
-/

namespace PionTransport.Core

/-- A slice, and the cells of its array behind it. -/
structure Backed (α : Type*) where
  items : List α
  spare : List α
  deriving DecidableEq, Repr

namespace Backed

variable {α : Type*} {s : Backed α}

/-- A slice without an array. -/
def empty : Backed α := ⟨[], []⟩

/-- The cells up to the capacity. -/
def cells (s : Backed α) : List α := s.items ++ s.spare

/-- `len`. -/
def len (s : Backed α) : Int := s.items.length

theorem len_nonneg (s : Backed α) : 0 ≤ s.len := Int.natCast_nonneg _

/-- `s[:hi]`, up to the capacity. -/
def upTo? (s : Backed α) (hi : Int) : Option (Backed α) :=
  if 0 ≤ hi ∧ hi ≤ s.cells.length then
    some ⟨s.cells.take hi.toNat, s.cells.drop hi.toNat⟩
  else none

/-- `s[lo:]`, up to the length. -/
def from? (s : Backed α) (lo : Int) : Option (Backed α) :=
  if 0 ≤ lo ∧ lo ≤ s.len then some ⟨s.items.drop lo.toNat, s.spare⟩ else none

/-- `append`; `grow` is the number of cells that a new array for the given capacity and length has
to spare. -/
def append [Inhabited α] (grow : Nat → Nat → Nat) (s : Backed α) (xs : List α) : Backed α :=
  if xs.length ≤ s.spare.length then ⟨s.items ++ xs, s.spare.drop xs.length⟩
  else
    ⟨s.items ++ xs,
      List.replicate (grow s.cells.length (s.items.length + xs.length)) default⟩

@[simp] theorem items_append [Inhabited α] (grow : Nat → Nat → Nat) (s : Backed α) (xs : List α) :
    (s.append grow xs).items = s.items ++ xs := by
  unfold append
  split <;> rfl

/-- A slice is cut inside its length. -/
theorem upTo?_eq {hi : Nat} (h : hi ≤ s.items.length) :
    s.upTo? hi = some ⟨s.items.take hi, s.items.drop hi ++ s.spare⟩ := by
  have hcap : (0 : Int) ≤ hi ∧ (hi : Int) ≤ s.cells.length := by
    rw [cells, List.length_append]
    omega
  rw [upTo?, if_pos hcap, Int.toNat_natCast, cells, List.take_append_of_le_length h,
    List.drop_append_of_le_length h]

theorem upTo?_eq_some {t : Backed α} {hi : Int} (h : s.upTo? hi = some t) :
    0 ≤ hi ∧ t.items.length = hi.toNat := by
  unfold upTo? at h
  split at h
  next hrange =>
    cases h
    refine ⟨hrange.1, ?_⟩
    rw [List.length_take]
    omega
  · cases h

theorem from?_eq {lo : Nat} (h : lo ≤ s.items.length) :
    s.from? lo = some ⟨s.items.drop lo, s.spare⟩ := by
  have hrange : (0 : Int) ≤ lo ∧ (lo : Int) ≤ s.len := by
    unfold len
    omega
  rw [from?, if_pos hrange, Int.toNat_natCast]

theorem from?_eq_some {t : Backed α} {lo : Int} (h : s.from? lo = some t) :
    0 ≤ lo ∧ lo ≤ s.len ∧ t = ⟨s.items.drop lo.toNat, s.spare⟩ := by
  unfold from? at h
  split at h
  next hrange =>
    cases h
    exact ⟨hrange.1, hrange.2, rfl⟩
  · cases h

end Backed

end PionTransport.Core
