import Mathlib.Data.List.Basic

/-!
# Checked slices

Bounds-checked slicing, indexing and copying on lists. An out-of-range index
fails with `none`, so a computation built from these operations succeeds only
if every index it uses is in range. Copying follows the usual contract: it
stops at the shorter of its two operands and reports how much it moved.
-/

namespace PionTransport.Core

variable {α : Type*}

/-- The part `xs[lo:hi]`, failing unless `lo ≤ hi ≤ len`. -/
def slice? (xs : List α) (lo hi : Nat) : Option (List α) :=
  if lo ≤ hi ∧ hi ≤ xs.length then some ((xs.take hi).drop lo) else none

/-- Write one cell, failing when the index is out of range. -/
def store? (xs : List α) (i : Nat) (x : α) : Option (List α) :=
  if i < xs.length then some (xs.set i x) else none

/-- Copy `src` to the part `dst[lo:hi]`; returns the new array and the number of copied cells. -/
def copyRange? (dst : List α) (lo hi : Nat) (src : List α) : Option (List α × Nat) :=
  if lo ≤ hi ∧ hi ≤ dst.length then
    let n := min (hi - lo) src.length
    some (dst.take lo ++ src.take n ++ dst.drop (lo + n), n)
  else none

/-- Exchange two cells, failing when an index is out of range. -/
def swap? (xs : List α) (i j : Nat) : Option (List α) := do
  let x ← xs[i]?
  let y ← xs[j]?
  return (xs.set i y).set j x

variable {xs : List α}

/-- A slice inside the array succeeds. -/
theorem slice?_eq {lo hi : Nat} (hlo : lo ≤ hi) (hhi : hi ≤ xs.length) :
    slice? xs lo hi = some ((xs.take hi).drop lo) := by
  simp only [slice?, hlo, hhi, and_self, ite_true]

/-- A suffix slice succeeds and drops its offset. -/
theorem slice?_suffix {lo : Nat} (hlo : lo ≤ xs.length) :
    slice? xs lo xs.length = some (xs.drop lo) := by
  rw [slice?_eq hlo (Nat.le_refl _), List.take_length]

/-- A prefix slice succeeds and keeps exactly its length. -/
theorem slice?_take {hi : Nat} (hhi : hi ≤ xs.length) :
    slice? xs 0 hi = some (xs.take hi) := by
  rw [slice?_eq (Nat.zero_le hi) hhi, List.drop_zero]

/-- A store inside the array succeeds. -/
theorem store?_eq {i : Nat} (hi : i < xs.length) (x : α) :
    store? xs i x = some (xs.set i x) := by
  simp only [store?, hi, ite_true]

/-- Two cells inside the array are exchanged. -/
theorem swap?_eq {i j : Nat} (hi : i < xs.length) (hj : j < xs.length) :
    ∃ ys, swap? xs i j = some ys ∧ ys.length = xs.length ∧
      ∀ p : Nat, ys[p]? = if p = j then xs[i]? else if p = i then xs[j]? else xs[p]? := by
  refine ⟨(xs.set i xs[j]).set j xs[i], ?_, by simp, fun p => ?_⟩
  · simp only [swap?, List.getElem?_eq_getElem hi, List.getElem?_eq_getElem hj,
      Option.bind_eq_bind, Option.bind_some, Option.pure_def]
  · by_cases hpj : p = j
    · subst hpj
      rw [if_pos rfl, List.getElem?_set_self (by simpa using hj), List.getElem?_eq_getElem hi]
    · rw [if_neg hpj, List.getElem?_set_ne (Ne.symm hpj)]
      by_cases hpi : p = i
      · subst hpi
        rw [if_pos rfl, List.getElem?_set_self hi, List.getElem?_eq_getElem hj]
      · rw [if_neg hpi, List.getElem?_set_ne (Ne.symm hpi)]

/-- A source that fits its range is copied whole. -/
theorem copyRange?_fits (dst src : List α) (lo hi : Nat) (hlo : lo + src.length ≤ hi)
    (hhi : hi ≤ dst.length) :
    copyRange? dst lo hi src =
      some (dst.take lo ++ src ++ dst.drop (lo + src.length), src.length) := by
  have hn : min (hi - lo) src.length = src.length := by omega
  have hb : lo ≤ hi ∧ hi ≤ dst.length := ⟨by omega, hhi⟩
  simp only [copyRange?, hb, and_self, ite_true, hn, List.take_length]

/-- A source longer than its range fills the range exactly. -/
theorem copyRange?_fills (dst src : List α) (lo hi : Nat) (hlo : lo ≤ hi)
    (hsrc : hi - lo ≤ src.length) (hhi : hi ≤ dst.length) :
    copyRange? dst lo hi src =
      some (dst.take lo ++ src.take (hi - lo) ++ dst.drop hi, hi - lo) := by
  have hn : min (hi - lo) src.length = hi - lo := by omega
  have hadd : lo + (hi - lo) = hi := by omega
  simp only [copyRange?, hlo, hhi, and_self, ite_true, hn, hadd]

/-- Copying to the front of a fresh array. -/
theorem copyRange?_fresh (fill : α) (n : Nat) (xs : List α) (h : xs.length ≤ n) :
    copyRange? (List.replicate n fill) 0 n xs =
      some (xs ++ List.replicate (n - xs.length) fill, xs.length) := by
  rw [copyRange?_fits _ _ _ _ (by omega) (Nat.le_of_eq List.length_replicate.symm)]
  simp only [List.take_zero, List.nil_append, Nat.zero_add, List.drop_replicate]

/-- Copying a second part behind the first one. -/
theorem copyRange?_behind (fill : α) (n m : Nat) (xs ys : List α) (hn : xs.length + m = n)
    (h : ys.length ≤ m) :
    copyRange? (xs ++ List.replicate m fill) xs.length n ys =
      some (xs ++ ys ++ List.replicate (m - ys.length) fill, ys.length) := by
  rw [copyRange?_fits _ _ _ _ (by omega)
    (by simp only [List.length_append, List.length_replicate]; omega)]
  simp only [List.take_left, List.drop_append, List.drop_of_length_le (Nat.le_add_right _ _),
    List.nil_append, Nat.add_sub_cancel_left, List.drop_replicate]

end PionTransport.Core
