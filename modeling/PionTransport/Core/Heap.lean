import Mathlib.Data.List.Basic

/-!
# Heaps as lists

Cells are allocated at the end of a list, changed in place and never freed, so
an index names one cell for ever.
-/

namespace PionTransport.Core

variable {α β : Type*}

/-- Allocation adds one cell and keeps every other. -/
theorem getElem?_snoc_iff {heap : List α} {i : Nat} {x y : α} :
    (heap ++ [x])[i]? = some y ↔ (i = heap.length ∧ y = x) ∨ heap[i]? = some y := by
  by_cases hi : i < heap.length
  · rw [List.getElem?_append_left hi]
    have hne : i ≠ heap.length := Nat.ne_of_lt hi
    simp [hne]
  · have hnone : heap[i]? = none := List.getElem?_eq_none (Nat.le_of_not_lt hi)
    rw [List.getElem?_append_right (Nat.le_of_not_lt hi), hnone]
    by_cases he : i = heap.length
    · subst he
      simp [eq_comm]
    · have hpos : i - heap.length ≠ 0 := by omega
      simp [he, hpos]

theorem getElem?_singleton_iff {i : Nat} {x y : α} : [x][i]? = some y ↔ i = 0 ∧ x = y := by
  cases i <;> simp

/-- A change in place is seen at its own index only. -/
theorem getElem?_modify_iff {heap : List α} {i j : Nat} {f : α → α} {y : α} :
    (heap.modify i f)[j]? = some y ↔ ∃ x, heap[j]? = some x ∧ (if i = j then f x else x) = y := by
  simp only [List.getElem?_modify, Option.map_eq_map, Option.map_eq_some_iff]

theorem getElem?_modify_self {heap : List α} {i : Nat} {x : α} (h : heap[i]? = some x)
    (f : α → α) : (heap.modify i f)[i]? = some (f x) :=
  getElem?_modify_iff.mpr ⟨x, h, if_pos rfl⟩

/-- A change of a cell that is known. -/
theorem getElem?_modify_of_some {heap : List α} {i j : Nat} {f : α → α} {x y : α}
    (h : heap[i]? = some x) :
    (heap.modify i f)[j]? = some y ↔ (j = i ∧ y = f x) ∨ (j ≠ i ∧ heap[j]? = some y) := by
  rw [getElem?_modify_iff]
  constructor
  · rintro ⟨z, hz, rfl⟩
    by_cases hij : i = j
    · subst hij
      rw [h] at hz
      cases hz
      exact .inl ⟨rfl, if_pos rfl⟩
    · rw [if_neg hij]
      exact .inr ⟨Ne.symm hij, hz⟩
  · rintro (⟨rfl, rfl⟩ | ⟨hji, hy⟩)
    · exact ⟨x, h, if_pos rfl⟩
    · exact ⟨y, hy, if_neg (Ne.symm hji)⟩

/-- Changing the newest cell. -/
theorem modify_snoc (heap : List α) (x : α) (f : α → α) :
    (heap ++ [x]).modify heap.length f = heap ++ [f x] := by
  induction heap with
  | nil => rfl
  | cons y heap ih => simp [ih]

/-- A heap around one of its cells. -/
theorem exists_split {x : α} : ∀ {heap : List α} {i : Nat}, heap[i]? = some x →
    ∃ l r, heap = l ++ x :: r ∧ ∀ f : α → α, heap.modify i f = l ++ f x :: r
  | [], i, h => by simp at h
  | y :: heap, 0, h => by
    obtain rfl : y = x := by simpa using h
    exact ⟨[], heap, rfl, fun f => rfl⟩
  | y :: heap, i + 1, h => by
    have hx : heap[i]? = some x := by simpa using h
    obtain ⟨l, r, hsplit, hmodify⟩ := exists_split hx
    refine ⟨y :: l, r, by rw [hsplit, List.cons_append], fun f => ?_⟩
    rw [List.modify_succ_cons, hmodify f, List.cons_append]

/-- What no change of a cell touches. -/
theorem map_modify {g : α → β} {f : α → α} (hg : ∀ x, g (f x) = g x) (heap : List α) (i : Nat) :
    (heap.modify i f).map g = heap.map g := by
  apply List.ext_getElem?
  intro j
  simp only [List.getElem?_map, List.getElem?_modify, Option.map_eq_map, Option.map_map]
  congr 1
  funext x
  simp only [Function.comp_apply]
  split
  · exact hg x
  · rfl

/-- What the cells hold together does not change with a cell that holds the same. -/
theorem flatMap_modify {g : α → List β} {f : α → α} {heap : List α} {i : Nat} {x : α}
    (h : heap[i]? = some x) (hg : g (f x) = g x) :
    (heap.modify i f).flatMap g = heap.flatMap g := by
  obtain ⟨l, r, rfl, hmodify⟩ := exists_split h
  rw [hmodify f]
  simp only [List.flatMap_append, List.flatMap_cons, hg]

/-- Where one cell excludes all others, what the cells hold together grows at its end. -/
theorem flatMap_modify_snoc {R : α → α → Prop} {g : α → List β} {f : α → α} {heap : List α}
    {i : Nat} {x : α} {new : List β} (hpair : heap.Pairwise R) (h : heap[i]? = some x)
    (hothers : ∀ y, R x y → g y = []) (hg : g (f x) = g x ++ new) :
    (heap.modify i f).flatMap g = heap.flatMap g ++ new := by
  obtain ⟨l, r, rfl, hmodify⟩ := exists_split h
  have hr : r.flatMap g = [] := by
    rw [List.flatMap_eq_nil_iff]
    intro y hy
    exact hothers y ((List.pairwise_cons.mp (List.pairwise_append.mp hpair).2.1).1 y hy)
  rw [hmodify f]
  simp only [List.flatMap_append, List.flatMap_cons, hg, hr, List.append_nil, List.append_assoc]

/-- Where one cell excludes all others, the cells hold together what it holds. -/
theorem flatMap_eq_of_pairwise {R : α → α → Prop} {g : α → List β} {heap : List α} {i : Nat}
    {x : α} (hpair : heap.Pairwise R) (h : heap[i]? = some x)
    (hothers : ∀ y, R x y ∨ R y x → g y = []) : heap.flatMap g = g x := by
  obtain ⟨l, r, rfl, -⟩ := exists_split h
  obtain ⟨-, hcons, hcross⟩ := List.pairwise_append.mp hpair
  have hl : l.flatMap g = [] := by
    rw [List.flatMap_eq_nil_iff]
    intro y hy
    exact hothers y (.inr (hcross y hy x List.mem_cons_self))
  have hr : r.flatMap g = [] := by
    rw [List.flatMap_eq_nil_iff]
    intro y hy
    exact hothers y (.inl ((List.pairwise_cons.mp hcons).1 y hy))
  simp only [List.flatMap_append, List.flatMap_cons, hl, hr, List.nil_append, List.append_nil]

/-- How a count changes when one cell does. -/
theorem countP_modify {p : α → Bool} {f : α → α} {x : α} :
    ∀ {heap : List α} {i : Nat}, heap[i]? = some x →
      (heap.modify i f).countP p + (if p x then 1 else 0) =
        heap.countP p + (if p (f x) then 1 else 0)
  | [], i, h => by simp at h
  | y :: heap, 0, h => by
    obtain rfl : y = x := by simpa using h
    simp only [List.modify_zero_cons, List.countP_cons]
    omega
  | y :: heap, i + 1, h => by
    have hx : heap[i]? = some x := by simpa using h
    have ih := countP_modify (p := p) (f := f) hx
    simp only [List.modify_succ_cons, List.countP_cons]
    omega

end PionTransport.Core
