import PionTransport.Core.Heap
import PionTransport.Core.Table

/-!
# Heaps with two indices

Two tables point into one heap, each by a key of the cell that is pointed to. They
are mutually inverse if they hold the same pointers, each under its cell's own keys.
-/

namespace PionTransport.Core

variable {μ κ κ' : Type*} [DecidableEq κ] [DecidableEq κ'] {key : μ → κ} {key' : μ → κ'}
  {heap : List μ} {table : AList fun _ : κ => Nat} {table' : AList fun _ : κ' => Nat}
  {p q : Nat} {m m' : μ}

/-- Every pointer of one table is in the other, and stored under both keys of its cell. -/
structure Indexed (key : μ → κ) (key' : μ → κ') (heap : List μ) (table : AList fun _ : κ => Nat)
    (table' : AList fun _ : κ' => Nat) : Prop where
  left : ∀ k p, table.lookup k = some p →
    ∃ m, heap[p]? = some m ∧ key m = k ∧ table'.lookup (key' m) = some p
  right : ∀ k p, table'.lookup k = some p →
    ∃ m, heap[p]? = some m ∧ key' m = k ∧ table.lookup (key m) = some p

namespace Indexed

theorem empty (key : μ → κ) (key' : μ → κ') (heap : List μ) : Indexed key key' heap ∅ ∅ :=
  ⟨by simp, by simp⟩

theorem symm (h : Indexed key key' heap table table') : Indexed key' key heap table' table :=
  ⟨h.right, h.left⟩

/-- A pointer is stored under the key of its cell only. -/
theorem lookup_iff (h : Indexed key key' heap table table') (hm : heap[p]? = some m)
    (hp : table.lookup (key m) = some p) (k : κ) : table.lookup k = some p ↔ k = key m := by
  constructor
  · intro hk
    obtain ⟨m', hm', rfl, -⟩ := h.left k p hk
    rw [Option.some.inj (hm.symm.trans hm')]
  · rintro rfl
    exact hp

/-- A cell that one table holds is held by the other. -/
theorem lookup_right (h : Indexed key key' heap table table') (hm : heap[p]? = some m)
    (hp : table.lookup (key m) = some p) : table'.lookup (key' m) = some p := by
  obtain ⟨m', hm', -, hp'⟩ := h.left _ _ hp
  rwa [Option.some.inj (hm.symm.trans hm')]

theorem lookup_erase (h : Indexed key key' heap table table') (hm : heap[p]? = some m)
    (hp : table.lookup (key m) = some p) (k : κ) (q : Nat) :
    (table.erase (key m)).lookup k = some q ↔ table.lookup k = some q ∧ q ≠ p := by
  rw [lookup_erase_iff]
  constructor
  · rintro ⟨hk, hq⟩
    refine ⟨hq, ?_⟩
    rintro rfl
    exact hk ((h.lookup_iff hm hp k).mp hq)
  · rintro ⟨hq, hne⟩
    refine ⟨?_, hq⟩
    rintro rfl
    exact hne (Option.some.inj (hq.symm.trans hp))

/-- One half of `erase`. -/
theorem erase_left (h : Indexed key key' heap table table') (hm : heap[p]? = some m)
    (hp : table.lookup (key m) = some p) (k : κ) (q : Nat)
    (hq : (table.erase (key m)).lookup k = some q) :
    ∃ m', heap[q]? = some m' ∧ key m' = k ∧
      (table'.erase (key' m)).lookup (key' m') = some q := by
  obtain ⟨hq, hne⟩ := (h.lookup_erase hm hp k q).mp hq
  obtain ⟨m', hm', hk, hq'⟩ := h.left k q hq
  exact ⟨m', hm', hk, (h.symm.lookup_erase hm (h.lookup_right hm hp) _ q).mpr ⟨hq', hne⟩⟩

/-- A stored cell is taken out of both tables. -/
theorem erase (h : Indexed key key' heap table table') (hm : heap[p]? = some m)
    (hp : table.lookup (key m) = some p) :
    Indexed key key' heap (table.erase (key m)) (table'.erase (key' m)) :=
  ⟨h.erase_left hm hp, h.symm.erase_left hm (h.lookup_right hm hp)⟩

/-- One half of `insert`. -/
theorem insert_left (h : Indexed key key' heap table table')
    (hnone' : table'.lookup (key' m) = none) (k : κ) (q : Nat)
    (hq : (table.insert (key m) heap.length).lookup k = some q) :
    ∃ m', (heap ++ [m])[q]? = some m' ∧ key m' = k ∧
      (table'.insert (key' m) heap.length).lookup (key' m') = some q := by
  rcases lookup_insert_iff.mp hq with ⟨rfl, rfl⟩ | ⟨-, hq⟩
  · exact ⟨m, getElem?_snoc_iff.mpr (Or.inl ⟨rfl, rfl⟩), rfl, AList.lookup_insert _⟩
  · obtain ⟨m', hm', hk, hq'⟩ := h.left k q hq
    refine ⟨m', getElem?_snoc_iff.mpr (Or.inr hm'), hk, ?_⟩
    rw [AList.lookup_insert_ne, hq']
    intro he
    rw [he, hnone'] at hq'
    cases hq'

/-- A new cell is entered under two keys that are free. -/
theorem insert (h : Indexed key key' heap table table') (hnone : table.lookup (key m) = none)
    (hnone' : table'.lookup (key' m) = none) :
    Indexed key key' (heap ++ [m]) (table.insert (key m) heap.length)
      (table'.insert (key' m) heap.length) :=
  ⟨h.insert_left hnone', h.symm.insert_left hnone⟩

/-- One half of `set`. -/
theorem set_left (h : Indexed key key' heap table table') (hm : heap[p]? = some m)
    (hkey : key m' = key m) (hkey' : key' m' = key' m) (k : κ) (q : Nat)
    (hq : table.lookup k = some q) :
    ∃ m₁, (heap.set p m')[q]? = some m₁ ∧ key m₁ = k ∧ table'.lookup (key' m₁) = some q := by
  obtain ⟨m₁, hm₁, hk, hq'⟩ := h.left k q hq
  by_cases hqp : q = p
  · subst hqp
    obtain rfl := Option.some.inj (hm.symm.trans hm₁)
    obtain ⟨hlt, -⟩ := List.getElem?_eq_some_iff.mp hm
    exact ⟨m', List.getElem?_set_self hlt, hkey.trans hk, hkey'.symm ▸ hq'⟩
  · exact ⟨m₁, by rwa [List.getElem?_set_ne (Ne.symm hqp)], hk, hq'⟩

/-- A cell may change as long as its keys stay. -/
theorem set (h : Indexed key key' heap table table') (hm : heap[p]? = some m)
    (hkey : key m' = key m) (hkey' : key' m' = key' m) :
    Indexed key key' (heap.set p m') table table' :=
  ⟨h.set_left hm hkey hkey', h.symm.set_left hm hkey' hkey⟩

end Indexed

end PionTransport.Core
