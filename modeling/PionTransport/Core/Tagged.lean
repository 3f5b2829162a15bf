import Mathlib.Data.List.Perm.Subperm

/-!
# Tagged lists

A list of tagged values is an interleaving of one list for each tag. If the
values of every tag form a prefix of those in another list, then no value
occurs more often than in the other list.
-/

namespace PionTransport.Core

variable {τ α β : Type*} [DecidableEq τ] {s t : τ} {xs ys : List (τ × α)} {a : α}

/-- The values with a tag, in order. -/
def tagged (t : τ) (xs : List (τ × α)) : List α := (xs.filter fun x => x.1 = t).map Prod.snd

theorem tagged_snoc_self : tagged t (xs ++ [(t, a)]) = tagged t xs ++ [a] := by
  simp [tagged]

theorem tagged_snoc_ne (h : s ≠ t) : tagged t (xs ++ [(s, a)]) = tagged t xs := by
  simp [tagged, h]

theorem mem_tagged : a ∈ tagged t xs ↔ (t, a) ∈ xs := by
  simp [tagged]

/-- A tag that no entry carries has no values. -/
theorem tagged_eq_nil (h : ∀ x ∈ xs, x.1 ≠ t) : tagged t xs = [] := by
  apply List.eq_nil_iff_forall_not_mem.mpr
  intro a ha
  exact h (t, a) (mem_tagged.mp ha) rfl

theorem tagged_map (f : α → β) : tagged t (xs.map (Prod.map id f)) = (tagged t xs).map f := by
  induction xs with
  | nil => rfl
  | cons x xs ih =>
    unfold tagged at ih ⊢
    by_cases hx : x.1 = t
    · simp [hx, ih]
    · simp [hx, ih]

theorem count_tagged [DecidableEq α] : (tagged t xs).count a = xs.count (t, a) := by
  induction xs with
  | nil => rfl
  | cons x xs ih =>
    obtain ⟨s, b⟩ := x
    unfold tagged at ih ⊢
    by_cases hs : s = t
    · subst hs
      simp [List.count_cons, ih]
    · simp [hs, ih]

/-- A list that has a prefix of the values of every tag has no value too often. -/
theorem subperm_of_tagged (h : ∀ t, tagged t xs <+: tagged t ys) : xs.Subperm ys := by
  classical
  rw [List.subperm_ext_iff]
  rintro ⟨t, a⟩ -
  rw [← count_tagged, ← count_tagged]
  exact (h t).sublist.count_le a

end PionTransport.Core
