import PionTransport.Core.Table

/-!
# Tables of groups

A map from a key to the elements that have this key. No group is empty, an
element is stored under its own key, and every group satisfies a condition of the
table. What a table holds is the list of its members.
-/

namespace PionTransport.Core

variable {κ σ : Type*}

/-- The elements of all groups. -/
def members (m : AList fun _ : κ => List σ) : List σ := m.entries.flatMap Sigma.snd

variable [DecidableEq κ]

/-- The elements with a key. -/
def groupAt (m : AList fun _ : κ => List σ) (k : κ) : List σ := (m.lookup k).getD []

/-- A group gets other elements; an empty group is removed. -/
def setGroup (m : AList fun _ : κ => List σ) (k : κ) (group : List σ) : AList fun _ : κ => List σ :=
  if group.isEmpty then m.erase k else m.insert k group

/-- What a table keeps true of each of its groups. -/
structure Grouped (key : σ → κ) (Q : List σ → Prop) (m : AList fun _ : κ => List σ) : Prop where
  nonempty : ∀ {k group}, m.lookup k = some group → group ≠ []
  key : ∀ {k group}, m.lookup k = some group → ∀ x ∈ group, key x = k
  group : ∀ {k group}, m.lookup k = some group → Q group

variable {key : σ → κ} {Q : List σ → Prop} {m : AList fun _ : κ => List σ}
  {k k' : κ} {group : List σ} {x : σ}

/-- A search finds the one element that passes its test. -/
theorem find?_eq_some_iff_of_unique {p : σ → Bool}
    (hunique : ∀ x ∈ group, ∀ y ∈ group, p x = true → p y = true → x = y) :
    group.find? p = some x ↔ x ∈ group ∧ p x = true := by
  constructor
  · intro hfind
    exact ⟨List.mem_of_find?_eq_some hfind, List.find?_some hfind⟩
  · rintro ⟨hx, hpx⟩
    cases hfind : group.find? p with
    | none => exact absurd hpx (List.find?_eq_none.mp hfind x hx)
    | some y =>
      rw [hunique y (List.mem_of_find?_eq_some hfind) x hx (List.find?_some hfind) hpx]

theorem mem_members : x ∈ members m ↔ ∃ k group, m.lookup k = some group ∧ x ∈ group := by
  simp only [members, List.mem_flatMap, Sigma.exists]
  constructor
  · rintro ⟨k, group, hmem, hx⟩
    exact ⟨k, group, AList.mem_lookup_iff.mpr hmem, hx⟩
  · rintro ⟨k, group, hlookup, hx⟩
    exact ⟨k, group, AList.mem_lookup_iff.mp hlookup, hx⟩

theorem lookup_setGroup_iff {group' : List σ} : (setGroup m k group).lookup k' = some group' ↔
    (k' = k ∧ group' = group ∧ group ≠ []) ∨ (k' ≠ k ∧ m.lookup k' = some group') := by
  cases group with
  | nil => simp [setGroup, lookup_erase_iff]
  | cons x xs => simp [setGroup, lookup_insert_iff]

namespace Grouped

theorem empty : Grouped key Q ∅ where
  nonempty h := by cases h
  key h := by cases h
  group h := by cases h

/-- An element is stored under its own key. -/
theorem mem_members (h : Grouped key Q m) :
    x ∈ members m ↔ ∃ group, m.lookup (key x) = some group ∧ x ∈ group := by
  rw [Core.mem_members]
  constructor
  · rintro ⟨k, group, hlookup, hx⟩
    refine ⟨group, ?_, hx⟩
    rw [h.key hlookup x hx]
    exact hlookup
  · rintro ⟨group, hlookup, hx⟩
    exact ⟨_, group, hlookup, hx⟩

/-- The elements with a key are the members with this key. -/
theorem mem_groupAt (h : Grouped key Q m) : x ∈ groupAt m k ↔ x ∈ members m ∧ key x = k := by
  rw [h.mem_members, groupAt]
  constructor
  · intro hx
    cases hlookup : m.lookup k with
    | none => simp [hlookup] at hx
    | some group =>
      rw [hlookup, Option.getD_some] at hx
      have hkey := h.key hlookup x hx
      rw [hkey]
      exact ⟨⟨group, hlookup, hx⟩, rfl⟩
  · rintro ⟨⟨group, hlookup, hx⟩, rfl⟩
    rw [hlookup, Option.getD_some]
    exact hx

theorem mem_group (h : Grouped key Q m) (hlookup : m.lookup k = some group) :
    x ∈ group ↔ x ∈ members m ∧ key x = k := by
  rw [← h.mem_groupAt, groupAt, hlookup, Option.getD_some]

theorem groupAt_spec (h : Grouped key Q m) (hnil : Q []) (k : κ) : Q (groupAt m k) := by
  unfold groupAt
  cases hlookup : m.lookup k with
  | none => exact hnil
  | some group => exact h.group hlookup

/-- Without a group there are no members with its key. -/
theorem key_ne (h : Grouped key Q m) (hlookup : m.lookup k = none) (hx : x ∈ members m) :
    key x ≠ k := by
  rintro rfl
  obtain ⟨group, hsome, -⟩ := h.mem_members.mp hx
  rw [hlookup] at hsome
  cases hsome

/-- Every element is stored once, if it is in its group. -/
theorem nodup (h : Grouped key Q m) (hQ : ∀ group, Q group → group.Nodup) :
    (members m).Nodup := by
  have hlookup : ∀ s ∈ m.entries, m.lookup s.1 = some s.2 :=
    fun s hs => AList.mem_lookup_iff.mpr hs
  unfold members
  rw [List.nodup_flatMap]
  refine ⟨fun s hs => hQ _ (h.group (hlookup s hs)), ?_⟩
  refine (List.nodupKeys_iff_pairwise.mp m.nodupKeys).imp_of_mem ?_
  intro s s' hs hs' hne x hx hx'
  apply hne
  rw [← h.key (hlookup s hs) x hx, h.key (hlookup s' hs') x hx']

/-- A group gets other elements with its key. -/
theorem set (h : Grouped key Q m) (hkey : ∀ x ∈ group, key x = k)
    (hQ : group ≠ [] → Q group) : Grouped key Q (setGroup m k group) where
  nonempty := by
    intro k' group' hlookup
    rcases lookup_setGroup_iff.mp hlookup with ⟨-, rfl, hne⟩ | ⟨-, hlookup⟩
    · exact hne
    · exact h.nonempty hlookup
  key := by
    intro k' group' hlookup
    rcases lookup_setGroup_iff.mp hlookup with ⟨rfl, rfl, -⟩ | ⟨-, hlookup⟩
    · exact hkey
    · exact h.key hlookup
  group := by
    intro k' group' hlookup
    rcases lookup_setGroup_iff.mp hlookup with ⟨-, rfl, hne⟩ | ⟨-, hlookup⟩
    · exact hQ hne
    · exact h.group hlookup

/-- The members after a group got other elements. -/
theorem mem_set (h : Grouped key Q m) :
    x ∈ members (setGroup m k group) ↔ x ∈ group ∨ (x ∈ members m ∧ key x ≠ k) := by
  rw [Core.mem_members, Core.mem_members]
  constructor
  · rintro ⟨k', group', hlookup, hx⟩
    rcases lookup_setGroup_iff.mp hlookup with ⟨-, rfl, -⟩ | ⟨hne, hlookup⟩
    · exact .inl hx
    · rw [← h.key hlookup x hx] at hne
      exact .inr ⟨⟨k', group', hlookup, hx⟩, hne⟩
  · rintro (hx | ⟨⟨k', group', hlookup, hx⟩, hne⟩)
    · exact ⟨k, group, lookup_setGroup_iff.mpr (.inl ⟨rfl, rfl, List.ne_nil_of_mem hx⟩), hx⟩
    · rw [h.key hlookup x hx] at hne
      exact ⟨k', group', lookup_setGroup_iff.mpr (.inr ⟨hne, hlookup⟩), hx⟩

/-- When a group keeps those of its elements that satisfy a test, so does the table. -/
theorem mem_filter (h : Grouped key Q m) (p : σ → Bool) :
    x ∈ members (setGroup m k ((groupAt m k).filter p)) ↔
      x ∈ members m ∧ (key x = k → p x = true) := by
  rw [h.mem_set, List.mem_filter, h.mem_groupAt]
  by_cases hkey : key x = k
  · simp [hkey]
  · simp [hkey]

/-- An element joins the group of its key. -/
theorem snoc (h : Grouped key Q m) (hQ : Q (groupAt m (key x) ++ [x])) :
    Grouped key Q (setGroup m (key x) (groupAt m (key x) ++ [x])) := by
  refine h.set ?_ fun _ => hQ
  intro y hy
  rcases List.mem_append.mp hy with hy | hy
  · exact (h.mem_groupAt.mp hy).2
  · rw [List.mem_singleton.mp hy]

/-- The members after an element joined the group of its key. -/
theorem mem_snoc (h : Grouped key Q m) {y : σ} :
    y ∈ members (setGroup m (key x) (groupAt m (key x) ++ [x])) ↔ y ∈ members m ∨ y = x := by
  rw [h.mem_set, List.mem_append, List.mem_singleton, h.mem_groupAt]
  by_cases hkey : key y = key x
  · simp [hkey]
  · simp [hkey, or_comm]

end Grouped

end PionTransport.Core
