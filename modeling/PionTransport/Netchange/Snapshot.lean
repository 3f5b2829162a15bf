import Mathlib.Data.Finset.Basic
import Mathlib.Data.List.Sort
import Mathlib.Logic.Function.Basic

/-!
# Snapshots of the system interfaces

The detector keeps the last snapshot of the interfaces that pass its filter,
ordered by index, and reports how the next one differs from it. An interface is
known by its index, so a snapshot in which no index occurs twice is a finite map,
and the report names every index at which two such maps differ exactly once.
-/

namespace PionTransport.Netchange

/-- What is known of an interface; `π` are the address prefixes. -/
structure InterfaceState (π : Type) where
  index : Int
  name : String
  flags : Nat
  addrs : Finset π
  deriving DecidableEq

/-- How an interface has changed. -/
inductive ChangeType
  | added
  | removed
  | changed
  deriving DecidableEq, Repr

/-- One reported change. -/
structure Change where
  interface : String
  type : ChangeType
  deriving DecidableEq, Repr

variable {π : Type}

/-- The interfaces that pass the filter, by index. Sorting keeps the order of equal indices, as
`slices.SortFunc` does for short slices. -/
def normalize (interfaces : List (InterfaceState π)) (filter : Option (String → Bool)) :
    List (InterfaceState π) :=
  (interfaces.filter fun iface => filter.all fun f => f iface.name).insertionSort
    fun left right => left.index ≤ right.index

/-- The reference snapshot and the filter. -/
structure StateDetector (π : Type) where
  last : List (InterfaceState π) := []
  interfaceFilter : Option (String → Bool) := none

/-- The map from the indices to the interfaces of the last snapshot. -/
def previousMap (last : List (InterfaceState π)) : Int → Option (InterfaceState π) :=
  last.foldl (fun previous iface => Function.update previous iface.index (some iface)) fun _ => none

/-- The loop over the last snapshot: what is left of the map has been removed. -/
def removals (previous : Int → Option (InterfaceState π)) (last : List (InterfaceState π))
    (changes : List Change) : List Change :=
  last.foldl (fun changes iface =>
    if (previous iface.index).isSome then changes ++ [⟨iface.name, .removed⟩] else changes) changes

/-- The indices of a snapshot. -/
def indices (snapshot : List (InterfaceState π)) : List Int := snapshot.map (·.index)

/-- The interface that a snapshot has at an index. -/
def find (snapshot : List (InterfaceState π)) (k : Int) : Option (InterfaceState π) :=
  snapshot.find? (·.index == k)

section Find

variable {snapshot rest last next : List (InterfaceState π)} {iface a : InterfaceState π} {k : Int}

@[simp] theorem mem_indices_cons : k ∈ indices (a :: rest) ↔ k = a.index ∨ k ∈ indices rest := by
  simp [indices]

theorem nodup_indices_cons :
    (indices (a :: rest)).Nodup ↔ a.index ∉ indices rest ∧ (indices rest).Nodup :=
  List.nodup_cons

theorem index_mem (h : iface ∈ snapshot) : iface.index ∈ indices snapshot :=
  List.mem_map_of_mem h

theorem find_cons_self (h : a.index = k) : find (a :: rest) k = some a := by simp [find, h]

theorem find_cons_ne (h : a.index ≠ k) : find (a :: rest) k = find rest k := by simp [find, h]

theorem find_eq_none : find snapshot k = none ↔ k ∉ indices snapshot := by
  simp [find, indices]

/-- A snapshot without repeated indices has each of its interfaces at its index. -/
theorem find_eq_some (h : (indices snapshot).Nodup) :
    find snapshot k = some iface ↔ iface ∈ snapshot ∧ iface.index = k := by
  induction snapshot with
  | nil => simp [find]
  | cons a rest ih =>
    obtain ⟨hnotin, hrest⟩ := nodup_indices_cons.mp h
    by_cases ha : a.index = k
    · rw [find_cons_self ha]
      constructor
      · rintro ⟨⟩
        exact ⟨List.mem_cons_self, ha⟩
      · rintro ⟨hmem, hk⟩
        obtain rfl | hmem := List.mem_cons.mp hmem
        · rfl
        · exact absurd (hk.trans ha.symm ▸ index_mem hmem) hnotin
    · rw [find_cons_ne ha, ih hrest, List.mem_cons]
      constructor
      · rintro ⟨hmem, hk⟩
        exact ⟨.inr hmem, hk⟩
      · rintro ⟨rfl | hmem, hk⟩
        · exact absurd hk ha
        · exact ⟨hmem, hk⟩

/-- Later interfaces replace earlier ones in the map that the source builds. -/
theorem foldl_update_eq (h : (indices snapshot).Nodup) (m : Int → Option (InterfaceState π)) :
    snapshot.foldl (fun (previous : Int → Option (InterfaceState π)) iface =>
      Function.update previous iface.index (some iface)) m k = (find snapshot k).or (m k) := by
  induction snapshot generalizing m with
  | nil => rfl
  | cons a rest ih =>
    obtain ⟨hnotin, hrest⟩ := nodup_indices_cons.mp h
    rw [List.foldl_cons, ih hrest]
    by_cases ha : a.index = k
    · subst ha
      rw [find_cons_self rfl, find_eq_none.mpr hnotin, Function.update_self]
      rfl
    · rw [find_cons_ne ha, Function.update_of_ne (Ne.symm ha)]

/-- Without repeated indices that map is the snapshot as a map. -/
theorem previousMap_eq_find (h : (indices snapshot).Nodup) :
    previousMap snapshot = find snapshot := by
  funext k
  rw [previousMap, foldl_update_eq h, Option.or_none]

theorem removals_eq (previous : Int → Option (InterfaceState π)) (changes : List Change) :
    removals previous snapshot changes = changes ++
      (snapshot.filter fun iface => (previous iface.index).isSome).map fun iface =>
        ⟨iface.name, .removed⟩ := by
  induction snapshot generalizing changes with
  | nil => simp [removals]
  | cons a rest ih =>
    rw [removals, List.foldl_cons, ← removals, ih]
    by_cases ha : (previous a.index).isSome = true <;> simp [ha]

/-- The indices that a report goes through, in its order. -/
def reported (last next : List (InterfaceState π)) : List Int :=
  indices next ++ (indices last).filter fun k => k ∉ indices next

theorem mem_reported :
    k ∈ reported last next ↔ k ∈ indices last ∨ k ∈ indices next := by
  simp only [reported, List.mem_append, List.mem_filter, decide_eq_true_eq]
  tauto

theorem nodup_reported (hlast : (indices last).Nodup) (hnext : (indices next).Nodup) :
    (reported last next).Nodup := by
  refine List.nodup_append.mpr ⟨hnext, hlast.filter _, ?_⟩
  rintro k hk _ hk' rfl
  simp only [List.mem_filter, decide_eq_true_eq] at hk'
  exact hk'.2 hk

end Find

section Update

variable [DecidableEq π]

/-- What a step of the loop over the next snapshot appends to the changes. -/
def entry (before : Option (InterfaceState π)) (iface : InterfaceState π) : Option Change :=
  match before with
  | none => some ⟨iface.name, .added⟩
  | some before =>
    if before.name ≠ iface.name ∨ before.flags ≠ iface.flags ∨ before.addrs ≠ iface.addrs then
      some ⟨iface.name, .changed⟩
    else none

/-- One step of that loop. -/
def compareNext (acc : (Int → Option (InterfaceState π)) × List Change)
    (iface : InterfaceState π) : (Int → Option (InterfaceState π)) × List Change :=
  (Function.update acc.1 iface.index none, acc.2 ++ (entry (acc.1 iface.index) iface).toList)

/-- Replace the last snapshot and report the changes. -/
def StateDetector.update (d : StateDetector π) (next : List (InterfaceState π)) :
    StateDetector π × List Change :=
  let next := normalize next d.interfaceFilter
  let acc := next.foldl compareNext (previousMap d.last, [])
  ({ d with last := next }, removals acc.1 d.last acc.2)

/-- How two snapshots differ at an index. -/
def changeAt (before after : List (InterfaceState π)) (k : Int) : Option Change :=
  match find before k, find after k with
  | none, none => none
  | none, some iface => some ⟨iface.name, .added⟩
  | some iface, none => some ⟨iface.name, .removed⟩
  | some old, some new => if old = new then none else some ⟨new.name, .changed⟩

/-- The changes name each index at which the snapshots differ once, and no other. -/
def Differs (before after : List (InterfaceState π)) (changes : List Change) : Prop :=
  ∃ ks : List Int, ks.Nodup ∧ (∀ k, k ∈ ks ↔ k ∈ indices before ∨ k ∈ indices after) ∧
    changes = ks.filterMap (changeAt before after)

variable {last next : List (InterfaceState π)} {iface : InterfaceState π}

/-- The loop over the next snapshot. -/
theorem foldl_compareNext (h : (indices next).Nodup)
    (previous : Int → Option (InterfaceState π)) (changes : List Change) :
    next.foldl compareNext (previous, changes) =
      (fun k => if k ∈ indices next then none else previous k,
        changes ++ next.filterMap fun iface => entry (previous iface.index) iface) := by
  induction next generalizing previous changes with
  | nil => simp [indices]
  | cons a rest ih =>
    obtain ⟨hnotin, hrest⟩ := nodup_indices_cons.mp h
    rw [List.foldl_cons, compareNext, ih hrest]
    congr 1
    · funext k
      by_cases ha : k = a.index
      · simp [ha]
      · simp [ha]
    · have hcongr : (rest.filterMap fun iface =>
          entry (Function.update previous a.index none iface.index) iface) =
            rest.filterMap fun iface => entry (previous iface.index) iface := by
        refine List.filterMap_congr fun iface hiface => ?_
        rw [Function.update_of_ne]
        intro hi
        exact hnotin (hi ▸ index_mem hiface)
      rw [hcongr]
      cases hentry : entry (previous a.index) a <;> simp [hentry]

/-- An interface of the next snapshot is reported as the snapshots differ at its index. -/
theorem entry_eq_changeAt (hnext : (indices next).Nodup) (hi : iface ∈ next)
    (hlast : (indices last).Nodup) :
    entry (find last iface.index) iface = changeAt last next iface.index := by
  have hfind : find next iface.index = some iface := (find_eq_some hnext).mpr ⟨hi, rfl⟩
  cases hold : find last iface.index with
  | none => simp [entry, changeAt, hold, hfind]
  | some old =>
    have hindex := ((find_eq_some hlast).mp hold).2
    have heq : old = iface ↔
        old.name = iface.name ∧ old.flags = iface.flags ∧ old.addrs = iface.addrs := by
      constructor
      · rintro rfl
        exact ⟨rfl, rfl, rfl⟩
      · rintro ⟨hn, hf, ha⟩
        obtain ⟨_, _, _, _⟩ := old
        obtain ⟨_, _, _, _⟩ := iface
        simp_all
    by_cases h : old = iface
    · simp [entry, changeAt, hold, hfind, h]
    · have hne : old.name ≠ iface.name ∨ old.flags ≠ iface.flags ∨ old.addrs ≠ iface.addrs := by
        by_contra hno
        push Not at hno
        exact h (heq.mpr hno)
      simp [entry, changeAt, hold, hfind, h, hne]

/-- An interface that only the last snapshot has is reported as removed. -/
theorem changeAt_removed (hlast : (indices last).Nodup) (hi : iface ∈ last)
    (hnext : iface.index ∉ indices next) :
    changeAt last next iface.index = some ⟨iface.name, .removed⟩ := by
  have hfind : find last iface.index = some iface := (find_eq_some hlast).mpr ⟨hi, rfl⟩
  simp [changeAt, hfind, find_eq_none.mpr hnext]

/-- The first loop reports the indices of the next snapshot. -/
theorem filterMap_entry (hlast : (indices last).Nodup) (hnext : (indices next).Nodup) :
    (next.filterMap fun iface => entry (find last iface.index) iface) =
      (indices next).filterMap (changeAt last next) := by
  rw [indices, List.filterMap_map]
  exact List.filterMap_congr fun iface hi => entry_eq_changeAt hnext hi hlast

/-- The second loop reports the indices that only the last snapshot has. -/
theorem map_removed (hlast : (indices last).Nodup) :
    ((last.filter fun iface =>
      (if iface.index ∈ indices next then none else find last iface.index).isSome).map
        fun iface => (⟨iface.name, .removed⟩ : Change)) =
      ((indices last).filter fun k => k ∉ indices next).filterMap (changeAt last next) := by
  have hfilter : (last.filter fun iface =>
      (if iface.index ∈ indices next then none else find last iface.index).isSome) =
        last.filter fun iface => decide (iface.index ∉ indices next) := by
    refine List.filter_congr fun iface hi => ?_
    have hfind : find last iface.index = some iface := (find_eq_some hlast).mpr ⟨hi, rfl⟩
    by_cases hk : iface.index ∈ indices next <;> simp [hk, hfind]
  have hindices : ((indices last).filter fun k => k ∉ indices next) =
      (last.filter fun iface => decide (iface.index ∉ indices next)).map (·.index) :=
    List.filter_map
  rw [hfilter, hindices, List.filterMap_map, ← List.filterMap_eq_map]
  refine List.filterMap_congr fun iface hi => ?_
  obtain ⟨hmem, hk⟩ := List.mem_filter.mp hi
  exact (changeAt_removed hlast hmem (by simpa using hk)).symm

/-- The report of an update goes through every index of the two snapshots once. -/
theorem StateDetector.update_changes (d : StateDetector π) (interfaces : List (InterfaceState π))
    (hlast : (indices d.last).Nodup)
    (hnext : (indices (normalize interfaces d.interfaceFilter)).Nodup) :
    (d.update interfaces).2 =
      (reported d.last (normalize interfaces d.interfaceFilter)).filterMap
        (changeAt d.last (normalize interfaces d.interfaceFilter)) := by
  rw [StateDetector.update, previousMap_eq_find hlast, foldl_compareNext hnext, removals_eq,
    List.nil_append, filterMap_entry hlast hnext, map_removed hlast, reported,
    List.filterMap_append]

/-- No index at which the snapshots differ: they are the same map. -/
theorem changeAt_eq_none {k : Int} : changeAt last next k = none ↔ find last k = find next k := by
  cases hl : find last k <;> cases hn : find next k <;> simp [changeAt, hl, hn]

end Update

section Normal

variable {interfaces last next : List (InterfaceState π)}

/-- Ordered by index, with no index repeated. -/
def Normal (snapshot : List (InterfaceState π)) : Prop :=
  snapshot.Pairwise fun left right => left.index < right.index

theorem Normal.nodup (h : Normal next) : (indices next).Nodup :=
  (List.pairwise_map.mpr h).imp ne_of_lt

/-- A snapshot whose filtered interfaces have distinct indices is normal once it is sorted. -/
theorem normal_normalize {filter : Option (String → Bool)}
    (h : (indices (normalize interfaces filter)).Nodup) : Normal (normalize interfaces filter) := by
  have hsorted : (normalize interfaces filter).Pairwise fun left right =>
      left.index ≤ right.index := List.pairwise_insertionSort _ _
  have hne : (normalize interfaces filter).Pairwise fun left right => left.index ≠ right.index :=
    List.pairwise_map.mp h
  exact (hsorted.and hne).imp fun ⟨hle, hne⟩ => lt_of_le_of_ne hle hne

/-- Two normal snapshots that are the same map are the same list. -/
theorem Normal.ext (hlast : Normal last) (hnext : Normal next)
    (h : ∀ k, find last k = find next k) : last = next := by
  have hmem : ∀ iface, iface ∈ last ↔ iface ∈ next := by
    intro iface
    constructor
    · intro hi
      have hfind : find last iface.index = some iface :=
        (find_eq_some hlast.nodup).mpr ⟨hi, rfl⟩
      exact ((find_eq_some hnext.nodup).mp ((h _).symm.trans hfind)).1
    · intro hi
      have hfind : find next iface.index = some iface :=
        (find_eq_some hnext.nodup).mpr ⟨hi, rfl⟩
      exact ((find_eq_some hlast.nodup).mp ((h _).trans hfind)).1
  have hperm : last.Perm next :=
    (List.perm_ext_iff_of_nodup hlast.nodup.of_map hnext.nodup.of_map).mpr hmem
  exact hperm.eq_of_pairwise
    (fun _ _ _ _ hab hba => absurd (lt_trans hab hba) (lt_irrefl _)) hlast hnext

variable [DecidableEq π]

/-- An update from a normal snapshot to another: the report is the difference, and it is empty
only if nothing has changed. -/
theorem StateDetector.update_spec (d : StateDetector π) (interfaces : List (InterfaceState π))
    (hlast : Normal d.last)
    (hnext : (indices (normalize interfaces d.interfaceFilter)).Nodup) :
    Differs d.last (normalize interfaces d.interfaceFilter) (d.update interfaces).2 ∧
      ((d.update interfaces).2 = [] → normalize interfaces d.interfaceFilter = d.last) := by
  have hchanges := d.update_changes interfaces hlast.nodup hnext
  refine ⟨⟨_, nodup_reported hlast.nodup hnext, fun _ => mem_reported, hchanges⟩, fun hnil => ?_⟩
  rw [hchanges, List.filterMap_eq_nil_iff] at hnil
  refine ((hlast.ext (normal_normalize hnext)) fun k => ?_).symm
  by_cases hk : k ∈ reported d.last (normalize interfaces d.interfaceFilter)
  · exact changeAt_eq_none.mp (hnil k hk)
  · rw [mem_reported, not_or] at hk
    rw [find_eq_none.mpr hk.1, find_eq_none.mpr hk.2]

end Normal

end PionTransport.Netchange
