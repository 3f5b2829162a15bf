import Mathlib.Data.Finset.Dedup
import Mathlib.Data.List.Forall2
import Mathlib.Data.List.Perm.Basic
import PionTransport.Netchange.Snapshot

/-!
# The report is the difference of two enumerations

An enumeration seen through the filter is a map from indices to interfaces. The
report of `update` is the difference of the two maps, whatever the order of the
interfaces and of their addresses, and an interface whose new name crosses the
filter comes or goes.
-/

namespace PionTransport.Netchange

variable {π : Type}

/-- `transport.Interface`, with the texts of its addresses. -/
structure Interface where
  index : Int
  name : String
  flags : Nat
  addrs : List String
  deriving DecidableEq, Repr

/-- The error of `interfaceStates` for an address that does not parse. -/
structure ParseError where
  name : String
  deriving DecidableEq, Repr

/-- The text of the error, before that of its cause. -/
def ParseError.string (err : ParseError) : String := "parse address for " ++ err.name

/-- The state of one interface; `Addrs` has an error for no addresses, which is no prefixes. -/
def interfaceState [DecidableEq π] (parsePrefix : String → Option π) (iface : Interface) :
    Except ParseError (InterfaceState π) :=
  if iface.addrs.all fun address => (parsePrefix address).isSome then
    .ok ⟨iface.index, iface.name, iface.flags, (iface.addrs.filterMap parsePrefix).toFinset⟩
  else .error ⟨iface.name⟩

/-- `interfaceStates`. -/
def interfaceStates [DecidableEq π] (parsePrefix : String → Option π) :
    List Interface → Except ParseError (List (InterfaceState π))
  | [] => .ok []
  | iface :: interfaces =>
    match interfaceState parsePrefix iface with
    | .error err => .error err
    | .ok next => (interfaceStates parsePrefix interfaces).map (next :: ·)

/-- The same interface, with its addresses in another order. -/
def Interface.Same (a b : Interface) : Prop :=
  a.index = b.index ∧ a.name = b.name ∧ a.flags = b.flags ∧ a.addrs.Perm b.addrs

/-- The interface that a snapshot shows at an index through a filter. -/
def visible (filter : Option (String → Bool)) (snapshot : List (InterfaceState π)) (k : Int) :
    Option (InterfaceState π) :=
  (find snapshot k).filter fun iface => filter.all fun f => f iface.name

/-- What is reported of an index, by what two snapshots show there. -/
def difference [DecidableEq π] : Option (InterfaceState π) → Option (InterfaceState π) →
    Option Change
  | none, none => none
  | none, some new => some ⟨new.name, .added⟩
  | some old, none => some ⟨old.name, .removed⟩
  | some old, some new =>
    if old.name ≠ new.name ∨ old.flags ≠ new.flags ∨ old.addrs ≠ new.addrs then
      some ⟨new.name, .changed⟩
    else none

section Filtering

variable {filter : Option (String → Bool)} {snapshot snapshot' : List (InterfaceState π)}
  {iface old new : InterfaceState π} {k : Int}

theorem normalize_perm : (normalize snapshot filter).Perm
    (snapshot.filter fun iface => filter.all fun f => f iface.name) :=
  List.perm_insertionSort _ _

theorem nodup_normalize (h : (indices snapshot).Nodup) :
    (indices (normalize snapshot filter)).Nodup := by
  refine (normalize_perm.map InterfaceState.index).nodup_iff.mpr (h.sublist ?_)
  exact List.filter_sublist.map InterfaceState.index

/-- The sorted snapshot is the enumeration seen through the filter. -/
theorem find_normalize (h : (indices snapshot).Nodup) :
    find (normalize snapshot filter) k = visible filter snapshot k := by
  ext iface
  rw [find_eq_some (nodup_normalize h), normalize_perm.mem_iff, List.mem_filter, visible,
    Option.filter_eq_some_iff, find_eq_some h]
  tauto

theorem find_perm (hperm : snapshot'.Perm snapshot) (h : (indices snapshot).Nodup) :
    find snapshot' k = find snapshot k := by
  have h' : (indices snapshot').Nodup := (hperm.map InterfaceState.index).nodup_iff.mpr h
  ext iface
  rw [find_eq_some h', find_eq_some h, hperm.mem_iff]

/-- The order of an enumeration is lost when it is sorted. -/
theorem normalize_eq_of_perm (hperm : snapshot'.Perm snapshot) (h : (indices snapshot).Nodup) :
    normalize snapshot' filter = normalize snapshot filter := by
  have h' : (indices snapshot').Nodup := (hperm.map InterfaceState.index).nodup_iff.mpr h
  refine (normal_normalize (nodup_normalize h')).ext (normal_normalize (nodup_normalize h))
    fun k => ?_
  rw [find_normalize h', find_normalize h, visible, visible, find_perm hperm h]

theorem visible_index (h : (indices snapshot).Nodup)
    (hiface : visible filter snapshot k = some iface) : iface.index = k := by
  rw [visible, Option.filter_eq_some_iff, find_eq_some h] at hiface
  exact hiface.1.2

theorem visible_of_find {f : String → Bool} (h : find snapshot k = some iface) :
    visible (some f) snapshot k = if f iface.name then some iface else none := by
  rw [visible, h]
  rfl

/-- The report goes through the indices at which something is shown. -/
theorem mem_reported_normalize (hprevious : (indices snapshot).Nodup)
    (hnext : (indices snapshot').Nodup) :
    k ∈ reported (normalize snapshot filter) (normalize snapshot' filter) ↔
      (visible filter snapshot k).isSome = true ∨ (visible filter snapshot' k).isSome = true := by
  rw [mem_reported, ← find_normalize hprevious, ← find_normalize hnext,
    Option.isSome_iff_ne_none, Option.isSome_iff_ne_none, Ne, Ne, find_eq_none, find_eq_none,
    not_not, not_not]

variable [DecidableEq π]

/-- Interfaces with one index differ if one of the other fields does. -/
theorem difference_some (hindex : old.index = new.index) : difference (some old) (some new) =
    if old = new then none else some ⟨new.name, .changed⟩ := by
  obtain ⟨_, _, _, _⟩ := old
  obtain ⟨_, _, _, _⟩ := new
  subst hindex
  simp only [difference, InterfaceState.mk.injEq, true_and]
  split
  next hne =>
    rw [if_neg]
    rintro ⟨hname, hflags, haddrs⟩
    simp [hname, hflags, haddrs] at hne
  next heq =>
    push Not at heq
    rw [if_pos heq]

/-- Two sorted snapshots differ at an index as what they show there. -/
theorem changeAt_normalize (hprevious : (indices snapshot).Nodup)
    (hnext : (indices snapshot').Nodup) :
    changeAt (normalize snapshot filter) (normalize snapshot' filter) k =
      difference (visible filter snapshot k) (visible filter snapshot' k) := by
  rw [changeAt, find_normalize hprevious, find_normalize hnext]
  cases hold : visible filter snapshot k with
  | none => cases visible filter snapshot' k <;> rfl
  | some old =>
    cases hnew : visible filter snapshot' k with
    | none => rfl
    | some new =>
      rw [difference_some]
      rw [visible_index hprevious hold, visible_index hnext hnew]

theorem difference_visible_eq_none (hprevious : (indices snapshot).Nodup)
    (hnext : (indices snapshot').Nodup) :
    difference (visible filter snapshot k) (visible filter snapshot' k) = none ↔
      visible filter snapshot k = visible filter snapshot' k := by
  rw [← changeAt_normalize hprevious hnext, changeAt_eq_none, find_normalize hprevious,
    find_normalize hnext]

end Filtering

section Updates

variable [DecidableEq π] (d : StateDetector π) {previous next : List (InterfaceState π)}

/-- The report of an update after another one. -/
theorem update_update_changes (hprevious : (indices previous).Nodup)
    (hnext : (indices next).Nodup) :
    ((d.update previous).1.update next).2 =
      (reported (normalize previous d.interfaceFilter)
        (normalize next d.interfaceFilter)).filterMap fun k =>
          difference (visible d.interfaceFilter previous k)
            (visible d.interfaceFilter next k) := by
  have hchanges := (d.update previous).1.update_changes next (nodup_normalize hprevious)
    (nodup_normalize hnext)
  rw [hchanges]
  refine List.filterMap_congr fun k _ => ?_
  exact changeAt_normalize hprevious hnext

/-- Whatever differs is reported. -/
theorem mem_changes_of_difference (hprevious : (indices previous).Nodup)
    (hnext : (indices next).Nodup) {k : Int} {c : Change}
    (h : difference (visible d.interfaceFilter previous k) (visible d.interfaceFilter next k) =
      some c) : c ∈ ((d.update previous).1.update next).2 := by
  rw [update_update_changes d hprevious hnext]
  refine List.mem_filterMap.mpr ⟨k, (mem_reported_normalize hprevious hnext).mpr ?_, h⟩
  cases hold : visible d.interfaceFilter previous k with
  | some old => exact Or.inl rfl
  | none =>
    cases hnew : visible d.interfaceFilter next k with
    | some new => exact Or.inr rfl
    | none =>
      rw [hold, hnew] at h
      cases h

theorem changes_eq_nil_iff (hprevious : (indices previous).Nodup)
    (hnext : (indices next).Nodup) :
    ((d.update previous).1.update next).2 = [] ↔
      ∀ k, visible d.interfaceFilter previous k = visible d.interfaceFilter next k := by
  rw [update_update_changes d hprevious hnext, List.filterMap_eq_nil_iff]
  constructor
  · intro hall k
    by_cases hk : k ∈ reported (normalize previous d.interfaceFilter)
        (normalize next d.interfaceFilter)
    · exact (difference_visible_eq_none hprevious hnext).mp (hall k hk)
    · rw [mem_reported_normalize hprevious hnext, not_or, Option.not_isSome_iff_eq_none,
        Option.not_isSome_iff_eq_none] at hk
      rw [hk.1, hk.2]
  · intro hall k _
    exact (difference_visible_eq_none hprevious hnext).mpr (hall k)

/-- The order of the enumerations does not matter. -/
theorem update_update_perm (hprevious : (indices previous).Nodup) (hnext : (indices next).Nodup)
    {previous' next' : List (InterfaceState π)} (hperm : previous'.Perm previous)
    (hperm' : next'.Perm next) :
    (d.update previous').1.update next' = (d.update previous).1.update next := by
  simp only [StateDetector.update, normalize_eq_of_perm hperm hprevious,
    normalize_eq_of_perm hperm' hnext]

end Updates

section Enumeration

variable [DecidableEq π] {parsePrefix : String → Option π} {xs ys zs : List Interface}
  {states : List (InterfaceState π)}

/-- The order of the addresses is lost in their set. -/
theorem interfaceState_same {a b : Interface} (h : a.Same b) :
    interfaceState parsePrefix a = interfaceState parsePrefix b := by
  obtain ⟨hindex, hname, hflags, hperm⟩ := h
  have hall : (a.addrs.all fun address => (parsePrefix address).isSome) =
      b.addrs.all fun address => (parsePrefix address).isSome := hperm.all_eq
  unfold interfaceState
  rw [hindex, hname, hflags, hall, List.toFinset_eq_of_perm _ _ (hperm.filterMap parsePrefix)]

theorem interfaceStates_same (h : List.Forall₂ Interface.Same xs ys) :
    interfaceStates parsePrefix xs = interfaceStates parsePrefix ys := by
  induction h with
  | nil => rfl
  | cons hsame _ ih => rw [interfaceStates, interfaceStates, interfaceState_same hsame, ih]

theorem interfaceStates_eq_ok : interfaceStates parsePrefix xs = .ok states ↔
    List.Forall₂ (fun iface state => interfaceState parsePrefix iface = .ok state) xs states := by
  induction xs generalizing states with
  | nil => simp [interfaceStates, eq_comm]
  | cons iface xs ih =>
    rw [interfaceStates, List.forall₂_cons_left_iff]
    cases hstate : interfaceState parsePrefix iface with
    | error err => simp
    | ok next =>
      cases hrest : interfaceStates parsePrefix xs with
      | error err =>
        simp only [hrest, reduceCtorEq, false_iff] at ih
        simp [Except.map, ih]
      | ok rest =>
        simp only [hrest, Except.ok.injEq] at ih
        simp only [Except.map, Except.ok.injEq, exists_and_left, ← ih]
        constructor
        · rintro rfl
          exact ⟨next, rfl, rest, rfl, rfl⟩
        · rintro ⟨_, rfl, _, rfl, rfl⟩
          rfl

/-- Interfaces and addresses in another order give the same states in another order. -/
theorem interfaceStates_reordered (hperm : xs.Perm zs) (hsame : List.Forall₂ Interface.Same zs ys)
    (hstates : interfaceStates parsePrefix xs = .ok states) :
    ∃ states', interfaceStates parsePrefix ys = .ok states' ∧ states'.Perm states := by
  obtain ⟨states', hzs, hstates'⟩ :=
    List.perm_comp_forall₂ hperm.symm (interfaceStates_eq_ok.mp hstates)
  refine ⟨states', ?_, hstates'⟩
  rw [← interfaceStates_same hsame]
  exact interfaceStates_eq_ok.mpr hzs

end Enumeration

/-- For every filter and every two enumerations with distinct indices, the first the last one of a
detector: after an update the last snapshot is the filtered enumeration, sorted by index; the report
goes once through the indices that are shown before or after, with what has changed there and
nothing else; an interface that is renamed across the filter has come or gone; the report is empty
exactly if the same is shown at every index; and neither the order of the interfaces nor that of
their addresses matters. -/
theorem update_reports_difference (d : StateDetector π) [DecidableEq π]
    (previous next : List (InterfaceState π)) (hprevious : (indices previous).Nodup)
    (hnext : (indices next).Nodup) :
    ∃ d₁ d₂ changes, d₁ = (d.update previous).1 ∧ d₁.update next = (d₂, changes) ∧
      (d₂.last.Pairwise fun left right => left.index < right.index) ∧
      d₂.last.Perm (next.filter fun iface => d.interfaceFilter.all fun f => f iface.name) ∧
      (∃ ks : List Int, ks.Nodup ∧
        (∀ k, k ∈ ks ↔ (visible d.interfaceFilter previous k).isSome = true ∨
          (visible d.interfaceFilter next k).isSome = true) ∧
        changes = ks.filterMap fun k =>
          difference (visible d.interfaceFilter previous k) (visible d.interfaceFilter next k)) ∧
      (∀ f old new, d.interfaceFilter = some f → old ∈ previous → new ∈ next →
        old.index = new.index →
        (f old.name = false → f new.name = true → ⟨new.name, .added⟩ ∈ changes) ∧
        (f old.name = true → f new.name = false → ⟨old.name, .removed⟩ ∈ changes)) ∧
      (changes = [] ↔
        ∀ k, visible d.interfaceFilter previous k = visible d.interfaceFilter next k) ∧
      (∀ previous' next', previous'.Perm previous → next'.Perm next →
        (d.update previous').1.update next' = (d₂, changes)) ∧
      ∀ parsePrefix xs zs ys, interfaceStates parsePrefix xs = .ok next → xs.Perm zs →
        List.Forall₂ Interface.Same zs ys → ∃ next', interfaceStates parsePrefix ys = .ok next' ∧
          d₁.update next' = (d₂, changes) := by
  refine ⟨_, ((d.update previous).1.update next).1, ((d.update previous).1.update next).2, rfl, rfl,
    normal_normalize (nodup_normalize hnext), normalize_perm,
    ⟨_, nodup_reported (nodup_normalize hprevious) (nodup_normalize hnext),
      fun k => mem_reported_normalize hprevious hnext, update_update_changes d hprevious hnext⟩,
    ?_, changes_eq_nil_iff d hprevious hnext,
    fun _ _ hperm hperm' => update_update_perm d hprevious hnext hperm hperm', ?_⟩
  · intro f old new hf hold hnew hindex
    have hfind : find previous old.index = some old := (find_eq_some hprevious).mpr ⟨hold, rfl⟩
    have hfind' : find next old.index = some new :=
      (find_eq_some hnext).mpr ⟨hnew, hindex.symm⟩
    constructor
    · intro hhidden hshown
      refine mem_changes_of_difference d hprevious hnext (k := old.index) ?_
      rw [hf, visible_of_find hfind, visible_of_find hfind', hhidden, if_pos hshown]
      rfl
    · intro hshown hhidden
      refine mem_changes_of_difference d hprevious hnext (k := old.index) ?_
      rw [hf, visible_of_find hfind, visible_of_find hfind', hhidden, if_pos hshown]
      rfl
  · intro parsePrefix xs zs ys hstates hperm hsame
    obtain ⟨next', hnext', hperm'⟩ := interfaceStates_reordered hperm hsame hstates
    exact ⟨next', hnext', update_update_perm d hprevious hnext (.refl previous) hperm'⟩

/-- The Ethernet interfaces of an example. -/
def ethernet : StateDetector Nat where
  interfaceFilter := some fun name => name ∈ ["eth0", "eth1", "eth2"]

/-- `eth0` gets an address, `eth1` is renamed to `wlan1` and `wlan2` to `eth2`. -/
theorem update_reports_renaming : ∃ d₁ d₂ changes,
    d₁ = (ethernet.update [⟨2, "wlan2", 0, ∅⟩, ⟨0, "eth0", 0, ∅⟩, ⟨1, "eth1", 0, ∅⟩]).1 ∧
    d₁.update [⟨1, "wlan1", 0, ∅⟩, ⟨2, "eth2", 0, ∅⟩, ⟨0, "eth0", 0, {7}⟩] = (d₂, changes) ∧
    (d₂.last.Pairwise fun left right => left.index < right.index) ∧
    changes = [⟨"eth0", .changed⟩, ⟨"eth2", .added⟩, ⟨"eth1", .removed⟩] := by
  obtain ⟨d₁, d₂, changes, hd₁, hupdate, hsorted, -⟩ := update_reports_difference ethernet
    [⟨2, "wlan2", 0, ∅⟩, ⟨0, "eth0", 0, ∅⟩, ⟨1, "eth1", 0, ∅⟩]
    [⟨1, "wlan1", 0, ∅⟩, ⟨2, "eth2", 0, ∅⟩, ⟨0, "eth0", 0, {7}⟩] (by decide) (by decide)
  refine ⟨d₁, d₂, changes, hd₁, hupdate, hsorted, ?_⟩
  have hchanges := congrArg Prod.snd hupdate
  rw [hd₁] at hchanges
  refine hchanges.symm.trans ?_
  decide +kernel

end PionTransport.Netchange
