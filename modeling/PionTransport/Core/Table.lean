import Mathlib.Data.List.AList

/-!
# Maps as association lists

What a lookup finds after an insertion or a removal, and what a search through
two parallel lists finds.
-/

namespace PionTransport.Core

variable {α β : Type*} [DecidableEq α] {m : AList fun _ : α => β} {a k : α} {b c : β}

theorem lookup_insert_iff :
    (m.insert a b).lookup k = some c ↔ (k = a ∧ c = b) ∨ (k ≠ a ∧ m.lookup k = some c) := by
  by_cases hk : k = a
  · subst hk
    simp [AList.lookup_insert, eq_comm]
  · simp [AList.lookup_insert_ne hk, hk]

theorem lookup_erase_eq : (m.erase a).lookup k = if k = a then none else m.lookup k := by
  by_cases hk : k = a
  · rw [if_pos hk, hk, AList.lookup_erase]
  · rw [if_neg hk, AList.lookup_erase_ne hk]

theorem lookup_erase_iff : (m.erase a).lookup k = some c ↔ k ≠ a ∧ m.lookup k = some c := by
  rw [lookup_erase_eq]
  split <;> simp [*]

/-- Insert entries one after the other. -/
def insertAll (m : AList fun _ : α => β) (entries : List (α × β)) : AList fun _ : α => β :=
  entries.foldl (fun m entry => m.insert entry.1 entry.2) m

variable {entries : List (α × β)}

theorem mem_insertAll :
    k ∈ insertAll m entries ↔ k ∈ entries.map Prod.fst ∨ k ∈ m := by
  induction entries generalizing m with
  | nil => simp [insertAll]
  | cons entry entries ih =>
    rw [insertAll, List.foldl_cons, ← insertAll, ih, AList.mem_insert, List.map_cons,
      List.mem_cons]
    tauto

/-- Of the entries with one key the last is found. -/
theorem lookup_insertAll_eq (m : AList fun _ : α => β) (entries : List (α × β)) (k : α) :
    (insertAll m entries).lookup k =
      ((entries.filter (·.1 = k)).getLast?.map Prod.snd).or (m.lookup k) := by
  induction entries generalizing m with
  | nil => simp [insertAll]
  | cons entry entries ih =>
    rw [insertAll, List.foldl_cons, ← insertAll, ih]
    by_cases hk : entry.1 = k
    · subst hk
      cases hlast : (entries.filter (·.1 = entry.1)).getLast? <;>
        simp [List.getLast?_cons, hlast, AList.lookup_insert]
    · simp [hk, AList.lookup_insert_ne (Ne.symm hk)]

/-- What is found was inserted, or was there and its key was not inserted. -/
theorem lookup_insertAll_mem (h : (insertAll m entries).lookup k = some c) :
    (k, c) ∈ entries ∨ (k ∉ entries.map Prod.fst ∧ m.lookup k = some c) := by
  rw [lookup_insertAll_eq] at h
  cases hlast : (entries.filter (·.1 = k)).getLast? with
  | some entry =>
    obtain ⟨hmem, hkey⟩ := List.mem_filter.mp (List.mem_of_getLast? hlast)
    rw [hlast] at h
    obtain rfl : entry.2 = c := Option.some.inj h
    rw [decide_eq_true_eq] at hkey
    rw [← hkey]
    exact Or.inl hmem
  | none =>
    rw [hlast] at h
    refine Or.inr ⟨fun hk => ?_, h⟩
    obtain ⟨entry, hentry, hkey⟩ := List.mem_map.mp hk
    rw [List.getLast?_eq_none_iff, List.filter_eq_nil_iff] at hlast
    exact hlast entry hentry (by simpa using hkey)

/-- With distinct keys every entry that was inserted is found. -/
theorem lookup_insertAll (hnodup : (entries.map Prod.fst).Nodup) :
    (insertAll m entries).lookup k = some c ↔
      (k, c) ∈ entries ∨ (k ∉ entries.map Prod.fst ∧ m.lookup k = some c) := by
  refine ⟨lookup_insertAll_mem, fun h => ?_⟩
  rw [lookup_insertAll_eq]
  rcases h with hentry | ⟨hnot, hold⟩
  · have hmem : (k, c) ∈ entries.filter (·.1 = k) := List.mem_filter.mpr ⟨hentry, by simp⟩
    cases hlast : (entries.filter (·.1 = k)).getLast? with
    | none =>
      rw [List.getLast?_eq_none_iff.mp hlast] at hmem
      cases hmem
    | some entry =>
      obtain ⟨hlater, hkey⟩ := List.mem_filter.mp (List.mem_of_getLast? hlast)
      rw [List.inj_on_of_nodup_map hnodup hlater hentry (by simpa using hkey)]
      rfl
  · have hnone : entries.filter (·.1 = k) = [] := by
      rw [List.filter_eq_nil_iff]
      intro entry hentry hkey
      exact hnot (List.mem_map.mpr ⟨entry, hentry, by simpa using hkey⟩)
    rw [hnone]
    exact hold

/-- As many keys as entries: the keys are distinct. -/
theorem nodup_of_length_insertAll (h : (insertAll ∅ entries).keys.length = entries.length) :
    (entries.map Prod.fst).Nodup := by
  have hsub : (insertAll ∅ entries).keys ⊆ entries.map Prod.fst := by
    intro k hk
    simpa using mem_insertAll.mp hk
  have hperm : (insertAll ∅ entries).keys.Perm (entries.map Prod.fst) :=
    (List.subperm_of_subset (AList.keys_nodup _) hsub).perm_of_length_le (by simp [h])
  exact hperm.nodup_iff.mp (AList.keys_nodup _)

variable {xs : List α}

/-- What stands beside the first occurrence of a value is paired with it. -/
theorem mem_zip_of_idxOf? {ys : List β} (h : ((xs.idxOf? k).bind fun i => ys[i]?) = some b) :
    (k, b) ∈ xs.zip ys := by
  obtain ⟨i, hi, hb⟩ := Option.bind_eq_some_iff.mp h
  obtain ⟨hlt, hk, -⟩ := List.findIdx?_eq_some_iff_getElem.mp hi
  rw [List.mem_iff_getElem?]
  refine ⟨i, List.getElem?_zip_eq_some.mpr ⟨?_, hb⟩⟩
  rw [List.getElem?_eq_getElem hlt, eq_of_beq hk]

theorem exists_idxOf?_of_mem {ys : List β} (hlength : xs.length = ys.length) (h : k ∈ xs) :
    ∃ b, ((xs.idxOf? k).bind fun i => ys[i]?) = some b := by
  cases hi : xs.idxOf? k with
  | none => exact absurd h (List.idxOf?_eq_none_iff.mp hi)
  | some i =>
    obtain ⟨hlt, -⟩ := List.findIdx?_eq_some_iff_getElem.mp hi
    rw [hlength] at hlt
    exact ⟨ys[i], List.getElem?_eq_getElem hlt⟩

omit [DecidableEq α] in
/-- The list of the values at some keys, beside the list of these keys. -/
theorem mem_zip_filterMap {f : α → Option β} (h : ∀ x ∈ xs, (f x).isSome) :
    (k, b) ∈ xs.zip (xs.filterMap f) ↔ k ∈ xs ∧ f k = some b := by
  induction xs with
  | nil => simp
  | cons x xs ih =>
    obtain ⟨y, hy⟩ := Option.isSome_iff_exists.mp (h x List.mem_cons_self)
    have hrest := ih fun x' hx' => h x' (List.mem_cons_of_mem x hx')
    rw [List.filterMap_cons_some hy, List.zip_cons_cons, List.mem_cons, hrest, Prod.mk.injEq,
      List.mem_cons]
    constructor
    · rintro (⟨rfl, rfl⟩ | ⟨hmem, hk⟩)
      · exact ⟨Or.inl rfl, hy⟩
      · exact ⟨Or.inr hmem, hk⟩
    · rintro ⟨rfl | hmem, hk⟩
      · exact Or.inl ⟨rfl, Option.some.inj (hk.symm.trans hy)⟩
      · exact Or.inr ⟨hmem, hk⟩

end PionTransport.Core
