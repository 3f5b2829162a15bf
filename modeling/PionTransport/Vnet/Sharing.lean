import Mathlib.Data.List.Nodup
import Mathlib.Data.List.Pairwise
import PionTransport.Core.Grouped
import PionTransport.Vnet.IP

/-!
# Sockets that share a port

A socket receives for its own address, or for every address if its own is
unspecified. Sockets of one port are apart if no address has two receivers: one
socket with an unspecified address is alone, or all have different specific ones.
A table of sockets by port keeps them apart by the rule of `insertSocket`.
-/

namespace PionTransport.Vnet

open PionTransport.Core

theorem IP.serves_self (ip : IP) : ip.serves ip = true := by
  rw [IP.serves, IP.equal_iff.mpr rfl, Bool.or_true]

variable {σ : Type} {addr : σ → IP} {xs : List σ} {x y : σ} {ip : IP}

/-- One socket with an unspecified address, or several with different specific ones. -/
def Apart (addr : σ → IP) (xs : List σ) : Prop :=
  (∃ x, xs = [x] ∧ (addr x).isUnspecified = true) ∨
    (∀ x ∈ xs, (addr x).isUnspecified = false) ∧
      xs.Pairwise fun x y => (addr x).equal (addr y) = false

namespace Apart

theorem nil : Apart addr [] := by
  refine .inr ⟨?_, List.Pairwise.nil⟩
  intro x hx
  cases hx

theorem singleton (x : σ) : Apart addr [x] := by
  cases hx : (addr x).isUnspecified with
  | true => exact .inl ⟨x, rfl, hx⟩
  | false =>
    refine .inr ⟨?_, List.pairwise_singleton _ x⟩
    intro y hy
    rw [List.mem_singleton.mp hy]
    exact hx

/-- Two sockets do not both receive what is sent to an address. -/
theorem unique (h : Apart addr xs) (hx : x ∈ xs) (hy : y ∈ xs)
    (hxip : (addr x).serves ip = true) (hyip : (addr y).serves ip = true) : x = y := by
  rcases h with ⟨z, rfl, -⟩ | ⟨hspecific, hpair⟩
  · rw [List.mem_singleton.mp hx, List.mem_singleton.mp hy]
  · by_contra hne
    have hequal : (addr x).equal (addr y) = true := by
      simp only [IP.serves, hspecific x hx, hspecific y hy, Bool.false_or,
        IP.equal_iff] at hxip hyip
      rw [IP.equal_iff, hxip, hyip]
    have hsymm : Std.Symm fun x y : σ => (addr x).equal (addr y) = false := by
      constructor
      intro x y h
      rw [IP.equal_comm]
      exact h
    rw [hpair.forall hx hy hne] at hequal
    cases hequal

/-- Two sockets with equal addresses are the same. -/
theorem eq_of_equal (h : Apart addr xs) (hx : x ∈ xs) (hy : y ∈ xs)
    (hequal : (addr x).equal (addr y) = true) : x = y := by
  refine h.unique hx hy ?_ (addr y).serves_self
  rw [IP.serves, hequal, Bool.or_true]

theorem nodup (h : Apart addr xs) : xs.Nodup := by
  rcases h with ⟨z, rfl, -⟩ | ⟨-, hpair⟩
  · exact List.nodup_singleton z
  · refine hpair.imp ?_
    rintro x y h rfl
    rw [IP.equal_iff.mpr rfl] at h
    cases h

/-- A socket with an unspecified address is alone. -/
theorem eq_of_unspecified (h : Apart addr xs) (hx : x ∈ xs)
    (hip : (addr x).isUnspecified = true) (hy : y ∈ xs) : y = x := by
  rcases h with ⟨z, rfl, -⟩ | ⟨hspecific, -⟩
  · rw [List.mem_singleton.mp hy, List.mem_singleton.mp hx]
  · rw [hspecific x hx] at hip
    cases hip

/-- Beside a specific address there are specific ones only. -/
theorem of_specific (h : Apart addr xs) (hx : x ∈ xs) (hip : (addr x).isUnspecified = false) :
    (∀ y ∈ xs, (addr y).isUnspecified = false) ∧
      xs.Pairwise fun x y => (addr x).equal (addr y) = false := by
  rcases h with ⟨z, rfl, hz⟩ | hspecific
  · rw [List.mem_singleton.mp hx, hz] at hip
    cases hip
  · exact hspecific

theorem sublist (h : Apart addr xs) {ys : List σ} (hsub : List.Sublist ys xs) : Apart addr ys := by
  rcases h with ⟨z, rfl, hz⟩ | ⟨hspecific, hpair⟩
  · cases ys with
    | nil => exact nil
    | cons y ys =>
      rw [hsub.eq_of_length_le (by simp)]
      exact singleton z
  · exact .inr ⟨fun y hy => hspecific y (hsub.subset hy), hpair.sublist hsub⟩

/-- A socket joins others exactly if its address is specific and none of them receives for it. -/
theorem snoc_iff (h : Apart addr xs) (hne : xs ≠ []) : Apart addr (xs ++ [x]) ↔
    (addr x).isUnspecified = false ∧ ∀ y ∈ xs, (addr y).serves (addr x) = false := by
  constructor
  · rintro (⟨z, hz, -⟩ | ⟨hspecific, hpair⟩)
    · have hlen := congrArg List.length hz
      have hpos := List.length_pos_iff.mpr hne
      simp only [List.length_append, List.length_singleton] at hlen
      omega
    · refine ⟨hspecific x (by simp), fun y hy => ?_⟩
      rw [IP.serves, hspecific y (List.mem_append_left _ hy), Bool.false_or]
      exact (List.pairwise_append.mp hpair).2.2 y hy x (List.mem_singleton_self x)
  · rintro ⟨hip, hfree⟩
    have hnone : ∀ y ∈ xs, (addr y).isUnspecified = false ∧ (addr y).equal (addr x) = false :=
      fun y hy => Bool.or_eq_false_iff.mp (hfree y hy)
    refine .inr ⟨?_, ?_⟩
    · intro y hy
      rcases List.mem_append.mp hy with hy | hy
      · exact (hnone y hy).1
      · rw [List.mem_singleton.mp hy]
        exact hip
    · rw [List.pairwise_append]
      refine ⟨?_, List.pairwise_singleton _ x, ?_⟩
      · rcases h with ⟨z, rfl, -⟩ | ⟨-, hpair⟩
        · exact List.pairwise_singleton _ z
        · exact hpair
      · intro y hy z hz
        rw [List.mem_singleton.mp hz]
        exact (hnone y hy).2

end Apart

/-- The rule by which the tables for UDP sockets and for TCP listeners take a socket. -/
def insertSocket (addr : σ → IP) (port : σ → Int) (portMap : AList fun _ : Int => List σ)
    (x : σ) : Option (AList fun _ : Int => List σ) :=
  match portMap.lookup (port x) with
  | some xs =>
    if (addr x).isUnspecified then none
    else if xs.any fun y => (addr y).serves (addr x) then none
    else some (portMap.insert (port x) (xs ++ [x]))
  | none => some (portMap.insert (port x) [x])

section Tables

variable {port : σ → Int} {m m' : AList fun _ : Int => List σ}

/-- A socket is refused exactly if it would not be apart from the others of its port. -/
theorem insertSocket_eq_none (h : Grouped port (Apart addr) m) :
    insertSocket addr port m x = none ↔ ¬ Apart addr (groupAt m (port x) ++ [x]) := by
  unfold insertSocket groupAt
  cases hlookup : m.lookup (port x) with
  | none => simpa using Apart.singleton x
  | some xs =>
    rw [Option.getD_some, (h.group hlookup).snoc_iff (h.nonempty hlookup)]
    cases hip : (addr x).isUnspecified with
    | true => simp
    | false =>
      simp only [Bool.false_eq_true, if_false, true_and]
      split
      next hany =>
        obtain ⟨y, hy, hserves⟩ := List.any_eq_true.mp hany
        simp only [true_iff]
        intro hfree
        rw [hfree y hy] at hserves
        cases hserves
      next hany =>
        simp only [reduceCtorEq, false_iff, not_not]
        intro y hy
        apply eq_false_of_ne_true
        intro hserves
        exact hany (List.any_eq_true.mpr ⟨y, hy, hserves⟩)

/-- A socket that is taken joins its port. -/
theorem insertSocket_eq_some (hok : insertSocket addr port m x = some m') :
    m' = setGroup m (port x) (groupAt m (port x) ++ [x]) := by
  unfold insertSocket at hok
  unfold setGroup groupAt
  cases hlookup : m.lookup (port x) with
  | none =>
    simp only [hlookup, Option.some.injEq] at hok
    simp [hok]
  | some xs =>
    simp only [hlookup] at hok
    split at hok
    · cases hok
    · split at hok
      · cases hok
      · simp only [Option.some.injEq] at hok
        simp [hok]

/-- A socket that is taken is a new member, and the sockets of every port are apart again. -/
theorem grouped_insertSocket (h : Grouped port (Apart addr) m)
    (hok : insertSocket addr port m x = some m') :
    Grouped port (Apart addr) m' ∧ ∀ y, y ∈ members m' ↔ y ∈ members m ∨ y = x := by
  have hapart : Apart addr (groupAt m (port x) ++ [x]) := by
    by_contra hnot
    rw [(insertSocket_eq_none h).mpr hnot] at hok
    cases hok
  rw [insertSocket_eq_some hok]
  exact ⟨h.snoc hapart, fun y => h.mem_snoc⟩

end Tables

end PionTransport.Vnet
