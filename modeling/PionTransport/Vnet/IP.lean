import Mathlib.Data.List.Basic

/-!
# IP addresses of both families

`net.IP` is a slice of bytes: four for IPv4, sixteen for IPv6, or sixteen for an
IPv4 address behind a fixed prefix. `equal` identifies the two forms of an IPv4
address, so it compares canonical forms.
-/

namespace PionTransport.Vnet

/-- `net.IP`. -/
structure IP where
  bytes : List UInt8
  deriving DecidableEq, Repr

/-- The bytes in front of an IPv4 address of sixteen bytes. -/
def v4InV6Prefix : List UInt8 := [0, 0, 0, 0, 0, 0, 0, 0, 0, 0, 0xff, 0xff]

namespace IP

/-- `net.IPv4`. -/
def v4 (a b c d : UInt8) : IP := ⟨v4InV6Prefix ++ [a, b, c, d]⟩

/-- `net.IPv4zero`. -/
def v4zero : IP := v4 0 0 0 0

/-- `net.IPv6unspecified`. -/
def v6unspecified : IP := ⟨List.replicate 16 0⟩

/-- `net.IPv6loopback`. -/
def v6loopback : IP := ⟨List.replicate 15 0 ++ [1]⟩

/-- An IPv4 address of sixteen bytes. -/
def Mapped (ip : IP) : Prop := ip.bytes.length = 16 ∧ ip.bytes.take 12 = v4InV6Prefix

instance (ip : IP) : Decidable ip.Mapped := by
  unfold Mapped
  infer_instance

/-- `To4`. -/
def to4 (ip : IP) : Option IP :=
  if ip.bytes.length = 4 then some ip
  else if ip.Mapped then some ⟨ip.bytes.drop 12⟩
  else none

/-- `Equal`. -/
def equal (ip x : IP) : Bool :=
  if ip.bytes.length = x.bytes.length then ip.bytes = x.bytes
  else if ip.bytes.length = 4 ∧ x.bytes.length = 16 then
    x.bytes.take 12 = v4InV6Prefix ∧ ip.bytes = x.bytes.drop 12
  else if ip.bytes.length = 16 ∧ x.bytes.length = 4 then
    ip.bytes.take 12 = v4InV6Prefix ∧ ip.bytes.drop 12 = x.bytes
  else false

/-- `IsUnspecified`. -/
def isUnspecified (ip : IP) : Bool := ip.equal v4zero || ip.equal v6unspecified

/-- `IsLoopback`. -/
def isLoopback (ip : IP) : Bool :=
  match ip.to4 with
  | some ip4 => ip4.bytes.head? = some 127
  | none => ip.equal v6loopback

/-- The one form of an address. -/
def canonical (ip : IP) : IP := ip.to4.getD ip

variable {ip x : IP}

theorem canonical_of_mapped (h : ip.Mapped) : ip.canonical = ⟨ip.bytes.drop 12⟩ := by
  simp [canonical, to4, h, h.1]

theorem canonical_of_not_mapped (h : ¬ ip.Mapped) : ip.canonical = ip := by
  unfold canonical to4
  rw [if_neg h]
  split <;> rfl

theorem equal_comm (ip x : IP) : ip.equal x = x.equal ip := by
  unfold equal
  by_cases hlen : ip.bytes.length = x.bytes.length
  · simp [hlen, eq_comm]
  · have hlen' : x.bytes.length ≠ ip.bytes.length := fun h => hlen h.symm
    rw [if_neg hlen, if_neg hlen']
    by_cases hfour : ip.bytes.length = 4 ∧ x.bytes.length = 16
    · have hsix : ¬ (x.bytes.length = 4 ∧ ip.bytes.length = 16) := by omega
      rw [if_pos hfour, if_neg hsix, if_pos hfour.symm]
      simp [eq_comm]
    · by_cases hsix : ip.bytes.length = 16 ∧ x.bytes.length = 4
      · rw [if_neg hfour, if_pos hsix, if_pos hsix.symm]
        simp [eq_comm]
      · rw [if_neg hfour, if_neg hsix, if_neg (fun h => hsix h.symm),
          if_neg (fun h => hfour h.symm)]

/-- An IPv4 address of sixteen bytes is equal to its last four bytes and to no other form. -/
theorem equal_iff_of_mapped (hip : ip.Mapped) :
    ip.equal x = true ↔ ip.canonical = x.canonical := by
  have hlen := hip.1
  by_cases hx : x.Mapped
  · rw [canonical_of_mapped hip, canonical_of_mapped hx]
    have hsplit : ip.bytes = x.bytes ↔ ip.bytes.drop 12 = x.bytes.drop 12 := by
      refine ⟨fun h => by rw [h], fun h => ?_⟩
      rw [← List.take_append_drop 12 ip.bytes, ← List.take_append_drop 12 x.bytes, hip.2, hx.2, h]
    simp [equal, hlen, hx.1, hsplit]
  · rw [canonical_of_mapped hip, canonical_of_not_mapped hx]
    obtain ⟨bytes⟩ := x
    by_cases hfour : bytes.length = 4
    · simp [equal, hlen, hfour, hip.2]
    · have hdrop : (⟨ip.bytes.drop 12⟩ : IP) ≠ ⟨bytes⟩ := by
        rintro h
        cases h
        exact hfour (by simp [hlen])
      have hne : ip.bytes ≠ bytes := by
        intro h
        apply hx
        rw [Mapped, ← h]
        exact hip
      simp [equal, hlen, hfour, hdrop, hne]

/-- `equal` compares canonical forms. -/
theorem equal_iff : ip.equal x = true ↔ ip.canonical = x.canonical := by
  by_cases hip : ip.Mapped
  · exact equal_iff_of_mapped hip
  · by_cases hx : x.Mapped
    · rw [equal_comm, equal_iff_of_mapped hx]
      exact eq_comm
    · rw [canonical_of_not_mapped hip, canonical_of_not_mapped hx]
      obtain ⟨bytes⟩ := ip
      obtain ⟨bytes'⟩ := x
      unfold Mapped at hip hx
      unfold equal
      by_cases hlen : bytes.length = bytes'.length
      · simp [hlen]
      · have hne : bytes ≠ bytes' := fun h => hlen (congrArg List.length h)
        have hfour : ¬ ((bytes.length = 4 ∧ bytes'.length = 16) ∧
            bytes'.take 12 = v4InV6Prefix ∧ bytes = bytes'.drop 12) :=
          fun h => hx ⟨h.1.2, h.2.1⟩
        have hsix : ¬ ((bytes.length = 16 ∧ bytes'.length = 4) ∧
            bytes.take 12 = v4InV6Prefix ∧ bytes.drop 12 = bytes') :=
          fun h => hip ⟨h.1.1, h.2.1⟩
        simp only [hlen, if_false]
        split
        next h =>
          simp only [h, true_and] at hfour
          simp [hfour, hne]
        · split
          next h =>
            simp only [h, true_and] at hsix
            simp [hsix, hne]
          · simp [hne]

/-- The family shows in the canonical form. -/
theorem to4_isNone_iff : ip.to4.isNone = true ↔ ip.canonical.bytes.length ≠ 4 := by
  unfold canonical to4
  split
  next hfour => simp [hfour]
  next hfour =>
    split
    next hmapped => simp [hmapped.1]
    next => simp [hfour]

/-- Equal addresses are of one family. -/
theorem to4_isNone_of_equal (h : ip.equal x = true) :
    ip.to4.isNone = x.to4.isNone := by
  rw [Bool.eq_iff_iff, to4_isNone_iff, to4_isNone_iff, equal_iff.mp h]

end IP

/-- A socket at `own` receives what is sent to `ip`. -/
def IP.serves (own ip : IP) : Bool := own.isUnspecified || own.equal ip

end PionTransport.Vnet
