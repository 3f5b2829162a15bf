import PionTransport.Core.Ring
import PionTransport.PacketIO.Queue

/-!
# What the rings of a buffer hold

The byte ring holds the framed payloads of the queue and the attribute ring
its attribute lists, in the same order. Each helper of the buffer is described
once by what it does to these two rings; in particular each succeeds, so no
slice index in it is out of range.
-/

namespace PionTransport.PacketIO

open PionTransport.Core

variable {α : Type}

/-- A packet as stored in the byte ring. -/
def Packet.frame (p : Packet α) : List UInt8 := putUint16 p.payload.length ++ p.payload

/-- The byte ring contents of a list of packets. -/
def frames (ps : List (Packet α)) : List UInt8 := ps.flatMap Packet.frame

@[simp] theorem frames_nil : frames ([] : List (Packet α)) = [] := rfl

@[simp] theorem frames_cons (p : Packet α) (ps : List (Packet α)) :
    frames (p :: ps) = p.frame ++ frames ps := rfl

@[simp] theorem frames_append (ps qs : List (Packet α)) :
    frames (ps ++ qs) = frames ps ++ frames qs := by
  simp only [frames, List.flatMap_append]

@[simp] theorem length_putUint16 (n : Nat) : (putUint16 n).length = headerSize := rfl

/-- The stored bytes of a queue are exactly its accounted size. -/
theorem length_frames (ps : List (Packet α)) :
    (frames ps).length = (ps.map Packet.size).sum := by
  induction ps with
  | nil => rfl
  | cons p ps ih =>
    simp only [frames_cons, List.length_append, Packet.frame, length_putUint16, ih, List.map_cons,
      List.sum_cons, Packet.size]
    omega

theorem frames_eq_nil_iff (ps : List (Packet α)) : frames ps = [] ↔ ps = [] := by
  cases ps with
  | nil => simp
  | cons p ps => simp [Packet.frame, putUint16]

/-- The header of a packet that passed the size check decodes to its length. -/
theorem uint16_putUint16 {n : Nat} (h : n < 0x10000) : uint16 (putUint16 n) = some n := by
  simp only [putUint16, uint16, UInt8.toNat_ofNat', Option.some.injEq]
  omega

/-- The buffer stores the queue: its rings hold the frames and the attributes in order. -/
structure Buffer.Represents (b : Buffer α) (q : Queue α) : Prop where
  bytes : Delimits b.data b.head b.tail (frames q.packets)
  slots : Holds b.attributes b.attributesHead (q.packets.map Packet.attributes)
  slot_lt : b.attributesHead < b.attributes.length ∨ b.attributesHead = 0
  count : b.count = q.packets.length
  closed : b.closed = q.closed
  small : ∀ p ∈ q.packets, p.payload.length < 0x10000
  deadline : b.readDeadline = false

/-- A new buffer stores the empty queue. -/
theorem newBuffer_represents : (newBuffer : Buffer α).Represents Queue.empty where
  bytes := Delimits.empty (Or.inr rfl)
  slots := holds_nil _ _
  slot_lt := Or.inr rfl
  count := rfl
  closed := rfl
  small := by simp [Queue.empty]
  deadline := rfl

variable {b : Buffer α} {xs : List UInt8}

/-- The measured size is the number of stored bytes. -/
theorem Buffer.size_eq (h : Delimits b.data b.head b.tail xs) :
    b.size = xs.length := h.occupied

/-- The room test compares with the free bytes of the ring. -/
theorem Buffer.available_iff (h : Delimits b.data b.head b.tail xs) (size : Nat) :
    b.available size = true ↔ xs.length + size + headerSize + 1 ≤ b.data.length := by
  have hf := h.free
  simp only [Buffer.available, decide_eq_true_eq, hf]
  omega

/-- Writing to a ring with room overwrites it from its tail. -/
theorem Buffer.writeBytes_eq {src : List UInt8} (h : Delimits b.data b.head b.tail xs)
    (hs : xs.length + src.length < b.data.length) :
    b.writeBytes src = some { b with
      data := overwrite b.data b.tail src
      tail := wrap b.data.length (b.tail + src.length) } := by
  have hb := h.bounds.2
  unfold Buffer.writeBytes
  by_cases hfit : b.tail + src.length ≤ b.data.length
  · have hdata : b.data.take b.tail ++ src ++ b.data.drop (b.tail + src.length) =
        overwrite b.data b.tail src := by simp only [overwrite, hfit, ite_true]
    have hlen := length_overwrite hb (by omega : src.length ≤ b.data.length)
    rw [copyRange?_fits _ _ _ _ hfit le_rfl, hdata]
    simp only [Option.bind_eq_bind, Option.bind_some, hlen, slice?_suffix le_rfl,
      List.drop_length, ge_iff_le]
    split
    · rename_i hend
      have hcopy := copyRange?_fits (overwrite b.data b.tail src) [] 0 b.data.length
        (by simp) (by rw [hlen])
      have hwrap : wrap b.data.length (b.tail + src.length) = 0 := by
        rw [wrap_of_le hend]
        omega
      rw [hcopy, hwrap]
      simp
    · rename_i hend
      rw [wrap_of_lt (by omega)]
      rfl
  · have hn : b.data.length - b.tail ≤ src.length := by omega
    have hfirst := copyRange?_fills b.data src _ _ hb hn le_rfl
    rw [List.drop_length, List.append_nil] at hfirst
    have hlen : (b.data.take b.tail ++ src.take (b.data.length - b.tail)).length =
        b.data.length := by
      simp only [List.length_append, List.length_take]
      omega
    have hsecond := copyRange?_fits
      (b.data.take b.tail ++ src.take (b.data.length - b.tail))
      (src.drop (b.data.length - b.tail)) 0 b.data.length
      (by simp only [List.length_drop]; omega) (by rw [hlen])
    have hdrop : (b.data.take b.tail ++ src.take (b.data.length - b.tail)).drop
        (src.length - (b.data.length - b.tail)) =
        (b.data.take b.tail).drop (src.length - (b.data.length - b.tail)) ++
          src.take (b.data.length - b.tail) :=
      List.drop_append_of_le_length (by simp only [List.length_take]; omega)
    have hend : b.tail + (b.data.length - b.tail) = b.data.length := by omega
    rw [hfirst]
    simp only [Option.bind_eq_bind, Option.bind_some, hlen, hend, ge_iff_le, le_refl, ite_true,
      slice?_suffix hn, hsecond, List.take_zero, List.nil_append, Nat.zero_add, List.length_drop,
      hdrop, overwrite, hfit, ite_false, List.append_assoc]
    rw [wrap_of_le (by omega)]
    congr 2
    omega

/-- Reading from a ring that holds at least `size` bytes copies its front and drops it. -/
theorem Buffer.readBytes_eq (dst : List UInt8) (size : Nat) (h : Delimits b.data b.head b.tail xs)
    (hs : size ≤ xs.length) :
    b.readBytes dst size = some ({ b with head := wrap b.data.length (b.head + size) },
      xs.take (min dst.length size) ++ dst.drop (min dst.length size),
      min dst.length size) := by
  have hb := h.bounds.1
  have hl := h.length_le
  set copied := min dst.length size with hcopied
  have hhead : (if b.head + size ≥ b.data.length then b.head + size - b.data.length
      else b.head + size) = wrap b.data.length (b.head + size) := by
    unfold wrap
    split <;> split <;> omega
  unfold Buffer.readBytes
  simp only [← hcopied, hhead]
  by_cases hfit : b.head + copied ≤ b.data.length
  · have hread := h.holds.read_contiguous (by omega : copied ≤ xs.length) hfit
    have htake : (xs.take copied).length = copied := by rw [List.length_take]; omega
    have hcopy := copyRange?_fits dst (xs.take copied) 0 dst.length (by omega) le_rfl
    simp only [hfit, ite_true, slice?_eq (Nat.le_add_right b.head copied) hfit, hread,
      Option.bind_eq_bind, Option.bind_some, hcopy, List.take_zero, List.nil_append,
      Nat.zero_add, htake, Option.pure_def]
  · have hread := h.holds.read_wrapped (by omega : copied ≤ xs.length) hb (by omega)
    have hfirst := copyRange?_fits dst (b.data.drop b.head) 0 copied
      (by rw [List.length_drop]; omega) (by omega)
    simp only [List.take_zero, List.nil_append, Nat.zero_add, List.length_drop] at hfirst
    have hlen : (b.data.drop b.head ++ dst.drop (b.data.length - b.head)).length = dst.length := by
      simp only [List.length_append, List.length_drop]
      omega
    have hrest : (b.data.take (copied - (b.data.length - b.head))).length =
        copied - (b.data.length - b.head) := by
      rw [List.length_take]
      omega
    have hsecond := copyRange?_fits (b.data.drop b.head ++ dst.drop (b.data.length - b.head))
      (b.data.take (copied - (b.data.length - b.head))) (b.data.length - b.head) copied
      (by omega) (by omega)
    have htake : (b.data.drop b.head ++ dst.drop (b.data.length - b.head)).take
        (b.data.length - b.head) = b.data.drop b.head := by
      rw [← List.length_drop, List.take_left]
    have hdrop : (b.data.drop b.head ++ dst.drop (b.data.length - b.head)).drop copied =
        dst.drop copied := by
      rw [List.drop_append, List.drop_of_length_le (by rw [List.length_drop]; omega),
        List.nil_append, List.drop_drop, List.length_drop]
      congr 1
      omega
    rw [hrest, htake, show b.data.length - b.head + (copied - (b.data.length - b.head)) = copied
      by omega, hdrop, hread] at hsecond
    simp only [hfit, ite_false, slice?_suffix hb, Option.bind_eq_bind, Option.bind_some, hfirst,
      slice?_take (by omega : copied - (b.data.length - b.head) ≤ b.data.length), hsecond,
      Option.pure_def]

/-- A successful growth strictly enlarges the ring and keeps its contents. -/
theorem Buffer.grow_cases (sizeHardLimit : Bool) (h : Delimits b.data b.head b.tail xs) :
    (b.growSize sizeHardLimit ≤ b.data.length ∧ b.grow sizeHardLimit = some (b, some .full)) ∨
    ∃ data, b.grow sizeHardLimit =
        some ({ b with head := 0, tail := xs.length, data := data }, none) ∧
      b.data.length < data.length ∧ (data.length : Int) = b.growSize sizeHardLimit ∧
      Delimits data 0 xs.length xs := by
  unfold Buffer.grow
  by_cases hsize : b.growSize sizeHardLimit ≤ b.data.length
  · exact Or.inl ⟨hsize, by simp only [hsize, ite_true, Option.pure_def]⟩
  · right
    have hb := h.bounds
    have hl := h.length_le
    have ht := h.tail_eq
    have hlin := h.holds.linear hb.1
    have hnew : b.data.length < (b.growSize sizeHardLimit).toNat := by omega
    generalize hN : (b.growSize sizeHardLimit).toNat = newSize at hnew
    have hlen : (xs ++ List.replicate (newSize - xs.length) (0 : UInt8)).length = newSize := by
      rw [List.length_append, List.length_replicate]
      omega
    refine ⟨xs ++ List.replicate (newSize - xs.length) 0, ?_, by omega, by omega,
      Delimits.relocate xs _ (by rw [List.length_replicate]; omega)⟩
    · by_cases hle : b.head ≤ b.tail
      · have htail : b.tail = b.head + xs.length ∧ b.head + xs.length ≤ b.data.length := by
          unfold wrap at ht
          rcases h.spare with hs | hs <;> split at ht <;> omega
        have hslice : slice? b.data b.head b.tail = some xs := by
          simp only [htail.2, ite_true] at hlin
          rw [slice?_eq hle hb.2, htail.1, hlin]
        simp only [hsize, hle, ite_true, ite_false, Option.bind_eq_bind, hslice, hN,
          Option.bind_some, List.length_replicate, copyRange?_fresh 0 newSize xs (by omega),
          Option.pure_def]
      · have htail : b.tail = b.head + xs.length - b.data.length ∧
            b.data.length ≤ b.head + xs.length := by
          unfold wrap at ht
          split at ht <;> omega
        have hxs : b.data.drop b.head ++ b.data.take b.tail = xs := by
          split at hlin
          · rename_i hend
            rw [show b.head + xs.length = b.data.length by omega, List.take_length] at hlin
            rw [show b.tail = 0 by omega, List.take_zero, List.append_nil, hlin]
          · rw [htail.1, hlin]
        have hcut : (b.data.drop b.head).length + (b.data.take b.tail).length = xs.length := by
          rw [← List.length_append, hxs]
        have hfirst := copyRange?_fresh (0 : UInt8) newSize (b.data.drop b.head) (by omega)
        have hsecond := copyRange?_behind (0 : UInt8) newSize
          (newSize - (b.data.drop b.head).length) (b.data.drop b.head) (b.data.take b.tail)
          (by omega) (by omega)
        rw [hxs, Nat.sub_sub, hcut] at hsecond
        have hlen : (b.data.drop b.head ++ List.replicate (newSize - (b.data.drop b.head).length)
            (0 : UInt8)).length = newSize := by
          rw [List.length_append, List.length_replicate]
          omega
        simp only [hsize, hle, ite_false, Option.bind_eq_bind, slice?_suffix hb.1, hN,
          Option.bind_some, List.length_replicate, hfirst, slice?_take hb.2, hlen, hsecond,
          Option.pure_def, hcut]

/-- A ring that is not longer than the limit grows, to at most one byte more than the limit. -/
theorem Buffer.growSize_bounds (sizeHardLimit : Bool)
    (h : (b.data.length : Int) ≤ b.limit sizeHardLimit) :
    (b.data.length : Int) < b.growSize sizeHardLimit ∧
      b.growSize sizeHardLimit ≤ b.limit sizeHardLimit + 1 := by
  unfold Buffer.limit maxSize at h
  unfold Buffer.growSize Buffer.limit minSize maxSize cutoffSize
  cases sizeHardLimit <;> grind

/-- The growth loop ends within its fuel: with room for the payload, or full with the contents
kept. It makes room for whatever is below the limit. -/
theorem Buffer.growUntil_spec (sizeHardLimit : Bool) (size fuel : Nat)
    (h : Delimits b.data b.head b.tail xs) (hpos : 0 < fuel)
    (hfuel : xs.length + size + headerSize + 1 < b.data.length + fuel) :
    ∃ data head tail err, b.growUntil sizeHardLimit size fuel =
        some ({ b with data := data, head := head, tail := tail }, err) ∧
      Delimits data head tail xs ∧
      (err = none → xs.length + size + headerSize + 1 ≤ data.length) ∧
      ((xs.length : Int) + size + headerSize ≤ b.limit sizeHardLimit → err = none ∧
        (data.length : Int) ≤ max (b.data.length : Int) (b.limit sizeHardLimit + 1)) := by
  induction fuel generalizing b with
  | zero => omega
  | succ fuel ih =>
    by_cases hroom : b.available size = true
    · refine ⟨b.data, b.head, b.tail, none, ?_, h, fun _ => (b.available_iff h size).mp hroom,
        fun _ => ⟨rfl, Int.le_max_left _ _⟩⟩
      simp only [Buffer.growUntil, hroom, ite_true]
    · have hno := mt (b.available_iff h size).mpr hroom
      -- a ring without room for an admitted packet is within the limit
      have hbounds := b.growSize_bounds sizeHardLimit
      rcases b.grow_cases sizeHardLimit h with ⟨hsize, hfull⟩ | ⟨data, hgrow, hlt, hlen, hd⟩
      · refine ⟨b.data, b.head, b.tail, some .full, ?_, h, by simp, fun hlimit => ?_⟩
        · simp only [Buffer.growUntil, hroom, hfull, Bool.false_eq_true, ite_false]
        · have := hbounds (by omega)
          omega
      · obtain ⟨data', head', tail', err, hrun, hd', hroom', hadmits⟩ :=
          ih (b := { b with head := 0, tail := xs.length, data := data }) hd (by omega)
            (by simp only; omega)
        refine ⟨data', head', tail', err, ?_, hd', hroom', fun hlimit => ?_⟩
        · simp only [Buffer.growUntil, hroom, hgrow, Bool.false_eq_true, ite_false]
          exact hrun
        · obtain ⟨hnone, hmax⟩ := hadmits hlimit
          have hsame : ({ b with head := 0, tail := xs.length, data := data } : Buffer α).limit
              sizeHardLimit = b.limit sizeHardLimit := rfl
          have := hbounds (by omega)
          simp only [hsame] at hmax
          exact ⟨hnone, by omega⟩

/-- After `growAttributes` the next slot is free and the queued slots are unchanged. -/
theorem Buffer.growAttributes_spec {slots : List (List α)}
    (h : Holds b.attributes b.attributesHead slots)
    (hh : b.attributesHead < b.attributes.length ∨ b.attributesHead = 0)
    (hc : b.count = slots.length) :
    ∃ attributes head, b.growAttributes =
        some { b with attributes := attributes, attributesHead := head } ∧
      Holds attributes head slots ∧ slots.length < attributes.length ∧
      head < attributes.length := by
  unfold Buffer.growAttributes
  by_cases hroom : b.count < b.attributes.length
  · exact ⟨b.attributes, b.attributesHead, by simp only [hroom, ite_true, Option.pure_def], h,
      by omega, by omega⟩
  · have hlen := h.length_le
    have hhead : b.attributesHead ≤ b.attributes.length := by omega
    have hsize : slots.length < max 1 (2 * b.attributes.length) := by omega
    obtain ⟨free, hf, hfl⟩ := h.exists_free
    have hnil : free = [] := List.length_eq_zero_iff.mp (by omega)
    rw [hnil, List.append_nil, List.rotate_eq_drop_append_take hhead] at hf
    have hcut : (b.attributes.drop b.attributesHead).length +
        (b.attributes.take b.attributesHead).length = slots.length := by
      rw [← List.length_append, hf]
    generalize max 1 (2 * b.attributes.length) = n at hsize
    have hfirst := copyRange?_fresh ([] : List α) n (b.attributes.drop b.attributesHead) (by omega)
    have hsecond := copyRange?_behind ([] : List α) n
      (n - (b.attributes.drop b.attributesHead).length) (b.attributes.drop b.attributesHead)
      (b.attributes.take b.attributesHead) (by omega) (by omega)
    have hsum : (b.attributes.drop b.attributesHead ++ List.replicate
        (n - (b.attributes.drop b.attributesHead).length) ([] : List α)).length = n := by
      rw [List.length_append, List.length_replicate]
      omega
    rw [hf, Nat.sub_sub, hcut] at hsecond
    refine ⟨slots ++ List.replicate (n - slots.length) [], 0, ?_, holds_zero_append _ _, ?_, ?_⟩
    · simp only [hroom, ite_false, Option.bind_eq_bind, slice?_suffix hhead, Option.bind_some,
        List.length_replicate, hfirst, slice?_take hhead, hsum, hsecond, Option.pure_def]
    · rw [List.length_append, List.length_replicate]
      omega
    · rw [List.length_append, List.length_replicate]
      omega

end PionTransport.PacketIO
