import PionTransport.Core.Slice
import Mathlib.Data.List.Rotate

/-!
# Circular storage

A ring stores a queue in an array from a head position on, continuing at the
front of the array when it reaches the end. `Holds cells head xs` says that the
array, read from `head` around, starts with the queue `xs`. Rotation is the
whole argument: dropping from the queue moves the head, and overwriting the
first free cells appends to the queue.
-/

namespace PionTransport.Core

variable {α : Type*}

/-- A position one revolution too far is brought back into an array of length `len`. -/
def wrap (len k : Nat) : Nat := if k < len then k else k - len

theorem wrap_of_lt {len k : Nat} (h : k < len) : wrap len k = k := by
  simp only [wrap, h, ite_true]

theorem wrap_of_le {len k : Nat} (h : len ≤ k) : wrap len k = k - len := by
  simp only [wrap, Nat.not_lt.mpr h, ite_false]

/-- One revolution does not change the rotation. -/
theorem rotate_wrap (cells : List α) (k : Nat) :
    cells.rotate (wrap cells.length k) = cells.rotate k := by
  by_cases h : k < cells.length
  · rw [wrap_of_lt h]
  · have hturn := List.rotate_rotate cells cells.length (k - cells.length)
    rw [List.rotate_length, show cells.length + (k - cells.length) = k by omega] at hturn
    rw [wrap_of_le (by omega), hturn]

/-- The array read from `head` around starts with the queue `xs`. -/
def Holds (cells : List α) (head : Nat) (xs : List α) : Prop := xs <+: cells.rotate head

theorem holds_nil (cells : List α) (head : Nat) : Holds cells head [] := List.nil_prefix

variable {cells xs : List α} {head pos : Nat}

/-- A queue never exceeds its array. -/
theorem Holds.length_le (h : Holds cells head xs) :
    xs.length ≤ cells.length := by
  simpa only [List.length_rotate] using List.IsPrefix.length_le h

/-- The occupied and the free part together are the rotated array. -/
theorem Holds.exists_free (h : Holds cells head xs) :
    ∃ free, cells.rotate head = xs ++ free ∧ xs.length + free.length = cells.length := by
  obtain ⟨free, hf⟩ := h
  refine ⟨free, hf.symm, ?_⟩
  have hl := congrArg List.length hf
  simpa only [List.length_append, List.length_rotate] using hl

/-- Removing the front of the queue moves the head forward. -/
theorem Holds.advance {ys : List α} (h : Holds cells head (xs ++ ys)) :
    Holds cells (wrap cells.length (head + xs.length)) ys := by
  obtain ⟨free, hf, -⟩ := h.exists_free
  refine ⟨free ++ xs, ?_⟩
  rw [rotate_wrap, ← List.rotate_rotate, hf, List.append_assoc, List.rotate_append_length_eq,
    List.append_assoc]

/-- The front of a queue, read without wrapping. -/
theorem Holds.read_contiguous {n : Nat} (h : Holds cells head xs) (hn : n ≤ xs.length)
    (hc : head + n ≤ cells.length) :
    (cells.take (head + n)).drop head = xs.take n := by
  obtain ⟨free, hf, -⟩ := h.exists_free
  have ht := congrArg (List.take n) hf
  rw [List.take_append_of_le_length hn,
    List.rotate_eq_drop_append_take (by omega : head ≤ cells.length),
    List.take_append_of_le_length (by simp only [List.length_drop]; omega)] at ht
  rw [List.drop_take, Nat.add_sub_cancel_left]
  exact ht

/-- The front of a queue, read across the end of the array. -/
theorem Holds.read_wrapped {n : Nat} (h : Holds cells head xs) (hn : n ≤ xs.length)
    (hh : head ≤ cells.length) (hc : cells.length < head + n) :
    cells.drop head ++ cells.take (n - (cells.length - head)) = xs.take n := by
  obtain ⟨free, hf, hlen⟩ := h.exists_free
  have ht := congrArg (List.take n) hf
  rw [List.take_append_of_le_length hn, List.rotate_eq_drop_append_take hh,
    List.take_append, List.take_of_length_le (by simp only [List.length_drop]; omega),
    List.length_drop, List.take_take, Nat.min_eq_left (by omega)] at ht
  exact ht

/-- Overwrite the array with `src` from position `pos` around. -/
def overwrite (cells : List α) (pos : Nat) (src : List α) : List α :=
  if pos + src.length ≤ cells.length then
    cells.take pos ++ src ++ cells.drop (pos + src.length)
  else
    let n := cells.length - pos
    src.drop n ++ (cells.take pos).drop (src.length - n) ++ src.take n

/-- Overwriting replaces a prefix of the array rotated to the written position. -/
theorem rotate_overwrite {src : List α} (hp : pos ≤ cells.length) (hs : src.length ≤ cells.length) :
    (overwrite cells pos src).rotate pos = src ++ (cells.rotate pos).drop src.length := by
  have htake : (cells.take pos).length = pos := by simp only [List.length_take]; omega
  unfold overwrite
  split
  · rename_i hfit
    have hrot := List.rotate_append_length_eq (cells.take pos)
      (src ++ cells.drop (pos + src.length))
    rw [htake] at hrot
    rw [List.append_assoc, hrot, List.rotate_eq_drop_append_take hp, List.append_assoc,
      List.drop_append_of_le_length (by simp only [List.length_drop]; omega), List.drop_drop]
  · rename_i hfit
    have hn : cells.length - pos ≤ src.length := by omega
    have hmid : (src.drop (cells.length - pos) ++
        (cells.take pos).drop (src.length - (cells.length - pos))).length = pos := by
      simp only [List.length_append, List.length_drop, htake]
      omega
    have hrot := List.rotate_append_length_eq (src.drop (cells.length - pos) ++
      (cells.take pos).drop (src.length - (cells.length - pos))) (src.take (cells.length - pos))
    rw [hmid] at hrot
    have hskip : (cells.drop pos ++ cells.take pos).drop src.length =
        (cells.take pos).drop (src.length - (cells.length - pos)) := by
      rw [List.drop_append, List.drop_of_length_le (by rw [List.length_drop]; omega),
        List.nil_append, List.length_drop]
    rw [hrot, List.rotate_eq_drop_append_take hp, ← List.append_assoc, List.take_append_drop,
      hskip]

@[simp] theorem length_overwrite {src : List α} (hp : pos ≤ cells.length)
    (hs : src.length ≤ cells.length) : (overwrite cells pos src).length = cells.length := by
  have h := congrArg List.length (rotate_overwrite hp hs)
  simp only [List.length_rotate, List.length_append, List.length_drop] at h
  omega

/-- Overwriting the first free cells appends to the queue. -/
theorem Holds.append (h : Holds cells head xs) (src : List α)
    (hp : wrap cells.length (head + xs.length) ≤ cells.length)
    (hs : xs.length + src.length ≤ cells.length) :
    Holds (overwrite cells (wrap cells.length (head + xs.length)) src) head (xs ++ src) := by
  obtain ⟨free, hf, hlen⟩ := h.exists_free
  have hsrc : src.length ≤ cells.length := by omega
  have hover := rotate_overwrite hp hsrc
  have hl := length_overwrite hp hsrc
  set pos := wrap cells.length (head + xs.length) with hpos
  have hold : cells.rotate pos = free ++ xs := by
    rw [hpos, rotate_wrap, ← List.rotate_rotate, hf, List.rotate_append_length_eq]
  have hnew : (overwrite cells pos src).rotate pos = src ++ free.drop src.length ++ xs := by
    rw [hover, hold, List.drop_append_of_le_length (by omega), List.append_assoc]
  have hturn : ((overwrite cells pos src).rotate head).rotate xs.length =
      (xs ++ (src ++ free.drop src.length)).rotate xs.length := by
    have hw := rotate_wrap (overwrite cells pos src) (head + xs.length)
    rw [hl, ← hpos] at hw
    rw [List.rotate_append_length_eq, ← hnew, List.rotate_rotate, hw]
  refine ⟨free.drop src.length, ?_⟩
  rw [List.rotate_injective _ hturn, List.append_assoc]

/-- A queue that fills the whole turn from `head` to its end is the array cut at `head`. -/
theorem Holds.linear (h : Holds cells head xs) (hh : head ≤ cells.length) :
    if head + xs.length ≤ cells.length then (cells.take (head + xs.length)).drop head = xs
    else cells.drop head ++ cells.take (head + xs.length - cells.length) = xs := by
  split
  · rename_i hc
    simpa only [List.take_length] using h.read_contiguous le_rfl hc
  · rename_i hc
    have hr := h.read_wrapped le_rfl hh (by omega)
    rw [List.take_length] at hr
    rwa [show head + xs.length - cells.length = xs.length - (cells.length - head) by omega]

/-- A linearised queue at the front of an array is held from position zero. -/
theorem holds_zero_append (xs rest : List α) : Holds (xs ++ rest) 0 xs := by
  rw [Holds, List.rotate_zero]
  exact List.prefix_append xs rest

/-- Overwriting one cell is a list update. -/
theorem overwrite_singleton (hp : pos < cells.length) (x : α) :
    overwrite cells pos [x] = cells.set pos x := by
  simp only [overwrite, List.length_singleton, Nat.succ_le_of_lt hp, ite_true]
  rw [List.set_eq_take_append_cons_drop]
  simp [hp]

/-- The front cell of a nonempty queue is the cell at the head. -/
theorem Holds.front {x : α} (h : Holds cells head (x :: xs)) (hh : head < cells.length) :
    cells[head]? = some x := by
  obtain ⟨free, hf, -⟩ := h.exists_free
  have hhead := List.head?_rotate hh
  rw [hf] at hhead
  exact hhead.symm

/-- Reusing the front cell of the queue does not disturb the rest. -/
theorem Holds.pop_set {x : α} (h : Holds cells head (x :: xs)) (hh : head < cells.length) (y : α) :
    Holds (cells.set head y) (wrap cells.length (head + 1)) xs := by
  obtain ⟨free, hf, -⟩ := h.exists_free
  have hlen : [y].length ≤ cells.length := by simp only [List.length_singleton]; omega
  have hrot := rotate_overwrite hh.le hlen
  rw [overwrite_singleton hh, hf] at hrot
  have hy : Holds (cells.set head y) head ([y] ++ xs) := by
    refine ⟨free, ?_⟩
    rw [hrot]
    simp
  simpa only [List.length_set, List.length_singleton] using hy.advance

/-- A ring delimited by its head and its tail. One cell is always kept free, so that equal
positions mean an empty queue; an array that is not allocated yet holds nothing. -/
structure Delimits (cells : List α) (head tail : Nat) (xs : List α) : Prop where
  holds : Holds cells head xs
  spare : xs.length < cells.length ∨ cells.length = 0
  head_lt : head < cells.length ∨ head = 0
  tail_eq : tail = wrap cells.length (head + xs.length)

namespace Delimits

variable {cells : List α} {head tail : Nat} {xs ys : List α}

theorem length_le (h : Delimits cells head tail xs) : xs.length ≤ cells.length := h.holds.length_le

/-- Both positions stay inside the array. -/
theorem bounds (h : Delimits cells head tail xs) :
    head ≤ cells.length ∧ tail ≤ cells.length := by
  have hl := h.length_le
  have ht := h.tail_eq
  unfold wrap at ht
  rcases h.head_lt with hh | hh <;> split at ht <;> omega

/-- Equal positions mean that the queue is empty. -/
theorem head_eq_tail_iff (h : Delimits cells head tail xs) : head = tail ↔ xs = [] := by
  have ht := h.tail_eq
  have hl := h.length_le
  rw [← List.length_eq_zero_iff]
  unfold wrap at ht
  rcases h.spare with hs | hs <;> rcases h.head_lt with hh | hh <;> split at ht <;> omega

/-- The distance from head to tail, brought into range, is the length of the queue. -/
theorem occupied (h : Delimits cells head tail xs) :
    (if (tail : Int) - head < 0 then (tail : Int) - head + cells.length
      else (tail : Int) - head) = xs.length := by
  have ht := h.tail_eq
  have hl := h.length_le
  unfold wrap at ht
  rcases h.spare with hs | hs <;> rcases h.head_lt with hh | hh <;> split at ht <;> split <;> omega

/-- The distance from tail to head, brought into range, is the number of free cells. -/
theorem free (h : Delimits cells head tail xs) :
    (if (head : Int) - tail ≤ 0 then (head : Int) - tail + cells.length
      else (head : Int) - tail) = (cells.length : Int) - xs.length := by
  have ht := h.tail_eq
  have hl := h.length_le
  unfold wrap at ht
  rcases h.spare with hs | hs <;> rcases h.head_lt with hh | hh <;> split at ht <;> split <;> omega

/-- Removing the front of the queue moves only the head. -/
theorem advance (h : Delimits cells head tail (xs ++ ys)) :
    Delimits cells (wrap cells.length (head + xs.length)) tail ys := by
  have hl := h.length_le
  have ht := h.tail_eq
  have hs := h.spare
  simp only [List.length_append] at hl ht hs
  refine ⟨h.holds.advance, by omega, ?_, ?_⟩
  · unfold wrap
    rcases h.head_lt with hh | hh <;> split <;> omega
  · unfold wrap at ht ⊢
    rcases h.head_lt with hh | hh <;> split at ht <;> split <;> split <;> omega

/-- Overwriting free cells from the tail appends to the queue. -/
theorem append {src : List α} (h : Delimits cells head tail xs)
    (hs : xs.length + src.length < cells.length) :
    Delimits (overwrite cells tail src) head (wrap cells.length (tail + src.length))
      (xs ++ src) := by
  have ht := h.tail_eq
  have hb := h.bounds
  have hlen := length_overwrite hb.2 (by omega : src.length ≤ cells.length)
  refine ⟨?_, ?_, ?_, ?_⟩
  · rw [ht]
    exact h.holds.append src (by rw [← ht]; exact hb.2) (by omega)
  · rw [hlen, List.length_append]
    exact Or.inl hs
  · rw [hlen]
    exact h.head_lt
  · rw [hlen, List.length_append]
    unfold wrap at ht ⊢
    rcases h.head_lt with hh | hh <;> split at ht <;> split <;> split <;> omega

/-- A queue moved to the front of a larger array. -/
theorem relocate (xs rest : List α) (hr : 0 < rest.length) :
    Delimits (xs ++ rest) 0 xs.length xs := by
  have hlen : xs.length < (xs ++ rest).length := by rw [List.length_append]; omega
  refine ⟨holds_zero_append xs rest, Or.inl hlen, Or.inr rfl, ?_⟩
  rw [Nat.zero_add, wrap_of_lt hlen]

/-- An empty queue may be delimited by any position of its array. -/
theorem empty (hh : head < cells.length ∨ head = 0) : Delimits cells head head [] := by
  refine ⟨holds_nil cells head, ?_, hh, ?_⟩
  · simp only [List.length_nil]
    omega
  · unfold wrap
    rcases hh with hh | hh <;> split <;> simp_all

end Delimits

end PionTransport.Core
