import PionTransport.Bridges.Effects
import PionTransport.Core.Run

/-!
# Dropping a range of packets

`drop` shortens a range that reaches past the end of the queue. A range that starts
past the end gets a negative length, and the queue is extended over cells of its array
that it has given up: packets that were dropped or delivered come back. So the range is
removed exactly if it starts inside the queue and its end is a machine integer.
-/

namespace PionTransport.Bridges

open PionTransport.Core

section Lists

variable {α : Type*}

/-- A list without the positions from `offset` to `offset + n`. -/
def without (items : List α) (offset n : Int) : List α :=
  (items.zipIdx.filter fun x => ¬ (offset ≤ x.2 ∧ x.2 < offset + n)).map Prod.fst

/-- The positions are counted from `start`. -/
theorem filter_zipIdx (items : List α) {lo hi : Int} (h : lo ≤ hi) (start : Nat) :
    ((items.zipIdx start).filter fun x => ¬ (lo ≤ x.2 ∧ x.2 < hi)).map Prod.fst =
      items.take (lo - start).toNat ++ items.drop (hi - start).toNat := by
  induction items generalizing start with
  | nil => simp
  | cons x items ih =>
    rw [List.zipIdx_cons, List.filter_cons]
    by_cases hlo : lo ≤ start
    · have htake : (lo - start).toNat = 0 := by omega
      have htake' : (lo - (start + 1 : Nat)).toNat = 0 := by omega
      by_cases hhi : start < hi
      · have hdrop : (hi - start).toNat = (hi - (start + 1 : Nat)).toNat + 1 := by omega
        rw [if_neg (by simp [hlo, hhi]), ih, htake, htake', hdrop, List.take_zero, List.take_zero,
          List.drop_succ_cons]
      · have hdrop : (hi - start).toNat = 0 := by omega
        have hdrop' : (hi - (start + 1 : Nat)).toNat = 0 := by omega
        rw [if_pos (by simp [hhi]), List.map_cons, ih, htake, htake', hdrop, hdrop']
        simp
    · have htake : (lo - start).toNat = (lo - (start + 1 : Nat)).toNat + 1 := by omega
      have hdrop : (hi - start).toNat = (hi - (start + 1 : Nat)).toNat + 1 := by omega
      rw [if_pos (by simp [hlo]), List.map_cons, ih, htake, hdrop, List.take_succ_cons,
        List.drop_succ_cons, List.cons_append]

theorem without_eq (items : List α) {offset n : Int} (hn : 0 ≤ n) :
    without items offset n = items.take offset.toNat ++ items.drop (offset + n).toNat := by
  have h := filter_zipIdx items (show offset ≤ offset + n by omega) 0
  simpa [without] using h

/-- An offset past the end removes nothing. -/
theorem without_of_length_le {items : List α} {offset n : Int} (hn : 0 ≤ n)
    (h : (items.length : Int) ≤ offset) : without items offset n = items := by
  have htake : items.length ≤ offset.toNat := by omega
  have hdrop : items.length ≤ (offset + n).toNat := by omega
  rw [without_eq items hn, List.take_of_length_le htake, List.drop_of_length_le hdrop,
    List.append_nil]

section Drop

variable [Inhabited α] {grow : Nat → Nat → Nat} {s t : Backed α} {offset n : Int}

/-- Offsets and lengths are non-negative machine integers. -/
def InRange (x : Int) : Prop := 0 ≤ x ∧ x < 2 ^ 63

/-- The clamped length ends the range at the end of the slice. -/
theorem int64_clamp {len : Int} (hlen : InRange len) (offset : Int) :
    int64 (offset + int64 (len - offset)) = len := by
  rw [int64_add_int64, show offset + (len - offset) = len by omega]
  apply int64_eq
  · have := hlen.1
    omega
  · exact hlen.2

/-- A range that starts inside the slice is cut out. -/
theorem drop_inside (hoffset : InRange offset) (hn : InRange n) (hinside : offset ≤ s.len)
    (hend : offset + n < 2 ^ 63) :
    ∃ t, drop grow s offset n = some t ∧ t.items = without s.items offset n := by
  obtain ⟨o, rfl⟩ := Int.eq_ofNat_of_zero_le hoffset.1
  obtain ⟨k, rfl⟩ := Int.eq_ofNat_of_zero_le hn.1
  have hlen : o ≤ s.items.length := Int.ofNat_le.mp hinside
  have hsum : int64 ((o : Int) + k) = (o + k : Nat) := int64_eq (by omega) hend
  rw [without_eq s.items hn.1]
  by_cases hpast : int64 ((o : Int) + k) > s.len
  · have hback : int64 ((o : Int) + int64 (s.len - o)) = (s.items.length : Nat) := by
      apply int64_clamp
      exact ⟨s.len_nonneg, by omega⟩
    have hend' : s.items.length ≤ o + k := by
      rw [hsum] at hpast
      exact Nat.le_of_lt (Int.ofNat_lt.mp hpast)
    simp only [drop, if_pos hpast, hback, Backed.upTo?_eq hlen, Backed.from?_eq (Nat.le_refl _),
      Option.bind_eq_bind, Option.bind_some, Option.pure_def]
    refine ⟨_, rfl, ?_⟩
    have hnothing : s.items.drop ((o : Int) + k).toNat = [] := List.drop_of_length_le hend'
    rw [Backed.items_append, List.drop_of_length_le (Nat.le_refl _), hnothing]
    rfl
  · have hfit : o + k ≤ s.items.length := by
      rw [hsum] at hpast
      exact Int.ofNat_le.mp (Int.not_lt.mp hpast)
    simp only [drop, if_neg hpast]
    simp only [hsum, Backed.upTo?_eq hlen, Backed.from?_eq hfit, Option.bind_eq_bind,
      Option.bind_some, Option.pure_def]
    refine ⟨_, rfl, ?_⟩
    rw [Backed.items_append]
    rfl

/-- A range past the end makes the slice longer, if it does not panic. -/
theorem drop_outside (hoffset : InRange offset) (hn : InRange n) (houtside : s.len < offset)
    (hend : offset + n < 2 ^ 63) (h : drop grow s offset n = some t) :
    t.items.length = offset.toNat := by
  obtain ⟨hoffset0, -⟩ := hoffset
  obtain ⟨hn0, -⟩ := hn
  have hsum : int64 (offset + n) = offset + n := int64_eq (by omega) hend
  have hback : int64 (offset + int64 (s.len - offset)) = (s.items.length : Nat) := by
    apply int64_clamp
    exact ⟨s.len_nonneg, by omega⟩
  have hpast : int64 (offset + n) > s.len := by omega
  simp only [drop, if_pos hpast, hback, Backed.from?_eq (Nat.le_refl _),
    Option.bind_eq_bind, Option.bind_some, Option.pure_def] at h
  obtain ⟨front, hfront, h⟩ := Option.bind_eq_some_iff.mp h
  cases h
  rw [Backed.items_append, List.drop_of_length_le (Nat.le_refl _), List.append_nil]
  exact (Backed.upTo?_eq_some hfront).2

/-- An end that overflows is a negative index. -/
theorem drop_overflow (hoffset : InRange offset) (hn : InRange n)
    (hend : 2 ^ 63 ≤ offset + n) : drop grow s offset n = none := by
  obtain ⟨hoffset0, hoffset1⟩ := hoffset
  obtain ⟨hn0, hn1⟩ := hn
  have hlen := s.len_nonneg
  obtain ⟨o, rfl⟩ := Int.eq_ofNat_of_zero_le hoffset0
  obtain ⟨k, rfl⟩ := Int.eq_ofNat_of_zero_le hn0
  have hsum : int64 ((o : Int) + k) = o + k - 2 ^ 64 := by
    rw [← Int.natCast_add]
    apply int64_neg <;> omega
  have hnot : ¬ int64 ((o : Int) + k) > s.len := by omega
  have hback : s.from? (int64 ((o : Int) + k)) = none := if_neg (by omega)
  simp only [drop, if_neg hnot, hback, Option.bind_eq_bind, Option.bind_none]
  cases s.upTo? o <;> rfl

end Drop

end Lists

namespace Bridge

variable {grow : Nat → Nat → Nat} {b b' : Bridge} {fromID offset n : Int}

/-- The range is gone from its queue, and nothing else has changed. -/
structure DropsExactly (b b' : Bridge) (fromID offset n : Int) : Prop where
  items : (b'.lane fromID).queue.items = without (b.lane fromID).queue.items offset n
  rest : ∃ queue, b' = b.setLane fromID { b.lane fromID with queue := queue }

theorem drop_eq_some_iff :
    b.drop grow fromID offset n = some b' ↔
      ∃ queue, Bridges.drop grow (b.lane fromID).queue offset n = some queue ∧
        b.setLane fromID { b.lane fromID with queue := queue } = b' := by
  unfold drop
  exact Option.map_eq_some_iff

/-- `Drop` removes exactly the requested range, for every content of the queues, if and only if the
range starts inside the queue and its end does not overflow. -/
theorem drop_exact_iff (grow : Nat → Nat → Nat) (b : Bridge) (fromID : Int)
    (hoffset : InRange offset) (hn : InRange n) :
    (∃ b', b.drop grow fromID offset n = some b' ∧ b.DropsExactly b' fromID offset n) ↔
      offset ≤ (b.lane fromID).queue.len ∧ offset + n < 2 ^ 63 := by
  constructor
  · rintro ⟨b', hdrop, hexact⟩
    obtain ⟨queue, hqueue, rfl⟩ := drop_eq_some_iff.mp hdrop
    have hitems := hexact.items
    rw [lane_setLane Iff.rfl] at hitems
    have hend : offset + n < 2 ^ 63 := by
      by_contra hover
      rw [drop_overflow hoffset hn (Int.not_lt.mp hover)] at hqueue
      cases hqueue
    refine ⟨?_, hend⟩
    by_contra houtside
    have hlt := Int.not_le.mp houtside
    have hlength := drop_outside hoffset hn hlt hend hqueue
    rw [hitems, without_of_length_le hn.1 (Int.le_of_lt hlt)] at hlength
    unfold Backed.len at hlt
    omega
  · rintro ⟨hinside, hend⟩
    obtain ⟨queue, hqueue, hitems⟩ : ∃ t,
        Bridges.drop grow (b.lane fromID).queue offset n = some t ∧
        t.items = without (b.lane fromID).queue.items offset n :=
      drop_inside hoffset hn hinside hend
    refine ⟨_, drop_eq_some_iff.mpr ⟨queue, hqueue, rfl⟩, ?_, queue, rfl⟩
    rw [lane_setLane Iff.rfl]
    exact hitems

/-- A range that reaches past the end of three packets. -/
theorem drop_exact_past_end :
    ∃ b', Bridge.drop (fun cap need => max (2 * cap) need - need)
        { lane0 := { queue := ⟨[⟨1, [1]⟩, ⟨2, [2]⟩, ⟨3, [3]⟩], []⟩ } } 0 1 9 = some b' ∧
      DropsExactly { lane0 := { queue := ⟨[⟨1, [1]⟩, ⟨2, [2]⟩, ⟨3, [3]⟩], []⟩ } } b' 0 1 9 :=
  (drop_exact_iff _ _ 0 ⟨by decide, by decide⟩ ⟨by decide, by decide⟩).mpr (by decide)

/-- Two packets are dropped, and a drop of nothing behind the end brings the first one back. -/
theorem dropped_packet_reappears :
    ∃ b outcomes b', run (step fun cap need => max (2 * cap) need - need) newBridge
        [.push [7] 0, .push [8] 0, .drop 0 0 2] = some (b, outcomes) ∧
      (b.lane 0).queue.items = [] ∧
      b.drop (fun cap need => max (2 * cap) need - need) 0 1 0 = some b' ∧
      (b'.lane 0).queue.items = [⟨1, [7]⟩] ∧ ¬ b.DropsExactly b' 0 1 0 := by
  refine ⟨_, _, _, rfl, rfl, rfl, rfl, fun hexact => ?_⟩
  cases hexact.items

end Bridge

end PionTransport.Bridges
