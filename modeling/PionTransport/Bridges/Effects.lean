import PionTransport.Bridges.Bridge

/-!
# What the parts of a call do

`inverse` reverses a slice of two or more packets and leaves a shorter one. A pushed
packet is dropped, held back, released with its group, filtered or routed; the two
directions differ for a group of one packet, which is lost from endpoint 0 and routed
from endpoint 1. None of this panics.
-/

namespace PionTransport.Bridges

open PionTransport.Core

section Inverse

variable {α : Type*}

/-- The loop turns the part between its indices around. -/
theorem inverseLoop_eq (s : List α) (i j : Nat) (hj : j < s.length) :
    ∃ t, inverseLoop i j s = some t ∧ t.length = s.length ∧
      ∀ p, t[p]? = if i ≤ p ∧ p ≤ j then s[i + j - p]? else s[p]? := by
  induction j generalizing i s with
  | zero =>
    refine ⟨s, rfl, rfl, fun p => ?_⟩
    split
    · congr 1
      omega
    · rfl
  | succ j ih =>
    unfold inverseLoop
    by_cases hij : i < j + 1
    · obtain ⟨s', hswap, hlength, hs'⟩ := swap?_eq (Nat.lt_trans hij hj) hj
      obtain ⟨t, hloop, hlength', ht⟩ := ih s' (i + 1) (by omega)
      rw [if_pos hij, hswap]
      refine ⟨t, hloop, hlength'.trans hlength, fun p => ?_⟩
      rw [ht, hs', hs']
      -- the two ends have been exchanged, the rest is left to the loop
      by_cases hi : p = i
      · rw [if_neg (by omega), if_neg (by omega), if_pos hi, if_pos (by omega)]
        congr 1
        omega
      by_cases hend : p = j + 1
      · rw [if_neg (by omega), if_pos hend, if_pos (by omega)]
        congr 1
        omega
      by_cases hinside : i ≤ p ∧ p ≤ j + 1
      · rw [if_pos (by omega), if_neg (by omega), if_neg (by omega), if_pos hinside]
        congr 1
        omega
      · rw [if_neg (by omega), if_neg hend, if_neg hi, if_neg hinside]
    · rw [if_neg hij]
      refine ⟨s, rfl, rfl, fun p => ?_⟩
      split
      · congr 1
        omega
      · rfl

/-- Fewer than two items are refused. -/
theorem inverse_of_short {s : List α} (h : s.length < 2) :
    inverse s = some (s, some .inverseArrayWithOne) := if_pos h

/-- Otherwise the items are reversed. -/
theorem inverse_eq_reverse {s : List α} (h : 2 ≤ s.length) :
    inverse s = some (s.reverse, none) := by
  obtain ⟨t, hloop, hlength, ht⟩ := inverseLoop_eq s 0 (s.length - 1) (by omega)
  have hreverse : t = s.reverse := by
    apply List.ext_getElem?
    intro p
    rw [ht]
    by_cases hp : p < s.length
    · rw [if_pos (by omega), List.getElem?_reverse hp, Nat.zero_add]
    · rw [if_neg (by omega), List.getElem?_eq_none (by omega),
        List.getElem?_eq_none (by rw [List.length_reverse]; omega)]
  rw [inverse, if_neg (by omega), hloop, hreverse]
  rfl

/-- Either way the packets are the same. -/
theorem inverse_perm (s : List α) : ∃ t err, inverse s = some (t, err) ∧ t.Perm s := by
  by_cases h : s.length < 2
  · exact ⟨s, _, inverse_of_short h, .refl s⟩
  · exact ⟨s.reverse, none, inverse_eq_reverse (by omega), s.reverse_perm⟩

end Inverse

/-- An endpoint that was not closed is left alone. -/
theorem Conn.finish_open {c : Conn} (h : c.closing = false) (queue : Backed Packet) :
    c.finish queue = some c := by
  apply if_neg
  rw [h]
  exact fun hclosing => Bool.noConfusion hclosing.1

namespace Lane

variable {grow : Nat → Nat → Nat} {l l' : Lane} {data : Packet} {entered : List Packet}
  {err : Option BridgeError}

/-- The ways of a pushed packet, with the packets that enter the queue. -/
inductive Pushed (grow : Nat → Nat → Nat) (l : Lane) (data : Packet) :
    Lane → List Packet → Option BridgeError → Prop
  | dropped (hdrop : 0 < l.dropNWrites) :
      Pushed grow l data { l with dropNWrites := l.dropNWrites - 1 } [] none
  | held (hdrop : l.dropNWrites ≤ 0) (hreorder : 1 < l.reorderNWrites) :
      Pushed grow l data
        { l with reorderNWrites := l.reorderNWrites - 1, stack := l.stack ++ [data] } [] none
  | released (hdrop : l.dropNWrites ≤ 0) (hreorder : l.reorderNWrites = 1) (hstack : l.stack ≠ []) :
      Pushed grow l data
        { l with reorderNWrites := 0, stack := (l.stack ++ [data]).reverse,
                 queue := l.queue.append grow (l.stack ++ [data]).reverse }
        (l.stack ++ [data]).reverse none
  /-- a group of one packet from endpoint 0 -/
  | lost (hdrop : l.dropNWrites ≤ 0) (hreorder : l.reorderNWrites = 1) (hstack : l.stack = []) :
      Pushed grow l data { l with reorderNWrites := 0, stack := [data] } []
        (some .inverseArrayWithOne)
  /-- a group of one packet from endpoint 1 -/
  | lone (hdrop : l.dropNWrites ≤ 0) (hreorder : l.reorderNWrites = 1) (hstack : l.stack = []) :
      Pushed grow l data
        { l with reorderNWrites := 0, stack := [data], queue := l.queue.append grow [data] } [data]
        (some .inverseArrayWithOne)
  | filtered (hdrop : l.dropNWrites ≤ 0) (hreorder : l.reorderNWrites ≤ 0)
      (hfilter : l.filtered data = true) : Pushed grow l data l [] none
  | routed (hdrop : l.dropNWrites ≤ 0) (hreorder : l.reorderNWrites ≤ 0)
      (hfilter : l.filtered data = false) :
      Pushed grow l data { l with queue := l.queue.append grow [data] } [data] none

/-- What enters comes last. -/
theorem Pushed.items (h : Pushed grow l data l' entered err) :
    l'.queue.items = l.queue.items ++ entered := by
  cases h <;> simp only [Backed.items_append, List.append_nil]

/-- Only the packet itself and packets from the stack enter or stay on the stack. -/
theorem Pushed.subset (h : Pushed grow l data l' entered err) :
    entered ⊆ l.stack ++ [data] ∧ l'.stack ⊆ l.stack ++ [data] := by
  have hgroup : (l.stack ++ [data]).reverse ⊆ l.stack ++ [data] := (List.reverse_perm _).subset
  have hdata : [data] ⊆ l.stack ++ [data] := List.subset_append_right _ _
  have hstack : l.stack ⊆ l.stack ++ [data] := List.subset_append_left _ _
  have hnothing : [] ⊆ l.stack ++ [data] := List.nil_subset _
  cases h with
  | dropped | filtered => exact ⟨hnothing, hstack⟩
  | held => exact ⟨hnothing, List.Subset.refl _⟩
  | released => exact ⟨hgroup, hgroup⟩
  | lost => exact ⟨hnothing, hdata⟩
  | lone => exact ⟨hdata, hdata⟩
  | routed => exact ⟨hdata, hstack⟩

section Release

variable {release : Lane → Option (Lane × Option BridgeError)}

/-- A release that reverses groups and has its own way with a single packet. -/
theorem push_pushed
    (hgroup : ∀ l, 2 ≤ l.stack.length → release l = some
      ({ l with stack := l.stack.reverse, queue := l.queue.append grow l.stack.reverse }, none))
    (hone : l.dropNWrites ≤ 0 → l.reorderNWrites = 1 → l.stack = [] → ∃ l' entered err,
      release { l with reorderNWrites := 0, stack := [data] } = some (l', err) ∧
        Pushed grow l data l' entered err) :
    ∃ l' entered err, l.push grow release data = some (l', err) ∧
      Pushed grow l data l' entered err := by
  by_cases hdrop : l.dropNWrites > 0
  · exact ⟨_, _, _, if_pos hdrop, .dropped hdrop⟩
  have hdrop' := Int.not_lt.mp hdrop
  unfold push
  rw [if_neg hdrop]
  by_cases hreorder : l.reorderNWrites > 0
  · rw [if_pos hreorder]
    by_cases hlast : l.reorderNWrites = 1
    · have hzero : l.reorderNWrites - 1 = 0 := by omega
      simp only [hzero, if_true]
      by_cases hstack : l.stack = []
      · rw [hstack, List.nil_append]
        exact hone hdrop' hlast hstack
      · have hlength : 2 ≤ (l.stack ++ [data]).length := by
          have := List.length_pos_iff.mpr hstack
          rw [List.length_append, List.length_singleton]
          omega
        exact ⟨_, _, _, hgroup _ hlength, .released hdrop' hlast hstack⟩
    · have hmore : l.reorderNWrites - 1 ≠ 0 := by omega
      simp only [if_neg hmore]
      exact ⟨_, _, _, rfl, .held hdrop' (by omega)⟩
  · rw [if_neg hreorder]
    by_cases hfilter : l.filtered data = true
    · exact ⟨_, _, _, if_pos hfilter, .filtered hdrop' (Int.not_lt.mp hreorder) hfilter⟩
    · refine ⟨_, _, _, if_neg hfilter, .routed hdrop' (Int.not_lt.mp hreorder) ?_⟩
      exact Bool.eq_false_iff.mpr hfilter

end Release

/-- A group is released in reverse. -/
theorem release0_group (h : 2 ≤ l.stack.length) :
    l.release0 grow = some ({ l with
      stack := l.stack.reverse, queue := l.queue.append grow l.stack.reverse }, none) := by
  rw [release0, inverse_eq_reverse h]
  rfl

/-- The same in the other direction. -/
theorem release1_group (h : 2 ≤ l.stack.length) :
    l.release1 grow = some ({ l with
      stack := l.stack.reverse, queue := l.queue.append grow l.stack.reverse }, none) := by
  rw [release1, inverse_eq_reverse h]
  rfl

/-- `Push` of endpoint 0 never panics. -/
theorem push0_pushed (grow : Nat → Nat → Nat) (l : Lane) (data : Packet) :
    ∃ l' entered err, l.push grow (release0 grow) data = some (l', err) ∧
      Pushed grow l data l' entered err :=
  push_pushed (fun _ h => release0_group h) fun hdrop hreorder hstack =>
    ⟨_, _, _, rfl, .lost hdrop hreorder hstack⟩

/-- `Push` of endpoint 1 never panics. -/
theorem push1_pushed (grow : Nat → Nat → Nat) (l : Lane) (data : Packet) :
    ∃ l' entered err, l.push grow (release1 grow) data = some (l', err) ∧
      Pushed grow l data l' entered err :=
  push_pushed (fun _ h => release1_group h) fun hdrop hreorder hstack =>
    ⟨_, _, _, rfl, .lone hdrop hreorder hstack⟩

/-- At most the first packet is handed over, and it is removed if and only if it was. -/
theorem deliver_eq (l : Lane) {conn : Conn} (waiting : Bool)
    (hconn : conn.readChClosed = true → conn.closed = true) :
    ∃ queue packet, l.deliver conn waiting = some ({ l with queue := queue }, packet) ∧
      l.queue.items = packet.toList ++ queue.items ∧
      (packet ≠ none → conn.readChClosed = false) := by
  unfold deliver
  split
  next hnil => exact ⟨l.queue, none, rfl, rfl, fun h => (h rfl).elim⟩
  next packet rest hcons =>
    by_cases hclosed : conn.closed = true
    · exact ⟨l.queue, none, if_pos hclosed, rfl, fun h => (h rfl).elim⟩
    have hopen : ¬ conn.readChClosed = true := fun h => hclosed (hconn h)
    rw [if_neg hclosed, if_neg hopen]
    cases waiting with
    | false => exact ⟨l.queue, none, rfl, rfl, fun h => (h rfl).elim⟩
    | true =>
      have hfrom : l.queue.from? 1 = some ⟨l.queue.items.drop 1, l.queue.spare⟩ := by
        apply Backed.from?_eq
        rw [hcons]
        exact Nat.le_add_left 1 _
      rw [if_pos rfl, hfrom]
      refine ⟨_, some packet, rfl, ?_, fun _ => Bool.eq_false_iff.mpr hopen⟩
      rw [hcons]
      rfl

end Lane

namespace Bridge

variable {grow : Nat → Nat → Nat} {b b' : Bridge} {d fromID : Int} {l : Lane} {data : Packet}

/-- Two senders have the same direction. -/
def SameWay (d fromID : Int) : Prop := d = 0 ↔ fromID = 0

instance : Decidable (SameWay d fromID) := inferInstanceAs (Decidable (_ ↔ _))

/-- The replaced direction. -/
theorem lane_setLane (h : SameWay d fromID) : (b.setLane fromID l).lane d = l := by
  unfold lane setLane
  by_cases hzero : fromID = 0
  · rw [if_pos (h.mpr hzero), if_pos hzero]
  · rw [if_neg (fun hd => hzero (h.mp hd)), if_neg hzero]

/-- The other direction. -/
theorem lane_setLane_other (h : ¬ SameWay d fromID) :
    (b.setLane fromID l).lane d = b.lane d := by
  unfold lane setLane
  by_cases hzero : fromID = 0
  · have hd : ¬ d = 0 := fun hd => h ⟨fun _ => hzero, fun _ => hd⟩
    simp only [if_neg hd, if_pos hzero]
  · have hd : d = 0 := by
      by_contra hd
      exact h ⟨fun h => (hd h).elim, fun h => (hzero h).elim⟩
    simp only [if_pos hd, if_neg hzero]

theorem lane_congr (h : SameWay d fromID) : b.lane d = b.lane fromID := by
  unfold lane
  exact if_congr h rfl rfl

@[simp] theorem setLane_conn0 : (b.setLane fromID l).conn0 = b.conn0 := by
  unfold setLane
  split <;> rfl

@[simp] theorem setLane_conn1 : (b.setLane fromID l).conn1 = b.conn1 := by
  unfold setLane
  split <;> rfl

@[simp] theorem setLane_made : (b.setLane fromID l).made = b.made := by
  unfold setLane
  split <;> rfl

theorem lane_of_zero (h : d = 0) : b.lane d = b.lane0 := if_pos h

theorem lane_of_ne_zero (h : ¬ d = 0) : b.lane d = b.lane1 := if_neg h

/-- The rest of `Push` changes its own direction. -/
structure Enqueued (grow : Nat → Nat → Nat) (b : Bridge) (data : Packet) (fromID : Int)
    (b' : Bridge) (entered : List Packet) : Prop where
  lane : ∃ err, Lane.Pushed grow (b.lane fromID) data (b'.lane fromID) entered err
  other : ∀ d, ¬ SameWay d fromID → b'.lane d = b.lane d
  conn0 : b'.conn0 = b.conn0
  conn1 : b'.conn1 = b.conn1
  made : b'.made = b.made

/-- `Push` after its check never panics. -/
theorem enqueue_enqueued (grow : Nat → Nat → Nat) (b : Bridge) (data : Packet) (fromID : Int) :
    ∃ b' entered, b.enqueue grow data fromID = some b' ∧
      Enqueued grow b data fromID b' entered := by
  have hset : ∃ l entered err, Lane.Pushed grow (b.lane fromID) data l entered err ∧
      b.enqueue grow data fromID = some { b.setLane fromID l with err := err <|> b.err } := by
    unfold enqueue Bridge.lane setLane
    by_cases hzero : fromID = 0
    · obtain ⟨l, entered, err, hpush, hpushed⟩ := Lane.push0_pushed grow b.lane0 data
      simp only [if_pos hzero, hpush]
      exact ⟨l, entered, err, hpushed, rfl⟩
    · obtain ⟨l, entered, err, hpush, hpushed⟩ := Lane.push1_pushed grow b.lane1 data
      simp only [if_neg hzero, hpush]
      exact ⟨l, entered, err, hpushed, rfl⟩
  obtain ⟨l, entered, err, hpushed, henqueue⟩ := hset
  have hlane : (b.setLane fromID l).lane fromID = l := lane_setLane Iff.rfl
  refine ⟨_, entered, henqueue, ⟨err, ?_⟩, fun d hd => ?_, ?_, ?_, ?_⟩
  · rw [← hlane] at hpushed
    exact hpushed
  · exact lane_setLane_other hd
  · exact setLane_conn0
  · exact setLane_conn1
  · exact setLane_made

/-- `Tick` hands over at most the first packet of each direction, not on a closed channel. -/
theorem deliver_eq (b : Bridge) (waiting0 waiting1 : Bool)
    (h0 : b.conn0.readChClosed = true → b.conn0.closed = true)
    (h1 : b.conn1.readChClosed = true → b.conn1.closed = true) :
    ∃ queue0 queue1 handed, b.deliver waiting0 waiting1 = some
        ({ b with lane0 := { b.lane0 with queue := queue0 },
                  lane1 := { b.lane1 with queue := queue1 } }, handed) ∧
      (b.lane0.queue.items = handed.to1.toList ++ queue0.items ∧
        (handed.to1 ≠ none → b.conn1.readChClosed = false)) ∧
      (b.lane1.queue.items = handed.to0.toList ++ queue1.items ∧
        (handed.to0 ≠ none → b.conn0.readChClosed = false)) := by
  obtain ⟨queue0, to1, hdeliver0, hto1⟩ := b.lane0.deliver_eq waiting1 h1
  obtain ⟨queue1, to0, hdeliver1, hto0⟩ := b.lane1.deliver_eq waiting0 h0
  refine ⟨queue0, queue1, ⟨to0, to1⟩, ?_, hto1, hto0⟩
  simp only [deliver, hdeliver0, hdeliver1, Option.bind_eq_bind, Option.bind_some, Option.pure_def]

end Bridge

end PionTransport.Bridges
