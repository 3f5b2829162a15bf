import Mathlib.Data.List.Nodup
import PionTransport.Bridges.Effects
import PionTransport.Core.Run

/-!
# Groups of packets in reverse order

After a request for `n` packets the next `n` pushes of its direction wait on a stack and
enter the queue together, the last one first. The stack is not cleared afterwards, so a
second group of the same direction would bring the first one along. Where a request finds
the stack empty, or changes one that is in progress, every packet enters the queue at
most once and every group is exactly the one requested.
-/

namespace PionTransport.Bridges

open PionTransport.Core Bridge

namespace Op

/-- The calls on a bridge that nobody closes and nobody takes packets from; a group has at least
two packets. -/
def Plain : Op → Prop
  | push _ _ | reorder _ | dropNextNWrites _ _ | filter _ _ | tick _ _ => True
  | reorderNextNWrites _ n => 2 ≤ n
  | drop _ _ _ | close _ => False

instance : DecidablePred Plain
  | push _ _ | reorder _ | dropNextNWrites _ _ | filter _ _ | tick _ _ => isTrue trivial
  | reorderNextNWrites _ n => Int.decLe 2 n
  | drop _ _ _ | close _ => isFalse not_false

/-- A push in a direction. -/
def pushesTo (d : Int) : Op → Bool
  | push _ fromID => decide (SameWay d fromID)
  | _ => false

/-- A request for the next packets of a direction. -/
def Requests (d : Int) : Op → Prop
  | dropNextNWrites fromID _ | reorderNextNWrites fromID _ => SameWay d fromID
  | _ => False

end Op

/-- The packets that the pushes of one direction have made, and those that have entered its
queue. -/
structure History where
  made : List Packet := []
  entered : List Packet := []

/-- Record a call. -/
def History.record (d : Int) (h : History) : Op → Outcome → History
  | .push _ fromID, .pushed data _ entered =>
    if SameWay d fromID then ⟨h.made ++ [data], h.entered ++ entered⟩ else h
  | _, _ => h

/-- The history of one direction in a run. -/
def history (d : Int) (ops : List Op) (outcomes : List Outcome) : History :=
  chronicle (History.record d) {} ops outcomes

namespace Bridge

/-- No endpoint was closed. -/
def Quiet (b : Bridge) : Prop := b.conn0 = {} ∧ b.conn1 = {}

/-- What a plain call does to one direction. -/
inductive Effect (grow : Nat → Nat → Nat) (d : Int) (b : Bridge) : Op → Outcome → Bridge → Prop
  | push {packet : List UInt8} {fromID : Int} {entered : List Packet} {b' : Bridge}
      (hd : SameWay d fromID) (hmade : b'.made = b.made + 1)
      (hpushed : ∃ err, Lane.Pushed grow (b.lane d) ⟨b.made + 1, packet⟩ (b'.lane d) entered err) :
      Effect grow d b (.push packet fromID) (.pushed ⟨b.made + 1, packet⟩ true entered) b'
  | dropNext {fromID n : Int} {b' : Bridge} (hd : SameWay d fromID) (hmade : b'.made = b.made)
      (hlane : b'.lane d = { b.lane d with dropNWrites := n }) :
      Effect grow d b (.dropNextNWrites fromID n) .done b'
  | reorderNext {fromID n : Int} {b' : Bridge} (hd : SameWay d fromID) (hmade : b'.made = b.made)
      (hlane : b'.lane d = { b.lane d with reorderNWrites := n }) :
      Effect grow d b (.reorderNextNWrites fromID n) .done b'
  /-- the counters and the stack do not change -/
  | other {op : Op} {o : Outcome} {b' : Bridge} (hmade : b.made ≤ b'.made)
      (hlane : ∃ queue cb, b'.lane d = { b.lane d with queue := queue, filterCB := cb })
      (hpush : op.pushesTo d = false) : Effect grow d b op o b'

variable {grow : Nat → Nat → Nat} {b b' : Bridge} {d n : Int} {op : Op} {o : Outcome} {h : History}

theorem record_other (h : History) (hpush : op.pushesTo d = false) : h.record d op o = h := by
  unfold History.record
  split
  · exact if_neg (of_decide_eq_false hpush)
  · rfl

theorem push_effect (grow : Nat → Nat → Nat) (hquiet : b.Quiet) (packet : List UInt8)
    (fromID : Int) :
    ∃ b' o, b.step grow (.push packet fromID) = some (b', o) ∧ b'.Quiet ∧
      ∀ d, Effect grow d b (.push packet fromID) o b' := by
  obtain ⟨b', entered, henqueue, henqueued⟩ :=
    enqueue_enqueued grow (b.make packet).1 (b.make packet).2 fromID
  obtain ⟨err, hpushed⟩ := henqueued.lane
  have hrefuses : (b.make packet).1.refuses fromID = none := by
    simp [make, refuses, hquiet.1, hquiet.2]
  have hentered : b.entered b' fromID = entered := by
    have hitems : (b'.lane fromID).queue.items = (b.lane fromID).queue.items ++ entered :=
      hpushed.items
    rw [Bridge.entered, hitems, List.drop_left]
  refine ⟨b', .pushed (b.make packet).2 true entered, ?_, ?_, fun d => ?_⟩
  · simp only [step, push, hrefuses, henqueue, Option.map_some, hentered]
  · exact ⟨henqueued.conn0.trans hquiet.1, henqueued.conn1.trans hquiet.2⟩
  · by_cases hd : SameWay d fromID
    · refine .push hd henqueued.made ⟨err, ?_⟩
      rw [lane_congr hd, lane_congr hd]
      exact hpushed
    · refine .other ?_ ⟨_, _, henqueued.other d hd⟩ (decide_eq_false hd)
      rw [henqueued.made]
      exact Nat.le_succ b.made

/-- A call that sets fields of one direction. -/
theorem setLane_effect {fromID : Int} {l : Lane} (hquiet : b.Quiet)
    (hsame : ∀ d, SameWay d fromID → Effect grow d b op o (b.setLane fromID l))
    (hpush : ∀ d, op.pushesTo d = false) :
    (b.setLane fromID l).Quiet ∧ ∀ d, Effect grow d b op o (b.setLane fromID l) := by
  refine ⟨⟨setLane_conn0.trans hquiet.1, setLane_conn1.trans hquiet.2⟩, fun d => ?_⟩
  by_cases hd : SameWay d fromID
  · exact hsame d hd
  · exact .other (Nat.le_of_eq setLane_made.symm) ⟨_, _, lane_setLane_other hd⟩ (hpush d)

theorem tick_effect (hquiet : b.Quiet) (waiting0 waiting1 : Bool) :
    ∃ b' o, b.step grow (.tick waiting0 waiting1) = some (b', o) ∧ b'.Quiet ∧
      ∀ d, Effect grow d b (.tick waiting0 waiting1) o b' := by
  obtain ⟨conn0, conn1⟩ := hquiet
  obtain ⟨queue0, queue1, handed, hdeliver, -, -⟩ := b.deliver_eq waiting0 waiting1
    (by rw [conn0]; nofun) (by rw [conn1]; nofun)
  have hfinish0 : b.finish0 = some b := by
    rw [finish0, Conn.finish_open (by rw [conn0])]
    rfl
  have hfinish1 : b.finish1 = some b := by
    rw [finish1, Conn.finish_open (by rw [conn1])]
    rfl
  refine ⟨{ b with lane0 := { b.lane0 with queue := queue0 },
                   lane1 := { b.lane1 with queue := queue1 } }, .ticked handed.n handed, ?_,
    ⟨conn0, conn1⟩, fun d => .other (Nat.le_refl _) ?_ rfl⟩
  · simp only [step, tick, hfinish0, hfinish1, hdeliver, Option.bind_eq_bind, Option.bind_some,
      Option.map_some]
  · by_cases hd : d = 0
    · rw [lane_of_zero hd, lane_of_zero hd]
      exact ⟨_, _, rfl⟩
    · rw [lane_of_ne_zero hd, lane_of_ne_zero hd]
      exact ⟨_, _, rfl⟩

/-- A plain call does not panic and does to each direction what is said above. -/
theorem step_effect (grow : Nat → Nat → Nat) (hquiet : b.Quiet) (hplain : op.Plain) :
    ∃ b' o, b.step grow op = some (b', o) ∧ b'.Quiet ∧ ∀ d, Effect grow d b op o b' := by
  cases op with
  | push packet fromID => exact push_effect grow hquiet packet fromID
  | reorder fromID =>
    obtain ⟨items, err, hinverse, -⟩ := inverse_perm (b.lane fromID).queue.items
    refine ⟨b.setLane fromID
        { b.lane fromID with queue := { (b.lane fromID).queue with items := items } },
      .reordered err, ?_, setLane_effect hquiet (fun d hd => ?_) fun _ => rfl⟩
    · simp only [step, reorder, hinverse, Option.map_some]
    · apply Effect.other (Nat.le_of_eq setLane_made.symm) _ rfl
      rw [lane_setLane hd, lane_congr hd]
      exact ⟨_, _, rfl⟩
  | drop | close => exact hplain.elim
  | dropNextNWrites fromID n =>
    refine ⟨_, _, rfl, setLane_effect hquiet (fun d hd => ?_) fun _ => rfl⟩
    apply Effect.dropNext hd setLane_made
    rw [lane_setLane hd, lane_congr hd]
  | reorderNextNWrites fromID n =>
    refine ⟨_, _, rfl, setLane_effect hquiet (fun d hd => ?_) fun _ => rfl⟩
    apply Effect.reorderNext hd setLane_made
    rw [lane_setLane hd, lane_congr hd]
  | filter fromID cb =>
    refine ⟨_, _, rfl, setLane_effect hquiet (fun d hd => ?_) fun _ => rfl⟩
    apply Effect.other (Nat.le_of_eq setLane_made.symm) _ rfl
    rw [lane_setLane hd, lane_congr hd]
    exact ⟨_, _, rfl⟩
  | tick waiting0 waiting1 => exact tick_effect hquiet waiting0 waiting1

/-- A request finds no packets of an earlier group on the stack, or changes a group in progress. -/
def Fresh (b : Bridge) : Op → Prop
  | .reorderNextNWrites fromID _ =>
    (b.lane fromID).stack = [] ∨ 0 < (b.lane fromID).reorderNWrites
  | _ => True

instance (b : Bridge) (op : Op) : Decidable (b.Fresh op) :=
  match op with
  | .reorderNextNWrites fromID _ =>
    have : Decidable (0 < (b.lane fromID).reorderNWrites) := Int.decLt 0 _
    inferInstanceAs (Decidable ((b.lane fromID).stack = [] ∨ 0 < (b.lane fromID).reorderNWrites))
  | .push _ _ | .reorder _ | .drop _ _ _ | .dropNextNWrites _ _ | .filter _ _ | .tick _ _
  | .close _ => isTrue trivial

section Once

/-- What has entered is new, and so is what waits on the stack. -/
theorem nodup_of_pushed {l l' : Lane} {data : Packet} {entered before : List Packet}
    {err : Option BridgeError} (hpushed : Lane.Pushed grow l data l' entered err)
    (hbefore : before.Nodup) (hwaiting : 0 < l.reorderNWrites → (before ++ l.stack).Nodup)
    (hnew : data ∉ before ++ l.stack) :
    (before ++ entered).Nodup ∧
      (0 < l'.reorderNWrites → (before ++ entered ++ l'.stack).Nodup) := by
  have hnew' : data ∉ before := fun hmem => hnew (List.mem_append_left _ hmem)
  have hone : (before ++ [data]).Nodup := by
    rw [← List.concat_eq_append]
    exact List.Nodup.concat hnew' hbefore
  have hnothing : (before ++ []).Nodup := by rwa [List.append_nil]
  cases hpushed with
  | dropped | filtered =>
    refine ⟨hnothing, ?_⟩
    rwa [List.append_nil]
  | held hdrop hreorder =>
    refine ⟨hnothing, fun _ => ?_⟩
    have hwaiting' := List.Nodup.concat hnew (hwaiting (by omega))
    rw [List.concat_eq_append, List.append_assoc] at hwaiting'
    rw [List.append_nil]
    exact hwaiting'
  | released hdrop hreorder hstack =>
    have hgroup := List.Nodup.concat hnew (hwaiting (by omega))
    rw [List.concat_eq_append, List.append_assoc] at hgroup
    refine ⟨?_, fun h => absurd h (Int.lt_irrefl 0)⟩
    exact ((List.reverse_perm _).append_left before).nodup_iff.mpr hgroup
  | lost => exact ⟨hnothing, fun h => absurd h (Int.lt_irrefl 0)⟩
  | lone => exact ⟨hone, fun h => absurd h (Int.lt_irrefl 0)⟩
  | routed hdrop hreorder => exact ⟨hone, fun h => absurd h (Int.not_lt.mpr hreorder)⟩

/-- Every packet of a direction has entered at most once, and those on the stack of a group in
progress not at all. -/
structure Once (d : Int) (b : Bridge) (h : History) : Prop where
  made : h.made.Nodup
  numbered : ∀ p ∈ h.made, p.id ≤ b.made
  entered : h.entered.Nodup
  entered_made : h.entered ⊆ h.made
  stack_made : (b.lane d).stack ⊆ h.made
  waiting : 0 < (b.lane d).reorderNWrites → (h.entered ++ (b.lane d).stack).Nodup

theorem once_newBridge (d : Int) : Once d newBridge {} := by
  have hlane : newBridge.lane d = {} := by
    unfold lane newBridge
    split <;> rfl
  refine ⟨.nil, nofun, .nil, List.Subset.refl _, ?_, ?_⟩
  · rw [hlane]
    exact List.Subset.refl _
  · rw [hlane]
    nofun

/-- A push of the direction. -/
theorem Once.push (honce : Once d b h) {data : Packet} {entered : List Packet}
    {err : Option BridgeError} (hid : data.id = b.made + 1) (hmade : b'.made = b.made + 1)
    (hpushed : Lane.Pushed grow (b.lane d) data (b'.lane d) entered err) :
    Once d b' ⟨h.made ++ [data], h.entered ++ entered⟩ := by
  have hnew : data ∉ h.made := by
    intro hmem
    have := honce.numbered _ hmem
    omega
  have hnew' : data ∉ h.entered ++ (b.lane d).stack := by
    intro hmem
    rcases List.mem_append.mp hmem with hentered | hstack
    · exact hnew (honce.entered_made hentered)
    · exact hnew (honce.stack_made hstack)
  have hgrow : (b.lane d).stack ++ [data] ⊆ h.made ++ [data] := by
    apply List.append_subset.mpr
    exact ⟨List.subset_append_of_subset_left _ honce.stack_made, List.subset_append_right _ _⟩
  obtain ⟨hentered, hstack⟩ := hpushed.subset
  obtain ⟨hnodup, hwaiting⟩ := nodup_of_pushed hpushed honce.entered honce.waiting hnew'
  constructor
  · rw [← List.concat_eq_append]
    exact List.Nodup.concat hnew honce.made
  · intro p hp
    rw [hmade]
    rcases List.mem_append.mp hp with hold | hlast
    · exact Nat.le_succ_of_le (honce.numbered p hold)
    · rw [List.mem_singleton.mp hlast]
      exact Nat.le_of_eq hid
  · exact hnodup
  · apply List.append_subset.mpr
    exact ⟨List.subset_append_of_subset_left _ honce.entered_made, List.Subset.trans hentered hgrow⟩
  · exact List.Subset.trans hstack hgrow
  · exact hwaiting

/-- A call that pushes nothing in the direction and leaves its stack. -/
theorem Once.idle (honce : Once d b h) (hmade : b.made ≤ b'.made)
    (hstack : (b'.lane d).stack = (b.lane d).stack)
    (hwaiting : 0 < (b'.lane d).reorderNWrites → (h.entered ++ (b.lane d).stack).Nodup) :
    Once d b' h where
  made := honce.made
  numbered p hp := Nat.le_trans (honce.numbered p hp) hmade
  entered := honce.entered
  entered_made := honce.entered_made
  stack_made := hstack ▸ honce.stack_made
  waiting := hstack ▸ hwaiting

theorem Once.step (honce : Once d b h) (hfresh : b.Fresh op) (heffect : Effect grow d b op o b') :
    Once d b' (h.record d op o) := by
  cases heffect with
  | push hd hmade hpushed =>
    obtain ⟨err, hpushed⟩ := hpushed
    rw [History.record, if_pos hd]
    exact honce.push rfl hmade hpushed
  | dropNext hd hmade hlane =>
    apply honce.idle (Nat.le_of_eq hmade.symm)
    · rw [hlane]
    · rw [hlane]
      exact honce.waiting
  | reorderNext hd hmade hlane =>
    apply honce.idle (Nat.le_of_eq hmade.symm)
    · rw [hlane]
    · intro _
      rcases hfresh with hempty | hprogress
      · rw [lane_congr hd, hempty, List.append_nil]
        exact honce.entered
      · rw [← lane_congr hd] at hprogress
        exact honce.waiting hprogress
  | other hmade hlane hpush =>
    obtain ⟨queue, cb, hlane⟩ := hlane
    rw [record_other h hpush]
    apply honce.idle hmade
    · rw [hlane]
    · rw [hlane]
      exact honce.waiting

end Once

section Group

/-- A group of `n` packets is being collected. -/
structure Collecting (d n : Int) (b : Bridge) (h : History) : Prop where
  drops : (b.lane d).dropNWrites ≤ 0
  remaining : (b.lane d).reorderNWrites = n - h.made.length
  stack : (b.lane d).stack = h.made
  entered : h.entered = []

theorem Collecting.push (hcollect : Collecting d n b h) {data : Packet} {entered : List Packet}
    {err : Option BridgeError} (hmore : ((h.made.length + 1 : Nat) : Int) < n)
    (hpushed : Lane.Pushed grow (b.lane d) data (b'.lane d) entered err) :
    Collecting d n b' ⟨h.made ++ [data], h.entered ++ entered⟩ := by
  obtain ⟨hdrops, hremaining, hstack, hentered⟩ := hcollect
  generalize hl' : b'.lane d = l' at hpushed
  cases hpushed with
  | held hdrop hreorder =>
    constructor
    · rw [hl']
      exact hdrops
    · rw [hl', List.length_append, List.length_singleton]
      simp only [hremaining]
      omega
    · rw [hl']
      simp only [hstack]
    · rw [hentered, List.append_nil]
  | dropped | released | lost | lone | filtered | routed => omega

theorem Collecting.step (hcollect : Collecting d n b h) (hrequest : ¬ op.Requests d)
    (hmore : ((h.made.length + if op.pushesTo d then 1 else 0 : Nat) : Int) < n)
    (heffect : Effect grow d b op o b') : Collecting d n b' (h.record d op o) := by
  cases heffect with
  | push hd hmade hpushed =>
    obtain ⟨err, hpushed⟩ := hpushed
    rw [Op.pushesTo, if_pos (decide_eq_true hd)] at hmore
    rw [History.record, if_pos hd]
    exact hcollect.push hmore hpushed
  | dropNext hd | reorderNext hd => exact (hrequest hd).elim
  | other hmade hlane hpush =>
    obtain ⟨queue, cb, hlane⟩ := hlane
    rw [record_other h hpush]
    constructor
    · rw [hlane]
      exact hcollect.drops
    · rw [hlane]
      exact hcollect.remaining
    · rw [hlane]
      exact hcollect.stack
    · exact hcollect.entered

theorem length_record (heffect : Effect grow d b op o b') :
    (h.record d op o).made.length = h.made.length + if op.pushesTo d then 1 else 0 := by
  cases heffect with
  | push hd =>
    rw [History.record, if_pos hd, Op.pushesTo, if_pos (decide_eq_true hd), List.length_append,
      List.length_singleton]
  | dropNext | reorderNext => rfl
  | other hmade hlane hpush => rw [record_other h hpush, hpush, if_neg (by decide), Nat.add_zero]

/-- Fewer than `n` pushes are collected. -/
theorem run_collecting {ops : List Op} (hquiet : b.Quiet) (hplain : ∀ op ∈ ops, op.Plain)
    (hrequest : ∀ op ∈ ops, ¬ op.Requests d) (hcollect : Collecting d n b h)
    (hmore : ((h.made.length + ops.countP (Op.pushesTo d) : Nat) : Int) < n) :
    ∃ b' os, run (step grow) b ops = some (b', os) ∧ b'.Quiet ∧
      Collecting d n b' (chronicle (History.record d) h ops os) ∧
      (chronicle (History.record d) h ops os).made.length =
        h.made.length + ops.countP (Op.pushesTo d) := by
  induction ops generalizing b h with
  | nil => exact ⟨b, [], rfl, hquiet, hcollect, rfl⟩
  | cons op ops ih =>
    obtain ⟨b₁, o, hstep, hquiet₁, heffect⟩ :=
      step_effect grow hquiet (hplain op List.mem_cons_self)
    have hlength := length_record (h := h) (heffect d)
    rw [List.countP_cons] at hmore
    have hcollect₁ : Collecting d n b₁ (h.record d op o) := by
      apply hcollect.step (hrequest op List.mem_cons_self) _ (heffect d)
      omega
    obtain ⟨b', os, hrun, hquiet', hcollect', hlength'⟩ :=
      ih hquiet₁ (fun op hop => hplain op (List.mem_cons_of_mem _ hop))
        (fun op hop => hrequest op (List.mem_cons_of_mem _ hop)) hcollect₁ (by omega)
    refine ⟨b', o :: os, run_cons_some hstep hrun, hquiet', hcollect', ?_⟩
    · refine hlength'.trans ?_
      rw [List.countP_cons, hlength]
      omega

/-- The last push releases the group. -/
theorem Collecting.release (hcollect : Collecting d n b h) {data : Packet} {entered : List Packet}
    {err : Option BridgeError} (hlast : (h.made.length : Int) + 1 = n) (hn : 2 ≤ n)
    (hpushed : Lane.Pushed grow (b.lane d) data (b'.lane d) entered err) :
    (b'.lane d).queue.items = (b.lane d).queue.items ++ (h.made ++ [data]).reverse := by
  obtain ⟨hdrops, hremaining, hstack, -⟩ := hcollect
  rw [hpushed.items]
  generalize b'.lane d = l' at hpushed
  cases hpushed with
  | released => rw [hstack]
  | lost hdrop hreorder hempty | lone hdrop hreorder hempty =>
    rw [← hstack, hempty] at hlast
    simp only [List.length_nil] at hlast
    omega
  | dropped | held | filtered | routed => omega

/-- After a request for `n` packets and some calls the next push is the `n`-th, and puts the `n`
packets into the queue in reverse order; none of them has entered before. -/
def Reverses (grow : Nat → Nat → Nat) (b : Bridge) (d n : Int) (during : List Op)
    (packet : List UInt8) (fromID : Int) : Prop :=
  ∃ b₁ os b₂ o, run (step grow) b (.reorderNextNWrites d n :: during) = some (b₁, os) ∧
    b₁.step grow (.push packet fromID) = some (b₂, o) ∧
    (history d (.reorderNextNWrites d n :: during) os).entered = [] ∧
    (b₂.lane d).queue.items = (b₁.lane d).queue.items ++
      ((history d (.reorderNextNWrites d n :: during) os).made ++ [(b₁.make packet).2]).reverse

theorem reverses_of_fresh {during : List Op} {packet : List UInt8} {fromID : Int}
    (hquiet : b.Quiet) (hfresh : b.Fresh (.reorderNextNWrites d n))
    (hidle : (b.lane d).reorderNWrites ≤ 0) (hdrops : (b.lane d).dropNWrites ≤ 0) (hn : 2 ≤ n)
    (hplain : ∀ op ∈ during, op.Plain) (hrequest : ∀ op ∈ during, ¬ op.Requests d)
    (hcount : (during.countP (Op.pushesTo d) : Int) + 1 = n) (hd : SameWay d fromID) :
    Reverses grow b d n during packet fromID := by
  have hstack : (b.lane d).stack = [] := by
    rcases hfresh with hempty | hprogress
    · exact hempty
    · exact absurd hprogress (Int.not_lt.mpr hidle)
  obtain ⟨b₀, o₀, hstep₀, hquiet₀, heffect₀⟩ :=
    step_effect grow hquiet (show (Op.reorderNextNWrites d n).Plain from hn)
  obtain ⟨rfl, rfl⟩ := Prod.mk.inj (Option.some.inj hstep₀)
  have hcollect : Collecting d n (b.reorderNextNWrites d n) {} := by
    have hlane : (b.reorderNextNWrites d n).lane d = { b.lane d with reorderNWrites := n } :=
      lane_setLane Iff.rfl
    constructor
    · rw [hlane]
      exact hdrops
    · rw [hlane]
      exact (Int.sub_zero n).symm
    · rw [hlane]
      exact hstack
    · rfl
  obtain ⟨b₁, os, hrun, hquiet₁, hcollect₁, hlength⟩ :=
    run_collecting hquiet₀ hplain hrequest hcollect (by simp only [List.length_nil]; omega)
  obtain ⟨b₂, o, hstep, -, heffect⟩ :=
    step_effect grow hquiet₁ (show (Op.push packet fromID).Plain from trivial)
  refine ⟨b₁, .done :: os, b₂, o, run_cons_some hstep₀ hrun, hstep, hcollect₁.entered, ?_⟩
  · generalize ho : Op.push packet fromID = op at heffect
    cases heffect d with
    | push _ _ hpushed =>
      cases ho
      obtain ⟨err, hpushed⟩ := hpushed
      apply hcollect₁.release _ hn hpushed
      rw [hlength]
      simp only [List.length_nil]
      omega
    | dropNext | reorderNext => cases ho
    | other _ _ hpush =>
      subst ho
      exact absurd hd (of_decide_eq_false hpush)

end Group

theorem run_once (grow : Nat → Nat → Nat) {ops : List Op} (hplain : ∀ op ∈ ops, op.Plain)
    (hfresh : Along (step grow) Fresh newBridge ops) (d : Int) :
    ∃ b outcomes, run (step grow) newBridge ops = some (b, outcomes) ∧ b.Quiet ∧
      Once d b (history d ops outcomes) := by
  have hboth : Along (step grow) (fun b op => op.Plain ∧ b.Fresh op) newBridge ops :=
    (along_of_mem (fun op hop _ => hplain op hop) newBridge).and hfresh
  refine run_keeps_history_along (R := fun b h => b.Quiet ∧ Once d b h)
    (fun b h op hop hinv => ?_) hboth ⟨⟨rfl, rfl⟩, once_newBridge d⟩
  obtain ⟨b', o, hstep, hquiet, heffect⟩ := step_effect grow hinv.1 hop.1
  exact ⟨b', o, hstep, hquiet, hinv.2.step hop.2 (heffect d)⟩

/-- In every run whose requests are fresh, no packet enters its queue twice, and a request that is
made with no reordering in progress and no drops pending reverses exactly the next `n` packets of
its direction. -/
theorem packets_enter_once_and_reversed (grow : Nat → Nat → Nat) {ops : List Op}
    (hplain : ∀ op ∈ ops, op.Plain) (hfresh : Along (step grow) Fresh newBridge ops) :
    ∃ b outcomes, run (step grow) newBridge ops = some (b, outcomes) ∧
      (∀ d, (history d ops outcomes).made.Nodup ∧ (history d ops outcomes).entered.Nodup ∧
        (history d ops outcomes).entered ⊆ (history d ops outcomes).made) ∧
      ∀ before d n during packet fromID,
        before ++ .reorderNextNWrites d n :: (during ++ [.push packet fromID]) <+: ops →
        ∃ b₁ os, run (step grow) newBridge before = some (b₁, os) ∧
          ((b₁.lane d).reorderNWrites ≤ 0 → (b₁.lane d).dropNWrites ≤ 0 →
            (∀ op ∈ during, ¬ op.Requests d) → (during.countP (Op.pushesTo d) : Int) + 1 = n →
            SameWay d fromID → Reverses grow b₁ d n during packet fromID) := by
  obtain ⟨b, outcomes, hrun, -, -⟩ := run_once grow hplain hfresh 0
  refine ⟨b, outcomes, hrun, fun d => ?_, fun before d n during packet fromID hprefix => ?_⟩
  · obtain ⟨b', outcomes', hrun', -, honce⟩ := run_once grow hplain hfresh d
    rw [hrun] at hrun'
    obtain ⟨rfl, rfl⟩ := Prod.mk.inj (Option.some.inj hrun')
    exact ⟨honce.made, honce.entered, honce.entered_made⟩
  · obtain ⟨after, rfl⟩ := hprefix
    rw [List.append_assoc] at hplain hfresh hrun
    obtain ⟨b₁, os, os', hbefore, -, -⟩ := run_append_inv hrun
    obtain ⟨hfresh₁, hfresh₂⟩ := along_append hfresh hbefore
    have hplain₁ : ∀ op ∈ before, op.Plain := fun op hop => hplain op (List.mem_append_left _ hop)
    obtain ⟨b₁', os₁, hrun₁, hquiet, -⟩ := run_once grow hplain₁ hfresh₁ d
    rw [hbefore] at hrun₁
    obtain ⟨rfl, rfl⟩ := Prod.mk.inj (Option.some.inj hrun₁)
    refine ⟨b₁, os, hbefore, fun hidle hdrops hrequest hcount hd => ?_⟩
    have hn : (Op.reorderNextNWrites d n).Plain := by
      apply hplain
      exact List.mem_append_right _ List.mem_cons_self
    have hduring : ∀ op ∈ during, op.Plain := by
      intro op hop
      apply hplain
      apply List.mem_append_right
      rw [List.cons_append, List.append_assoc]
      exact List.mem_cons_of_mem _ (List.mem_append_left _ hop)
    exact reverses_of_fresh hquiet hfresh₂.1 hidle hdrops hn hduring hrequest hcount hd

/-- A group of two packets with a packet of the other direction in between. -/
theorem group_of_two_reversed :
    Reverses (fun _ _ => 0) (newBridge.reorderNextNWrites 1 4) 0 2 [.push [1] 0, .push [9] 1] [2]
      0 := by
  obtain ⟨_, _, _, _, hgroup⟩ := packets_enter_once_and_reversed (fun _ _ => 0)
    (show ∀ op ∈ [Op.reorderNextNWrites 1 4, .reorderNextNWrites 0 2, .push [1] 0, .push [9] 1,
      .push [2] 0], op.Plain by decide) (by decide)
  obtain ⟨b₁, os, hrun, hreverses⟩ := hgroup [.reorderNextNWrites 1 4] 0 2
    [.push [1] 0, .push [9] 1] [2] 0 ⟨[], rfl⟩
  obtain ⟨rfl, rfl⟩ := Prod.mk.inj (Option.some.inj hrun)
  exact hreverses (by decide) (by decide) (by simp [Op.Requests]) rfl Iff.rfl

/-- Two groups of two packets in the same direction. -/
def twoGroups : List Op :=
  [.reorderNextNWrites 0 2, .push [1] 0, .push [2] 0, .reorderNextNWrites 0 2, .push [3] 0,
    .push [4] 0]

/-- The second group brings the first one along. -/
theorem second_group_repeats_first :
    (∀ op ∈ twoGroups, op.Plain) ∧
    (∃ b outcomes, run (step fun _ _ => 0) newBridge twoGroups = some (b, outcomes) ∧
      (b.lane 0).queue.items.map (·.bytes) = [[2], [1], [4], [3], [1], [2]] ∧
      ¬ (history 0 twoGroups outcomes).entered.Nodup) ∧
    ∃ b₁ os, run (step fun _ _ => 0) newBridge (twoGroups.take 3) = some (b₁, os) ∧
      (b₁.lane 0).reorderNWrites = 0 ∧ (b₁.lane 0).dropNWrites = 0 ∧
      ¬ Reverses (fun _ _ => 0) b₁ 0 2 [.push [3] 0] [4] 0 := by
  refine ⟨by decide, ⟨_, _, rfl, rfl, by decide⟩, _, _, rfl, rfl, rfl, ?_⟩
  rintro ⟨b₁, os, b₂, o, hrun, hstep, -, hitems⟩
  cases hrun
  cases hstep
  revert hitems
  decide

end Bridge

end PionTransport.Bridges
