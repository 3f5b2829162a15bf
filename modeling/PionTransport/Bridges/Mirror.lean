import PionTransport.Bridges.Effects
import PionTransport.Core.Run

/-!
# The two directions as mirror images

Exchanging the endpoints in every call exchanges the two halves of the bridge. There is
one exception: a group of a single packet cannot be reversed; from endpoint 0 the packet
is lost and from endpoint 1 it is routed. In every run without such a group the mirrored
calls give the mirrored state and results.
-/

namespace PionTransport.Bridges

open PionTransport.Core

/-- The other endpoint. -/
def swapID (id : Int) : Int := 1 - id

/-- An endpoint of the bridge. -/
def IsEnd (id : Int) : Prop := id = 0 ∨ id = 1

instance : DecidablePred IsEnd := fun id => inferInstanceAs (Decidable (id = 0 ∨ id = 1))

namespace Op

/-- The call with its endpoints exchanged. -/
def swap : Op → Op
  | push packet fromID => push packet (swapID fromID)
  | reorder fromID => reorder (swapID fromID)
  | drop fromID offset n => drop (swapID fromID) offset n
  | dropNextNWrites fromID n => dropNextNWrites (swapID fromID) n
  | reorderNextNWrites fromID n => reorderNextNWrites (swapID fromID) n
  | filter fromID cb => filter (swapID fromID) cb
  | tick waiting0 waiting1 => tick waiting1 waiting0
  | close id => close (swapID id)

/-- The call names endpoints of the bridge. -/
def Ends : Op → Prop
  | push _ id | reorder id | drop id _ _ | dropNextNWrites id _ | reorderNextNWrites id _
  | filter id _ | close id => IsEnd id
  | tick _ _ => True

instance : DecidablePred Ends := fun op => by
  cases op <;> unfold Ends <;> infer_instance

end Op

/-- What was handed over, with the endpoints exchanged. -/
def Bridge.Handed.swap (h : Bridge.Handed) : Bridge.Handed := ⟨h.to1, h.to0⟩

/-- The outcome with the endpoints exchanged. -/
def Outcome.swap : Outcome → Outcome
  | ticked n handed => ticked n handed.swap
  | pushed data ok entered => pushed data ok entered
  | reordered err => reordered err
  | done => done
  | closed err => closed err

namespace Bridge

variable {grow : Nat → Nat → Nat} {b b' : Bridge} {id : Int} {op : Op}

/-- The bridge seen from the other side. -/
def swap (b : Bridge) : Bridge :=
  { b with conn0 := b.conn1, conn1 := b.conn0, lane0 := b.lane1, lane1 := b.lane0 }

theorem swap_one : swapID 1 = 0 := rfl

theorem lane_swap (b : Bridge) (hid : IsEnd id) : b.swap.lane (swapID id) = b.lane id := by
  rcases hid with rfl | rfl <;> rfl

theorem setLane_swap (b : Bridge) (hid : IsEnd id) (l : Lane) :
    b.swap.setLane (swapID id) l = (b.setLane id l).swap := by
  rcases hid with rfl | rfl <;> rfl

theorem refuses_swap (b : Bridge) (hid : IsEnd id) : b.swap.refuses (swapID id) = b.refuses id := by
  unfold refuses swap
  cases b.conn0.closing <;> cases b.conn1.closing <;> rcases hid with rfl | rfl <;> rfl

theorem entered_swap (b b' : Bridge) (hid : IsEnd id) :
    b.swap.entered b'.swap (swapID id) = b.entered b' id := by
  unfold entered
  rw [lane_swap b hid, lane_swap b' hid]

theorem close_swap (b : Bridge) (hid : IsEnd id) :
    b.swap.close (swapID id) = Prod.map swap (fun err => err) (b.close id) := by
  rcases hid with rfl | rfl <;> rfl

section Push

variable {l : Lane} {data : Packet}

/-- Only a group of one packet tells the two directions apart. -/
theorem push_release_eq
    (h : l.dropNWrites ≤ 0 → l.reorderNWrites = 1 → l.stack ≠ []) :
    l.push grow (Lane.release0 grow) data = l.push grow (Lane.release1 grow) data := by
  unfold Lane.push
  by_cases hdrop : l.dropNWrites > 0
  · rw [if_pos hdrop, if_pos hdrop]
  rw [if_neg hdrop, if_neg hdrop]
  by_cases hreorder : l.reorderNWrites > 0
  · rw [if_pos hreorder, if_pos hreorder]
    by_cases hlast : l.reorderNWrites - 1 = 0
    · have hstack := h (Int.not_lt.mp hdrop) (by omega)
      have hlength : 2 ≤ (l.stack ++ [data]).length := by
        have := List.length_pos_iff.mpr hstack
        rw [List.length_append, List.length_singleton]
        omega
      simp only [if_pos hlast]
      rw [Lane.release0_group hlength, Lane.release1_group hlength]
    · simp only [if_neg hlast]
  · rw [if_neg hreorder, if_neg hreorder]

theorem enqueue_swap (hid : IsEnd id)
    (h : (b.lane id).dropNWrites ≤ 0 → (b.lane id).reorderNWrites = 1 → (b.lane id).stack ≠ []) :
    b.swap.enqueue grow data (swapID id) = (b.enqueue grow data id).map swap := by
  rcases hid with rfl | rfl
  · have heq : b.lane0.push grow (Lane.release0 grow) data =
        b.lane0.push grow (Lane.release1 grow) data := push_release_eq h
    unfold enqueue
    rw [if_pos rfl, if_neg (by decide), heq, Option.map_map]
    rfl
  · have heq : b.lane1.push grow (Lane.release0 grow) data =
        b.lane1.push grow (Lane.release1 grow) data := push_release_eq h
    unfold enqueue
    rw [if_pos swap_one, if_neg (by decide), ← heq, Option.map_map]
    rfl

end Push

/-- No push completes a group of one packet. -/
def NoLone (b : Bridge) : Op → Prop
  | .push _ fromID => b.refuses fromID = none → (b.lane fromID).dropNWrites ≤ 0 →
      (b.lane fromID).reorderNWrites = 1 → (b.lane fromID).stack ≠ []
  | _ => True

instance (b : Bridge) (op : Op) : Decidable (b.NoLone op) := by
  cases op <;> unfold NoLone <;> infer_instance

theorem push_swap (packet : List UInt8) (hid : IsEnd id) (hlone : b.NoLone (.push packet id)) :
    b.swap.push grow packet (swapID id) =
      (b.push grow packet id).map (Prod.map swap fun ok => ok) := by
  have hrefuses : (b.make packet).1.refuses id = b.refuses id := rfl
  have hswap : (b.swap.make packet) = ((b.make packet).1.swap, (b.make packet).2) := rfl
  unfold push
  simp only [hswap, refuses_swap _ hid, hrefuses]
  cases hr : b.refuses id with
  | some ok => rfl
  | none =>
    have henqueue : (b.make packet).1.swap.enqueue grow (b.make packet).2 (swapID id) =
        ((b.make packet).1.enqueue grow (b.make packet).2 id).map swap :=
      enqueue_swap hid (hlone hr)
    simp only [henqueue, Option.map_map]
    rfl

/-- The parts of a `Tick` one after the other. -/
theorem tick_eq (b : Bridge) (waiting0 waiting1 : Bool) :
    b.tick waiting0 waiting1 =
      (b.conn0.finish b.lane1.queue).bind fun conn0 =>
      (b.conn1.finish b.lane0.queue).bind fun conn1 =>
      (b.lane0.deliver conn1 waiting1).bind fun r0 =>
      (b.lane1.deliver conn0 waiting0).bind fun r1 =>
        some ({ b with conn0 := conn0, conn1 := conn1, lane0 := r0.1, lane1 := r1.1 },
          ⟨r1.2, r0.2⟩) := by
  unfold tick finish0
  cases b.conn0.finish b.lane1.queue with
  | none => rfl
  | some conn0 =>
    unfold finish1
    simp only [Option.map_some, Option.bind_eq_bind, Option.bind_some]
    cases b.conn1.finish b.lane0.queue <;> rfl

theorem tick_swap (b : Bridge) (waiting0 waiting1 : Bool) :
    b.swap.tick waiting1 waiting0 =
      (b.tick waiting0 waiting1).map (Prod.map swap Handed.swap) := by
  rw [tick_eq, tick_eq]
  unfold swap
  cases b.conn0.finish b.lane1.queue with
  | none => cases b.conn1.finish b.lane0.queue <;> rfl
  | some conn0 =>
    cases b.conn1.finish b.lane0.queue with
    | none => rfl
    | some conn1 =>
      simp only [Option.bind_some]
      cases b.lane0.deliver conn1 waiting1 with
      | none | some => cases b.lane1.deliver conn0 waiting0 <;> rfl

theorem n_swap (h : Handed) : h.swap.n = h.n := Int.add_comm _ _

/-- The mirrored call does the mirrored thing. -/
theorem step_swap (hends : op.Ends) (hlone : b.NoLone op) :
    b.swap.step grow op.swap = (b.step grow op).map (Prod.map swap Outcome.swap) := by
  cases op with
  | push packet fromID =>
    simp only [Op.swap, step, push_swap packet hends hlone, Option.map_map]
    congr 1
    funext r
    simp only [Function.comp_apply, Prod.map, entered_swap _ _ hends]
    rfl
  | reorder fromID =>
    simp only [Op.swap, step, reorder, lane_swap b hends, setLane_swap b hends, Option.map_map]
    rfl
  | drop fromID offset n =>
    simp only [Op.swap, step, drop, lane_swap b hends, setLane_swap b hends, Option.map_map]
    rfl
  | dropNextNWrites fromID n =>
    simp only [Op.swap, step, dropNextNWrites, lane_swap b hends, setLane_swap b hends]
    rfl
  | reorderNextNWrites fromID n =>
    simp only [Op.swap, step, reorderNextNWrites, lane_swap b hends, setLane_swap b hends]
    rfl
  | filter fromID cb =>
    simp only [Op.swap, step, filter, lane_swap b hends, setLane_swap b hends]
    rfl
  | tick waiting0 waiting1 =>
    simp only [Op.swap, step, tick_swap, Option.map_map]
    congr 1
    funext r
    simp only [Function.comp_apply, Prod.map, n_swap]
    rfl
  | close id =>
    simp only [Op.swap, step, close_swap b hends]
    rfl

/-- In every run in which no push completes a group of one packet, the mirrored calls give the
mirrored state and the mirrored results. -/
theorem run_mirrored (grow : Nat → Nat → Nat) {ops : List Op} (hends : ∀ op ∈ ops, op.Ends)
    (hlone : Along (step grow) NoLone newBridge ops) :
    run (step grow) newBridge (ops.map Op.swap) =
      (run (step grow) newBridge ops).map (Prod.map swap (List.map Outcome.swap)) := by
  have hboth := (along_of_mem (fun op hop _ => hends op hop) newBridge).and hlone
  exact run_map (f := swap) (fun b op h => step_swap h.1 h.2) hboth

/-- A dropped packet, a group of two and a closed endpoint. -/
theorem run_mirrored_group_of_two :
    run (step fun _ _ => 0) newBridge
        ([.dropNextNWrites 0 1, .reorderNextNWrites 0 2, .push [1] 0, .push [2] 0, .push [3] 0,
          .close 1, .push [4] 0, .tick false true].map Op.swap) =
      (run (step fun _ _ => 0) newBridge
        [.dropNextNWrites 0 1, .reorderNextNWrites 0 2, .push [1] 0, .push [2] 0, .push [3] 0,
          .close 1, .push [4] 0, .tick false true]).map (Prod.map swap (List.map Outcome.swap)) :=
  run_mirrored _ (by decide) (by decide)

/-- A group of one packet is lost from endpoint 0 and routed from endpoint 1. -/
theorem lone_group_not_mirrored :
    ∃ b outcomes b' outcomes', run (step fun _ _ => 0) newBridge
        [.reorderNextNWrites 0 1, .push [7] 0] = some (b, outcomes) ∧
      run (step fun _ _ => 0) newBridge
        ([.reorderNextNWrites 0 1, .push [7] 0].map Op.swap) = some (b', outcomes') ∧
      b.lane0.queue.items = [] ∧ b'.lane1.queue.items = [⟨1, [7]⟩] :=
  ⟨_, _, _, _, rfl, rfl, rfl, rfl⟩

end Bridge

end PionTransport.Bridges
