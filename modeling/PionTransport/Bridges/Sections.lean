import PionTransport.Bridges.Bridge
import PionTransport.Core.Run

/-!
# Calls that overlap

All calls of the bridge hold its mutex from the beginning to the end, but `Close` of an
endpoint only takes the mutex of that endpoint. `Push` and `Tick` release it in between:
`Push` after it has read the flags of the endpoints, `Tick` after it has looked at each
of them. So a `Close` may come between these sections. Where none does, the sections
make up the whole call.
-/

namespace PionTransport.Bridges

open PionTransport.Core

/-- What the holder of the bridge's mutex has still to do. -/
inductive Section
  /-- `Push` has read that no endpoint is closing -/
  | enqueue (data : Packet) (fromID : Int)
  /-- `Tick` has looked at endpoint 0 -/
  | finish1
  /-- `Tick` has looked at both endpoints -/
  | deliver0
  /-- `Tick` has served the queue to endpoint 1 -/
  | deliver1 (to1 : Option Packet)

/-- The bridge and the holder of its mutex. -/
structure Shared where
  bridge : Bridge := newBridge
  holder : Option Section := none

/-- The critical sections of the calls. -/
inductive Event
  /-- `Push` up to its check -/
  | push (packet : List UInt8) (fromID : Int)
  /-- `Tick` up to its first unlock -/
  | tick
  /-- the next section of the call that holds the mutex; a reader may be waiting -/
  | proceed (waiting : Bool)
  | reorder (fromID : Int)
  | drop (fromID offset n : Int)
  | dropNextNWrites (fromID n : Int)
  | reorderNextNWrites (fromID n : Int)
  | filter (fromID : Int) (cb : Option (List UInt8 → Bool))
  | close (id : Int)

/-- What a section is seen to do. -/
inductive Reply
  /-- the call waits for the mutex -/
  | blocked
  /-- nobody holds the mutex -/
  | idle
  /-- the call is not over -/
  | going
  /-- an index of `Drop` is out of range; the deferred unlock runs and no field has changed -/
  | panicked
  | returned (outcome : Outcome)
  deriving DecidableEq, Repr

namespace Shared

/-- The first section of a call that gets the mutex. -/
def start (grow : Nat → Nat → Nat) (b : Bridge) : Event → Option (Shared × Reply)
  | .push packet fromID =>
    let (b, data) := b.make packet
    match b.refuses fromID with
    | some ok => some (⟨b, none⟩, .returned (.pushed data ok []))
    | none => some (⟨b, some (.enqueue data fromID)⟩, .going)
  | .tick => b.finish0.map fun b => (⟨b, some .finish1⟩, .going)
  | .reorder fromID => (b.reorder fromID).map fun r => (⟨r.1, none⟩, .returned (.reordered r.2))
  | .drop fromID offset n =>
    match b.drop grow fromID offset n with
    | some b => some (⟨b, none⟩, .returned .done)
    | none => some (⟨b, none⟩, .panicked)
  | .dropNextNWrites fromID n => some (⟨b.dropNextNWrites fromID n, none⟩, .returned .done)
  | .reorderNextNWrites fromID n => some (⟨b.reorderNextNWrites fromID n, none⟩, .returned .done)
  | .filter fromID cb => some (⟨b.filter fromID cb, none⟩, .returned .done)
  | .proceed _ | .close _ => some (⟨b, none⟩, .idle)

/-- The next section of the call that holds the mutex. -/
def proceed (grow : Nat → Nat → Nat) (b : Bridge) (waiting : Bool) :
    Section → Option (Shared × Reply)
  | .enqueue data fromID =>
    (b.enqueue grow data fromID).map fun b' =>
      (⟨b', none⟩, .returned (.pushed data true (b.entered b' fromID)))
  | .finish1 => b.finish1.map fun b => (⟨b, some .deliver0⟩, .going)
  | .deliver0 =>
    (b.lane0.deliver b.conn1 waiting).map fun r =>
      (⟨{ b with lane0 := r.1 }, some (.deliver1 r.2)⟩, .going)
  | .deliver1 to1 =>
    (b.lane1.deliver b.conn0 waiting).map fun r =>
      (⟨{ b with lane1 := r.1 }, none⟩,
        .returned (.ticked (Bridge.Handed.n ⟨r.2, to1⟩) ⟨r.2, to1⟩))

/-- Perform one section. -/
def step (grow : Nat → Nat → Nat) (s : Shared) (e : Event) : Option (Shared × Reply) :=
  match e, s.holder with
  | .close id, _ =>
    some ({ s with bridge := (s.bridge.close id).1 }, .returned (.closed (s.bridge.close id).2))
  | .proceed waiting, some rest => proceed grow s.bridge waiting rest
  | _, some _ => some (s, .blocked)
  | e, none => start grow s.bridge e

/-- The sections of a call. -/
def sections : Op → List Event
  | .push packet fromID => [.push packet fromID, .proceed false]
  | .reorder fromID => [.reorder fromID]
  | .drop fromID offset n => [.drop fromID offset n]
  | .dropNextNWrites fromID n => [.dropNextNWrites fromID n]
  | .reorderNextNWrites fromID n => [.reorderNextNWrites fromID n]
  | .filter fromID cb => [.filter fromID cb]
  | .tick waiting0 waiting1 => [.tick, .proceed false, .proceed waiting1, .proceed waiting0]
  | .close id => [.close id]

section Whole

variable {grow : Nat → Nat → Nat} {b b' : Bridge} {o : Outcome} {op : Op}

/-- The sections of a call that is not interrupted make up the call. -/
theorem step_sections (h : b.step grow op = some (b', o)) :
    ∃ replies, run (step grow) ⟨b, none⟩ (sections op) = some (⟨b', none⟩, replies) ∧
      .returned o ∈ replies := by
  cases op with
  | push packet fromID =>
    obtain ⟨⟨b₁, ok⟩, hpush, he⟩ := Option.map_eq_some_iff.mp h
    obtain ⟨rfl, rfl⟩ := Prod.mk.inj he
    unfold Bridge.push at hpush
    cases hrefuses : (b.make packet).1.refuses fromID with
    | some ok' =>
      simp only [hrefuses] at hpush
      cases hpush
      -- a refused packet leaves the queue as it was
      have hentered : b.entered (b.make packet).1 fromID = [] := List.drop_length
      simp [sections, run, step, start, hrefuses, hentered]
    | none =>
      simp only [hrefuses] at hpush
      obtain ⟨b₂, henqueue, he⟩ := Option.map_eq_some_iff.mp hpush
      cases he
      have hentered : (b.make packet).1.entered b₁ fromID = b.entered b₁ fromID := rfl
      simp [sections, run, step, start, proceed, hrefuses, henqueue, hentered]
  | tick waiting0 waiting1 =>
    obtain ⟨⟨b₄, handed⟩, htick, he⟩ := Option.map_eq_some_iff.mp h
    obtain ⟨rfl, rfl⟩ := Prod.mk.inj he
    obtain ⟨b₁, hfinish0, htick⟩ := Option.bind_eq_some_iff.mp htick
    obtain ⟨b₂, hfinish1, htick⟩ := Option.bind_eq_some_iff.mp htick
    obtain ⟨⟨l0, to1⟩, hdeliver0, htick⟩ := Option.bind_eq_some_iff.mp htick
    obtain ⟨⟨l1, to0⟩, hdeliver1, htick⟩ := Option.bind_eq_some_iff.mp htick
    cases htick
    simp [sections, run, step, start, proceed, hfinish0, hfinish1, hdeliver0, hdeliver1]
  | reorder fromID =>
    obtain ⟨r, hreorder, he⟩ := Option.map_eq_some_iff.mp h
    cases he
    simp [sections, run, step, start, hreorder]
  | drop fromID offset n =>
    obtain ⟨r, hdrop, he⟩ := Option.map_eq_some_iff.mp h
    cases he
    simp [sections, run, step, start, hdrop]
  | dropNextNWrites fromID n | reorderNextNWrites fromID n | filter fromID cb | close id =>
    cases h
    simp [sections, run, step, start]

/-- So a run of whole calls is a run of their sections. -/
theorem run_sections {ops : List Op} {os : List Outcome}
    (h : run (Bridge.step grow) b ops = some (b', os)) :
    ∃ replies, run (step grow) ⟨b, none⟩ (ops.flatMap sections) = some (⟨b', none⟩, replies) ∧
      ∀ o ∈ os, .returned o ∈ replies := by
  induction h using run_induct with
  | nil => exact ⟨[], rfl, nofun⟩
  | cons hstep _ ih =>
    obtain ⟨replies, hcall, hmem⟩ := step_sections hstep
    obtain ⟨replies', hrun, hmem'⟩ := ih
    refine ⟨replies ++ replies', ?_, ?_⟩
    · rw [List.flatMap_cons, run_append hcall, hrun]
      rfl
    · intro o' ho'
      rcases List.mem_cons.mp ho' with rfl | hlater
      · exact List.mem_append_left _ hmem
      · exact List.mem_append_right _ (hmem' o' hlater)

end Whole

end Shared

end PionTransport.Bridges
