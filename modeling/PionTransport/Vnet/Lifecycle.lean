import PionTransport.Core.Run
import PionTransport.Core.Tree

/-!
# Starting and stopping a tree of routers

`Router.Start` marks the router started and then starts its children in order;
`Router.Stop` stops the children in order and then itself. Both return at the
first error of a child and undo nothing. The tree keeps of each router whether
its `stopFunc` is set.
-/

namespace PionTransport.Vnet

open PionTransport.Core

/-- The errors of `Start` and `Stop`. -/
inductive LifecycleError
  | routerAlreadyStarted
  | routerAlreadyStopped
  deriving DecidableEq, Repr

/-- The text of an error. -/
def LifecycleError.string : LifecycleError → String
  | routerAlreadyStarted => "router already started"
  | routerAlreadyStopped => "router already stopped"

/-- A router with its children, each with whether it is started. -/
abbrev RouterTree := Core.Tree Bool

namespace RouterTree

open Core.Tree

mutual

/-- `Router.Start`. -/
def start : RouterTree → RouterTree × Option LifecycleError
  | .node true children => (.node true children, some .routerAlreadyStarted)
  | .node false children => (.node true (startChildren children).1, (startChildren children).2)

/-- The loop of `Start`. -/
def startChildren : List RouterTree → List RouterTree × Option LifecycleError
  | [] => ([], none)
  | child :: rest =>
    match start child with
    | (child', some err) => (child' :: rest, some err)
    | (child', none) => (child' :: (startChildren rest).1, (startChildren rest).2)

end

mutual

/-- `Router.Stop`. -/
def stop : RouterTree → RouterTree × Option LifecycleError
  | .node false children => (.node false children, some .routerAlreadyStopped)
  | .node true children =>
    match stopChildren children with
    | (children', some err) => (.node true children', some err)
    | (children', none) => (.node false children', none)

/-- The loop of `Stop`. -/
def stopChildren : List RouterTree → List RouterTree × Option LifecycleError
  | [] => ([], none)
  | router :: rest =>
    match stop router with
    | (router', some err) => (router' :: rest, some err)
    | (router', none) => (router' :: (stopChildren rest).1, (stopChildren rest).2)

end

/-- A call on a router of the tree. -/
inductive Call
  | start
  | stop
  deriving DecidableEq, Repr

/-- Perform the call on the root. -/
def call : Call → RouterTree → RouterTree × Option LifecycleError
  | .start, t => start t
  | .stop, t => stop t

/-- Whether routers are started after a call without an error. -/
def Call.target : Call → Bool
  | .start => true
  | .stop => false

/-- Perform the call on the router at a path, if there is one. -/
def step (t : RouterTree) (e : List Nat × Call) :
    Option (RouterTree × Option (Option LifecycleError)) :=
  match t.at? e.1 with
  | none => some (t, none)
  | some s => some (replaceAt (call e.2 s).1 e.1 t, some (call e.2 s).2)

theorem startChildren_eq (cs : List RouterTree) : startChildren cs = untilError start cs := by
  induction cs with
  | nil => rw [startChildren, untilError]
  | cons c cs ih =>
    rw [startChildren, untilError, ih]
    rcases start c with ⟨c', _ | err⟩ <;> rfl

theorem stopChildren_eq (cs : List RouterTree) : stopChildren cs = untilError stop cs := by
  induction cs with
  | nil => rw [stopChildren, untilError]
  | cons c cs ih =>
    rw [stopChildren, untilError, ih]
    rcases stop c with ⟨c', _ | err⟩ <;> rfl

theorem start_started (cs : List RouterTree) :
    start (.node true cs) = (.node true cs, some .routerAlreadyStarted) := by
  rw [start]

theorem start_stopped (cs : List RouterTree) :
    start (.node false cs) = (.node true (untilError start cs).1, (untilError start cs).2) := by
  rw [start, startChildren_eq]

theorem stop_stopped (cs : List RouterTree) :
    stop (.node false cs) = (.node false cs, some .routerAlreadyStopped) := by
  rw [stop]

/-- A started router is stopped by `Stop` exactly if all its children are. -/
theorem stop_started (cs : List RouterTree) :
    stop (.node true cs) =
      (.node (untilError stop cs).2.isSome (untilError stop cs).1, (untilError stop cs).2) := by
  rw [stop, stopChildren_eq]
  rcases untilError stop cs with ⟨cs', _ | err⟩ <;> rfl

/-- `Start` succeeds exactly on a tree without a started router. -/
theorem start_none_iff (t : RouterTree) :
    (start t).2 = none ↔ ∀ a ∈ t.labels, a = false := by
  induction t using Core.Tree.induct with
  | node a cs ih =>
    cases a with
    | true => simp [start_started]
    | false =>
      have hchildren : (∀ c ∈ cs, (start c).2 = none) ↔ ∀ a ∈ forestLabels cs, a = false :=
        (forall₂_congr ih).trans forall_forestLabels.symm
      simp only [start_stopped, labels_node, List.forall_mem_cons, true_and]
      exact (untilError_none_iff cs).trans hchildren

/-- `Stop` succeeds exactly on a tree without a stopped router. -/
theorem stop_none_iff (t : RouterTree) : (stop t).2 = none ↔ ∀ a ∈ t.labels, a = true := by
  induction t using Core.Tree.induct with
  | node a cs ih =>
    cases a with
    | false => simp [stop_stopped]
    | true =>
      have hchildren : (∀ c ∈ cs, (stop c).2 = none) ↔ ∀ a ∈ forestLabels cs, a = true :=
        (forall₂_congr ih).trans forall_forestLabels.symm
      simp only [stop_started, labels_node, List.forall_mem_cons, true_and]
      exact (untilError_none_iff cs).trans hchildren

/-- A successful `Start` leaves every router started. -/
theorem start_labels {t : RouterTree} (h : (start t).2 = none) :
    ∀ a ∈ (start t).1.labels, a = true := by
  induction t using Core.Tree.induct with
  | node a cs ih =>
    cases a with
    | true =>
      rw [start_started] at h
      cases h
    | false =>
      rw [start_stopped] at h ⊢
      have hall := (untilError_none_iff cs).mp h
      simp only [labels_node, List.forall_mem_cons, true_and, untilError_eq_map h,
        forall_forestLabels, List.forall_mem_map]
      exact fun c hc => ih c hc (hall c hc)

/-- A successful `Stop` leaves every router stopped. -/
theorem stop_labels {t : RouterTree} (h : (stop t).2 = none) :
    ∀ a ∈ (stop t).1.labels, a = false := by
  induction t using Core.Tree.induct with
  | node a cs ih =>
    cases a with
    | false =>
      rw [stop_stopped] at h
      cases h
    | true =>
      rw [stop_started] at h ⊢
      have hall := (untilError_none_iff cs).mp h
      simp only [labels_node, List.forall_mem_cons, untilError_eq_map h, forall_forestLabels,
        List.forall_mem_map]
      exact ⟨Option.isSome_eq_false_iff.mpr (Option.isNone_iff_eq_none.mpr h),
        fun c hc => ih c hc (hall c hc)⟩

/-- A successful `Stop` changes the tree. -/
theorem stop_ne {t : RouterTree} (h : (stop t).2 = none) : (stop t).1 ≠ t := by
  intro he
  have hold := (stop_none_iff t).mp h t.label t.label_mem_labels
  have hnew := stop_labels h t.label (by rw [he]; exact t.label_mem_labels)
  rw [hold] at hnew
  cases hnew

/-- `Start` leaves the tree as it is exactly if the router is started. -/
theorem start_eq_iff (t : RouterTree) : (start t).1 = t ↔ t.label = true := by
  cases t with
  | node a cs =>
    cases a with
    | true => simp [start_started, label]
    | false => simp [start_stopped, label]

/-- `Stop` leaves the tree as it is exactly if it meets a stopped router on its way down along
first children, before it has stopped any. -/
theorem stop_eq_iff (t : RouterTree) : (stop t).1 = t ↔ false ∈ t.spine := by
  induction t using Core.Tree.induct with
  | node a cs ih =>
    cases a with
    | false => cases cs <;> simp [stop_stopped, spine]
    | true =>
      cases cs with
      | nil => simp [stop_started, untilError, spine]
      | cons c cs =>
        have hc := ih c List.mem_cons_self
        rw [stop_started]
        rcases hstop : stop c with ⟨c', _ | err⟩
        · -- the first child is stopped now, so all of it was started
          have hnone : (stop c).2 = none := by rw [hstop]
          have hchanged : c' ≠ c := by
            have hne := stop_ne hnone
            rwa [hstop] at hne
          have hspine : false ∉ c.spine := by
            intro hmem
            have hstarted := (stop_none_iff c).mp hnone false (mem_labels_of_mem_spine hmem)
            cases hstarted
          rw [untilError_cons_ok hstop]
          simp [spine, hchanged, hspine]
        · rw [untilError_cons_err hstop]
          rw [hstop] at hc
          simpa [spine] using hc

/-- A call with an error leaves every router of the tree as it was; a call without one leaves every
router below the called one started, or stopped. -/
def AllOrNothing (t : RouterTree) (path : List Nat) (c : Call) : Prop :=
  ∀ t' err, t.step (path, c) = some (t', some err) →
    (err ≠ none → t' = t) ∧
    (err = none → ∃ s, t'.at? path = some s ∧ ∀ a ∈ s.labels, a = c.target)

/-- The call meets no router in the wrong state after it has changed one: `Start` on a started
router or on a tree without a started one; `Stop` on a tree without a stopped router, or with one
on its way down along first children. -/
def Consistent : Call → RouterTree → Prop
  | .start, s => s.label = true ∨ ∀ a ∈ s.labels, a = false
  | .stop, s => false ∈ s.spine ∨ ∀ a ∈ s.labels, a = true

/-- A call without an error reaches its target everywhere. -/
theorem call_labels {c : Call} {s : RouterTree} (h : (call c s).2 = none) :
    ∀ a ∈ (call c s).1.labels, a = c.target := by
  cases c with
  | start => exact start_labels h
  | stop => exact stop_labels h

/-- A call has no error, or changes nothing, exactly on a consistent tree. -/
theorem call_consistent_iff (c : Call) (s : RouterTree) :
    ((call c s).2 ≠ none → (call c s).1 = s) ↔ Consistent c s := by
  rw [imp_iff_not_or, not_not, or_comm]
  cases c with
  | start => exact or_congr (start_eq_iff s) (start_none_iff s)
  | stop => exact or_congr (stop_eq_iff s) (stop_none_iff s)

/-- On every tree, whichever of its routers are started, and for every router of it: `Start` and
`Stop` are all or nothing exactly if the subtree of the router is consistent. -/
theorem all_or_nothing_iff {t s : RouterTree} {path : List Nat} (h : t.at? path = some s)
    (c : Call) : AllOrNothing t path c ↔ Consistent c s := by
  have hstep : t.step (path, c) = some (replaceAt (call c s).1 path t, some (call c s).2) := by
    simp only [step, h]
  rw [← call_consistent_iff]
  constructor
  · intro hall herr
    have hsame := (hall _ _ hstep).1 herr
    exact (replaceAt_eq_iff h _).mp hsame
  · intro hcall t' err he
    rw [hstep] at he
    cases he
    constructor
    · intro herr
      exact (replaceAt_eq_iff h _).mpr (hcall herr)
    · intro hnone
      exact ⟨_, at?_replaceAt h _, call_labels hnone⟩

/-- A tree of two routers, both stopped: `Start` on the root starts both. -/
theorem all_or_nothing_two_stopped :
    AllOrNothing (.node false [.node false []]) [] .start :=
  (all_or_nothing_iff (t := .node false [.node false []]) rfl .start).mpr (by
    right
    simp)

/-- A child is started on its own; then `Start` on its parent fails and has started the parent. Of
two children the second is stopped on its own; then `Stop` on their parent fails and has stopped
the first. -/
theorem failed_call_changes_routers :
    (run step (.node false [.node false []]) [([0], .start)] =
        some (.node false [.node true []], [some none]) ∧
      step (.node false [.node true []]) ([], .start) =
        some (.node true [.node true []], some (some .routerAlreadyStarted))) ∧
    (run step (.node false [.node false [], .node false []]) [([], .start), ([1], .stop)] =
        some (.node true [.node true [], .node false []], [some none, some none]) ∧
      step (.node true [.node true [], .node false []]) ([], .stop) =
        some (.node true [.node false [], .node false []],
          some (some .routerAlreadyStopped))) := by
  refine ⟨⟨?_, ?_⟩, ?_, ?_⟩ <;> rfl

end RouterTree

end PionTransport.Vnet
