import PionTransport.Core.Heap

/-!
# Labelled trees

Finite trees of any branching with a label at every node. A node is named by the
path of child indices that leads to it, and one node can be replaced in place.
-/

namespace PionTransport.Core

/-- A tree with a label at every node. -/
inductive Tree (β : Type)
  | node (label : β) (children : List (Tree β))
  deriving Repr

namespace Tree

variable {β : Type}

/-- Induction with the hypothesis for every child. -/
@[elab_as_elim]
theorem induct {P : Tree β → Prop}
    (node : ∀ label children, (∀ c ∈ children, P c) → P (.node label children)) (t : Tree β) :
    P t :=
  @Tree.rec β P (fun children => ∀ c ∈ children, P c)
    (fun label children ih => node label children ih) (by simp)
    (fun c cs hc hcs d hd => by
      rcases List.mem_cons.mp hd with rfl | hd
      · exact hc
      · exact hcs d hd) t

/-- The label of the root. -/
def label : Tree β → β
  | .node a _ => a

mutual

/-- The labels of a tree, a node in front of its children. -/
def labels : Tree β → List β
  | .node a cs => a :: forestLabels cs

/-- The labels of a list of trees. -/
def forestLabels : List (Tree β) → List β
  | [] => []
  | c :: cs => c.labels ++ forestLabels cs

end

@[simp] theorem labels_node (a : β) (cs : List (Tree β)) :
    (node a cs).labels = a :: forestLabels cs := by
  rw [labels]

@[simp] theorem forestLabels_nil : forestLabels ([] : List (Tree β)) = [] := by
  rw [forestLabels]

@[simp] theorem forestLabels_cons (c : Tree β) (cs : List (Tree β)) :
    forestLabels (c :: cs) = c.labels ++ forestLabels cs := by
  rw [forestLabels]

theorem mem_forestLabels {a : β} {cs : List (Tree β)} :
    a ∈ forestLabels cs ↔ ∃ c ∈ cs, a ∈ c.labels := by
  induction cs with
  | nil => simp
  | cons c cs ih => simp [ih]

/-- A property of all labels, child by child. -/
theorem forall_forestLabels {P : β → Prop} {cs : List (Tree β)} :
    (∀ a ∈ forestLabels cs, P a) ↔ ∀ c ∈ cs, ∀ a ∈ c.labels, P a := by
  constructor
  · intro h c hc a ha
    exact h a (mem_forestLabels.mpr ⟨c, hc, ha⟩)
  · intro h a ha
    obtain ⟨c, hc, ha⟩ := mem_forestLabels.mp ha
    exact h c hc a ha

/-- The labels from the root down along first children. -/
def spine : Tree β → List β
  | .node a [] => [a]
  | .node a (c :: _) => a :: c.spine

/-- The subtree at a path. -/
def at? : Tree β → List Nat → Option (Tree β)
  | t, [] => some t
  | .node _ cs, i :: path => cs[i]?.bind fun c => c.at? path

/-- Replace the subtree at a path. -/
def replaceAt (s : Tree β) : List Nat → Tree β → Tree β
  | [], _ => s
  | i :: path, .node a cs => .node a (cs.modify i (replaceAt s path))

/-- The labels along first children are among the labels. -/
theorem mem_labels_of_mem_spine {t : Tree β} {a : β} (h : a ∈ t.spine) : a ∈ t.labels := by
  induction t using induct with
  | node b cs ih =>
    cases cs with
    | nil => simpa [spine] using h
    | cons c cs =>
      simp only [spine, List.mem_cons] at h
      simp only [labels_node, forestLabels_cons, List.mem_cons, List.mem_append]
      exact h.imp_right fun hc => .inl (ih c List.mem_cons_self hc)

theorem label_mem_labels (t : Tree β) : t.label ∈ t.labels := by
  cases t with
  | node a cs => simp [label]

/-- The replaced subtree is found again. -/
theorem at?_replaceAt {t s : Tree β} {path : List Nat} (h : t.at? path = some s) (u : Tree β) :
    (replaceAt u path t).at? path = some u := by
  induction path generalizing t with
  | nil => rfl
  | cons i path ih =>
    cases t with
    | node a cs =>
      simp only [at?] at h
      obtain ⟨c, hc, h⟩ := Option.bind_eq_some_iff.mp h
      have hmodify := getElem?_modify_self hc (replaceAt u path)
      simp only [replaceAt, at?, hmodify, Option.bind_some]
      exact ih h

/-- Replacing a subtree changes nothing exactly if it is replaced by itself. -/
theorem replaceAt_eq_iff {t s : Tree β} {path : List Nat} (h : t.at? path = some s)
    (u : Tree β) : replaceAt u path t = t ↔ u = s := by
  constructor
  · intro he
    have hfound := at?_replaceAt h u
    rw [he, h] at hfound
    exact (Option.some.inj hfound).symm
  · rintro rfl
    induction path generalizing t with
    | nil => exact (Option.some.inj h).symm
    | cons i path ih =>
      cases t with
      | node a cs =>
        simp only [at?] at h
        obtain ⟨c, hc, h⟩ := Option.bind_eq_some_iff.mp h
        rw [replaceAt]
        congr 1
        ext1 j
        rw [List.getElem?_modify]
        by_cases hj : i = j
        · subst hj
          simp [hc, ih h]
        · simp [hj]

end Tree

/-- Change the entries of a list in order, up to the first error. -/
def untilError {β ε : Type} (f : β → β × Option ε) : List β → List β × Option ε
  | [] => ([], none)
  | c :: cs =>
    match f c with
    | (c', some err) => (c' :: cs, some err)
    | (c', none) => (c' :: (untilError f cs).1, (untilError f cs).2)

section UntilError

variable {β ε : Type} {f : β → β × Option ε}

theorem untilError_cons_err {c c' : β} {err : ε} (h : f c = (c', some err)) (cs : List β) :
    untilError f (c :: cs) = (c' :: cs, some err) := by
  simp only [untilError, h]

theorem untilError_cons_ok {c c' : β} (h : f c = (c', none)) (cs : List β) :
    untilError f (c :: cs) = (c' :: (untilError f cs).1, (untilError f cs).2) := by
  simp only [untilError, h]

/-- There is no error exactly if no entry has one. -/
theorem untilError_none_iff (cs : List β) :
    (untilError f cs).2 = none ↔ ∀ c ∈ cs, (f c).2 = none := by
  induction cs with
  | nil => simp [untilError]
  | cons c cs ih =>
    rcases hc : f c with ⟨c', _ | err⟩
    · rw [untilError_cons_ok hc, List.forall_mem_cons, hc]
      simpa using ih
    · rw [untilError_cons_err hc, List.forall_mem_cons, hc]
      simp

/-- Without an error every entry is changed. -/
theorem untilError_eq_map {cs : List β} (h : (untilError f cs).2 = none) :
    (untilError f cs).1 = cs.map fun c => (f c).1 := by
  induction cs with
  | nil => rfl
  | cons c cs ih =>
    have hall := (untilError_none_iff (c :: cs)).mp h
    have hc : f c = ((f c).1, none) := Prod.ext rfl (hall c List.mem_cons_self)
    rw [untilError_cons_ok hc] at h ⊢
    rw [List.map_cons, ih h]

end UntilError

end PionTransport.Core
