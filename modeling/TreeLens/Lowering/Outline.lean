import TreeLens.Lowering.Tiling
import TreeLens.Tree.Builder

/-!
# Outlines and lowering

An outline is what a parser answers: a tree of nodes that know their content
but own no trivia. Lowering gives every node the part of its parent that tiling
assigns to it, so the lowered tree covers the source from end to end.

Outlines may be deep, so lowering keeps a list of tasks instead of recursing:
entering a node starts it in the builder and puts the tasks for its children,
and the one that finishes it, in front of all others.
-/

namespace TreeLens

/-- The tree a parser answers. -/
structure Outline where
  root : Parsed
  below : Forest Parsed
deriving Repr

namespace Outline

/-- Read an outline from its nodes in pre-order, each with its depth. -/
def ofRows? (rows : List (Nat × Parsed)) : Option Outline :=
  match Forest.ofRows rows with
  | .node root below _ => some ⟨root, below⟩
  | .nil => none

/-- The outline as a forest with one root. -/
def forest (outline : Outline) : Forest Parsed :=
  .node outline.root outline.below .nil

/-- A piece of work left while an outline is lowered. -/
inductive Task where
  /-- Start a node that fills `full`; everything below it comes next. -/
  | enter (parsed : Parsed) (below : Forest Parsed) (full : Span)
  /-- Finish the node that was started last. -/
  | leave
deriving Repr

namespace Task

/-- Start siblings in order, each in the span given for it. -/
def enterAll : Forest Parsed → List Span → List Task
  | .node parsed below after, full :: later => .enter parsed below full :: enterAll after later
  | _, _ => []

/-- Number of tasks that come of one, itself included: every node is started and
finished once. -/
def weight : Task → Nat
  | enter _ below _ => 2 * below.size + 2
  | leave => 1

/-- Number of tasks that come of a list of tasks. -/
def weights : List Task → Nat
  | [] => 0
  | task :: rest => task.weight + weights rest

@[simp]
theorem weights_cons (task : Task) (rest : List Task) :
    weights (task :: rest) = task.weight + weights rest :=
  rfl

@[simp]
theorem weights_append (first second : List Task) :
    weights (first ++ second) = weights first + weights second := by
  induction first with
  | nil => rw [List.nil_append, weights, Nat.zero_add]
  | cons task rest ih => rw [List.cons_append, weights_cons, weights_cons, ih, Nat.add_assoc]

theorem weights_enterAll_le (siblings : Forest Parsed) (spans : List Span) :
    weights (enterAll siblings spans) ≤ 2 * siblings.size := by
  induction siblings generalizing spans with
  | nil => simp [enterAll, weights]
  | node parsed below after _ afterLe =>
    cases spans with
    | nil => simp [enterAll, weights]
    | cons full later =>
      have bound := afterLe later
      simp only [enterAll, weights_cons, weight, Forest.size]
      omega

end Task

/-- Work off tasks in order. No builder comes of it when a node cannot be
tiled with its children, and a defect when the builder refuses a call. -/
def work (source : String) : List Task → Builder → ExceptT Defect Option Builder
  | [], builder => return builder
  | .leave :: rest, builder => do
    let finished ← builder.finish
    work source rest finished
  | .enter parsed below full :: rest, builder => do
    let (_, started) ← builder.start ⟨parsed, full⟩
    let spans ← Tiling.tile source full (below.roots.map Parsed.content)
    work source (Task.enterAll below spans ++ .leave :: rest) started
termination_by tasks => Task.weights tasks
decreasing_by
  · simp only [Task.weights_cons, Task.weight]
    omega
  · have bound := Task.weights_enterAll_le below spans
    simp only [Task.weights_append, Task.weights_cons, Task.weight]
    omega

/-- Lower an outline of the whole source. -/
def lower (source : String) (outline : Outline) : ExceptT Defect Option Tree := do
  let length := source.utf8ByteSize
  let built ← work source [.enter outline.root outline.below ⟨0, length⟩] .empty
  built.complete length

/-- The lowered tree, if nothing stood in its way. -/
def lower? (source : String) (outline : Outline) : Option Tree := do
  let lowered ← (outline.lower source).run
  lowered.toOption

end Outline

end TreeLens
