import TreeLens.Tree.Basic
import TreeLens.Tree.Defect

/-!
# Building trees

A tree is built by starting and finishing nodes in source order; a node that is
started belongs to the innermost node that is open. The builder refuses calls
that do not nest and leaves its state as it was. Spans are not its concern.
-/

namespace TreeLens

/-- A node that was started and not yet finished. -/
structure OpenNode where
  label : Label
  /-- Its finished children, the latest first. -/
  done : List (Label × Forest Label)
deriving Repr

namespace OpenNode

/-- The node with its children, once there are no more to come. -/
def close (opened : OpenNode) : Label × Forest Label :=
  (opened.label, Forest.ofBranches opened.done.reverse)

/-- Add a finished child. -/
def add (child : Label × Forest Label) (opened : OpenNode) : OpenNode :=
  { opened with done := child :: opened.done }

end OpenNode

/-- A tree under construction. -/
structure Builder where
  /-- Number of nodes started so far. -/
  count : Nat := 0
  /-- The open nodes, the innermost first. -/
  stack : List OpenNode := []
  /-- The root, once it is finished. -/
  root : Option (Label × Forest Label) := none
deriving Repr

namespace Builder

/-- Nothing has been started yet. -/
def empty : Builder := {}

/-- Open a node. Its index is returned with the new state. -/
def start (draft : Draft) (builder : Builder) : Except Defect (Nat × Builder) :=
  match builder.root with
  | some _ => .error (.startAfterRoot draft.kind)
  | none =>
    .ok (builder.count,
      { builder with
        count := builder.count + 1
        stack := ⟨draft.label, []⟩ :: builder.stack })

/-- Close the innermost open node. -/
def finish (builder : Builder) : Except Defect Builder :=
  match builder.stack with
  | [] => .error .nothingOpen
  | [opened] => .ok { builder with stack := [], root := some opened.close }
  | opened :: parent :: outer =>
    .ok { builder with stack := parent.add opened.close :: outer }

/-- Open a node and close it again. The builder that is left is returned also
when one of the two is refused. -/
def token (draft : Draft) (builder : Builder) : Except Defect Nat × Builder :=
  match builder.start draft with
  | .error defect => (.error defect, builder)
  | .ok (index, started) =>
    match started.finish with
    | .error defect => (.error defect, started)
    | .ok finished => (.ok index, finished)

/-- The finished tree for a source of `sourceLength` bytes. -/
def complete (sourceLength : Nat) (builder : Builder) : Except Defect Tree :=
  match builder.stack, builder.root with
  | [], some (root, below) => .ok (Tree.ofLabels root below sourceLength)
  | [], none => .error .noRoot
  | opened :: outer, _ => .error (.leftOpen (opened :: outer).length)

/-- Close open nodes until at most `depth` are left. -/
def finishTo (depth : Nat) (builder : Builder) : Except Defect Builder :=
  close (builder.stack.length - depth) builder
where
  /-- Close a given number of nodes. -/
  close : Nat → Builder → Except Defect Builder
    | 0, builder => .ok builder
    | excess + 1, builder => do close excess (← builder.finish)

/-- Add a node at a given depth, closing the open nodes that are as deep. -/
def addRow (builder : Builder) (row : Nat × Draft) : Except Defect Builder := do
  let closed ← builder.finishTo row.1
  let (_, started) ← closed.start row.2
  return started

/-- Build a tree from drafts in pre-order, each with its depth. -/
def ofRows (rows : List (Nat × Draft)) (sourceLength : Nat) : Except Defect Tree := do
  let filled ← rows.foldlM addRow empty
  let closed ← filled.finishTo 0
  closed.complete sourceLength

/-- One call to a builder. -/
inductive Call where
  | start (draft : Draft)
  | token (draft : Draft)
  | finish
deriving Repr

/-- Make one call. The builder that is left is returned with the answer, also
when the call is refused. Calls that open a node answer with its index. -/
def call (builder : Builder) : Call → Except Defect (Option Nat) × Builder
  | .start draft =>
    match builder.start draft with
    | .error defect => (.error defect, builder)
    | .ok (index, started) => (.ok (some index), started)
  | .token draft => (builder.token draft).map (Except.map some) id
  | .finish =>
    match builder.finish with
    | .error defect => (.error defect, builder)
    | .ok finished => (.ok none, finished)

/-- Make calls in order. After a call that is refused the calls behind it are
made all the same. -/
def run (builder : Builder) : List Call → List (Except Defect (Option Nat)) × Builder
  | [] => ([], builder)
  | first :: rest =>
    let (answer, next) := builder.call first
    let (answers, last) := next.run rest
    (answer :: answers, last)

end Builder

end TreeLens
