import TreeLens.Tree.Basic
import TreeLens.Tree.Defect

/-!
# Validity of trees

A tree is valid when its root spans exactly the source, and the children of
every node follow each other without overlap inside it.
-/

namespace TreeLens

/-- The first child that begins before `reached` or ends after the parent,
where `reached` is the stop of the child before it. -/
def siblingDefect? (parent : Node) (reached : Nat) : List Node → Option Defect
  | [] => none
  | child :: rest =>
    if child.start < reached then
      some (.overlap child.index child.kind child.full parent.index)
    else if parent.stop < child.stop then
      some (.escape child.index child.kind child.full parent.index parent.full)
    else
      siblingDefect? parent child.stop rest

namespace Tree

/-- The first defect of the spans, looking at the root first and then at the
children of every node in pre-order. -/
def defect? (tree : Tree) : Option Defect :=
  if tree.root.full = ⟨0, tree.sourceLength⟩ then
    tree.entries.findSome? fun (parent, children) =>
      siblingDefect? parent parent.start children
  else
    some (.rootSpan tree.root.full tree.sourceLength)

/-- Accept a tree without defects. -/
def validate (tree : Tree) : Except Defect Unit :=
  match tree.defect? with
  | none => .ok ()
  | some defect => .error defect

end Tree

end TreeLens
