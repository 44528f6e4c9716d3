import TreeLens.Tree.Basic

/-!
# The node at an offset

An offset is looked up from the root downwards: as long as exactly one child
contains the offset, the search goes on in that child. Spans are half-open, so
an offset on the border of two siblings belongs to the second. Two children
that both contain the offset are a defect of the tree, and then no node is
found.
-/

namespace TreeLens

/-- Result of looking for an offset among siblings. -/
inductive Hit where
  /-- No sibling contains the offset. -/
  | outside
  /-- Two siblings contain the offset, here or further down. -/
  | ambiguous
  /-- The deepest node that contains the offset. -/
  | inside (node : Node)
deriving DecidableEq, Repr

namespace Hit

/-- The node that was found. -/
def node? : Hit → Option Node
  | inside node => some node
  | _ => none

end Hit

/-- Look for an offset in a forest. -/
def Forest.hit (offset : Nat) : Forest Node → Hit
  | .nil => .outside
  | .node value below after =>
    if offset ∈ value.full then
      if after.roots.any fun sibling => offset ∈ sibling.full then
        .ambiguous
      else
        match below.hit offset with
        | .outside => .inside value
        | found => found
    else
      after.hit offset

/-- The deepest node that contains a byte offset. -/
def Tree.locate? (tree : Tree) (offset : Nat) : Option Node :=
  (tree.forest.hit offset).node?

end TreeLens
