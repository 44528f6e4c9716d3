import TreeLens.Tree.Basic

/-!
# Lineage

Trees only lead downwards. A lineage leads upwards: for every pre-order
position it records the position of the parent and the number of ancestors.
A parent comes before its children in pre-order, and the type records that, so
climbing always ends. It may be used with the nodes of another tree than the
one it was made for; only positions count.
-/

namespace TreeLens

/-- What is known about the ancestors of one node. -/
structure Kin where
  /-- Position of the parent; the root has none. -/
  parent : Option Nat
  /-- Number of ancestors. -/
  depth : Nat
deriving DecidableEq, Repr

/-- The ancestry of a forest in pre-order, for siblings with a given parent and
depth, of which the first stands at `position`. -/
def Forest.kin {α : Type} (parent : Option Nat) (depth position : Nat) : Forest α → List Kin
  | .nil => []
  | .node _ below after =>
    ⟨parent, depth⟩ :: (below.kin (some position) (depth + 1) (position + 1)
      ++ after.kin parent depth (position + 1 + below.size))

@[simp]
theorem Forest.length_kin {α : Type} (parent : Option Nat) (depth position : Nat)
    (forest : Forest α) : (forest.kin parent depth position).length = forest.size := by
  induction forest generalizing parent depth position with
  | nil => rfl
  | node value below after belowLength afterLength =>
    simp only [kin, size, List.length_cons, List.length_append, belowLength, afterLength]
    omega

/-- Every parent stands before its child. -/
theorem Forest.parent_lt_of_kin {α : Type} {parent : Option Nat} {depth position : Nat}
    {forest : Forest α} (earlier : ∀ outer, parent = some outer → outer < position)
    {place found : Nat}
    (recorded : (forest.kin parent depth position)[place]?.bind Kin.parent = some found) :
    found < position + place := by
  induction forest generalizing parent depth position place with
  | nil => simp [kin] at recorded
  | node value below after belowEarlier afterEarlier =>
    cases place with
    | zero =>
      simp only [kin, List.getElem?_cons_zero, Option.bind_some] at recorded
      exact earlier found recorded
    | succ place =>
      simp only [kin, List.getElem?_cons_succ, List.getElem?_append, length_kin] at recorded
      split at recorded
      · have := belowEarlier (by simp) recorded
        omega
      · have outerEarlier : ∀ outer, parent = some outer → outer < position + 1 + below.size := by
          intro outer same
          have := earlier outer same
          omega
        have := afterEarlier outerEarlier recorded
        omega

/-- Parents and depths of all nodes of a tree, by position. -/
structure Lineage where
  table : Array Kin
  /-- A parent stands before its children. -/
  parent_lt : ∀ {index parent : Nat}, table[index]?.bind Kin.parent = some parent → parent < index

namespace Lineage

/-- The lineage of a tree. -/
def ofTree (tree : Tree) : Lineage where
  table := (tree.forest.kin none 0 0).toArray
  parent_lt := by
    intro index parent recorded
    have before := Forest.parent_lt_of_kin (by simp)
      (show (tree.forest.kin none 0 0)[index]?.bind Kin.parent = some parent by
        simpa using recorded)
    omega

/-- Position of the parent of the node at `index`. -/
def parent? (lineage : Lineage) (index : Nat) : Option Nat :=
  lineage.table[index]?.bind Kin.parent

/-- Number of ancestors of the node at `index`, zero for a position the lineage
does not know. -/
def depth (lineage : Lineage) (index : Nat) : Nat :=
  (lineage.table[index]?.map Kin.depth).getD 0

/-- Positions of all ancestors, the innermost first. -/
def ancestors (lineage : Lineage) (index : Nat) : List Nat :=
  match _found : lineage.parent? index with
  | none => []
  | some parent => parent :: lineage.ancestors parent
termination_by index
decreasing_by exact lineage.parent_lt _found

/-- The parent of a node, taken from the tree the node belongs to. -/
def parentIn? (lineage : Lineage) (tree : Tree) (node : Node) : Option Node :=
  (lineage.parent? node.index).bind tree.node?

/-- The ancestors of a node, the innermost first, taken from the tree the node
belongs to. -/
def ancestorsIn (lineage : Lineage) (tree : Tree) (node : Node) : List Node :=
  (lineage.ancestors node.index).filterMap tree.node?

/-- The nodes from the root down to a node. -/
def pathTo (lineage : Lineage) (tree : Tree) (node : Node) : List Node :=
  (node :: lineage.ancestorsIn tree node).reverse

/-- The captions along the path to a node. -/
def breadcrumbs (lineage : Lineage) (tree : Tree) (node : Node) : List String :=
  (lineage.pathTo tree node).map fun step => step.caption

end Lineage

end TreeLens
