import TreeLens.Fault
import TreeLens.Lineage
import TreeLens.Tree.Locate

/-!
# Snapshots

A snapshot is one accepted parse: a source, its tree, the lineage of the tree
and the generation that names its nodes.
-/

namespace TreeLens

/-- One parse and everything needed to ask about its nodes. -/
structure Snapshot where
  source : String
  tree : Tree
  lineage : Lineage
  generation : Generation

namespace Snapshot

/-- The snapshot of a tree in a given generation. -/
def ofTree (generation : Generation) (source : String) (tree : Tree) : Snapshot where
  source := source
  tree := tree
  lineage := Lineage.ofTree tree
  generation := generation

/-- The name a snapshot gives to a node. -/
def id (snapshot : Snapshot) (node : Node) : NodeId :=
  ⟨snapshot.generation, node.index⟩

/-- The node with a given name. Names of other generations are refused, also
when there is a node at their position. -/
def resolve (snapshot : Snapshot) (id : NodeId) : Except Fault Node :=
  if id.generation = snapshot.generation then
    match snapshot.tree.node? id.index with
    | some node => .ok node
    | none => .error (.internal ("node id " ++ id.render ++ " out of range"))
  else
    .error (.staleNode id.generation snapshot.generation)

/-- The node with a given name, or nothing. -/
def resolve? (snapshot : Snapshot) (id : NodeId) : Option Node :=
  (snapshot.resolve id).toOption

/-- The name of the parent of a named node. -/
def parentId? (snapshot : Snapshot) (id : NodeId) : Option NodeId :=
  if id.generation = snapshot.generation then
    (snapshot.lineage.parent? id.index).map (⟨snapshot.generation, ·⟩)
  else
    none

/-- The deepest node that contains a byte offset. -/
def locate? (snapshot : Snapshot) (offset : Nat) : Option Node :=
  snapshot.tree.locate? offset

/-- The nodes from the root down to a node of this snapshot. -/
def pathTo (snapshot : Snapshot) (node : Node) : List Node :=
  snapshot.lineage.pathTo snapshot.tree node

/-- The captions from the root down to a node of this snapshot. -/
def breadcrumbs (snapshot : Snapshot) (node : Node) : List String :=
  snapshot.lineage.breadcrumbs snapshot.tree node

end Snapshot

end TreeLens
