import TreeLens.Forest
import TreeLens.Tree.Node

/-!
# Syntax trees

A tree has one root, the forest below it, and the length of the source it was
built for. Every node carries its own pre-order position as its index, and the
type holds no tree in which that is not so. Nothing is required of the extents:
trees whose nodes overlap or leave their parents can be built and inspected.
-/

namespace TreeLens

/-- A syntax tree over a source of `sourceLength` bytes. -/
structure Tree where
  root : Node
  below : Forest Node
  sourceLength : Nat
  numbered : (root :: below.toList).map Node.index = List.range (below.size + 1)

namespace Tree

/-- Give every label its pre-order position. -/
def ofLabels (root : Label) (below : Forest Label) (sourceLength : Nat) : Tree where
  root := ⟨root, 0⟩
  below := below.mapIdxFrom (fun index label => ⟨label, index⟩) 1
  sourceLength := sourceLength
  numbered := by
    apply List.ext_getElem
    · simp
    · intro index _ _
      cases index with
      | zero => simp
      | succ index =>
        simp only [Forest.toList_mapIdxFrom, List.map_cons, List.getElem_cons_succ,
          List.getElem_map, List.getElem_mapIdx, List.getElem_range]
        omega

/-- The tree as a forest with one root. -/
def forest (tree : Tree) : Forest Node :=
  .node tree.root tree.below .nil

/-- All nodes in pre-order. -/
def nodes (tree : Tree) : List Node :=
  tree.forest.toList

/-- All nodes in pre-order, each with its children. -/
def entries (tree : Tree) : List (Node × List Node) :=
  tree.forest.entries

/-- Number of nodes. -/
def size (tree : Tree) : Nat :=
  tree.forest.size

/-- The node at a pre-order position. -/
def node? (tree : Tree) (index : Nat) : Option Node :=
  tree.nodes[index]?

/-- The children of the node at a pre-order position, in order. -/
def children (tree : Tree) (index : Nat) : List Node :=
  (tree.entries[index]?.map Prod.snd).getD []

theorem nodes_eq (tree : Tree) : tree.nodes = tree.root :: tree.below.toList := by
  simp [nodes, forest, Forest.toList]

theorem size_eq (tree : Tree) : tree.size = tree.below.size + 1 := by
  simp only [size, forest, Forest.size]
  omega

theorem length_nodes (tree : Tree) : tree.nodes.length = tree.size :=
  Forest.length_toList _

/-- The indices of the nodes count up from zero. -/
theorem map_index_nodes (tree : Tree) : tree.nodes.map Node.index = List.range tree.size := by
  rw [nodes_eq, size_eq, tree.numbered]

/-- The node found at a position has that position as its index. -/
theorem index_of_node?_eq_some {tree : Tree} {index : Nat} {node : Node}
    (found : tree.node? index = some node) : node.index = index := by
  have mapped : (tree.nodes.map Node.index)[index]? = some node.index := by
    rw [List.getElem?_map]
    exact congrArg (Option.map Node.index) found
  rw [map_index_nodes, List.getElem?_eq_some_iff] at mapped
  obtain ⟨inside, equal⟩ := mapped
  simpa using equal.symm

end Tree

end TreeLens
