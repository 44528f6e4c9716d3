import Mathlib.Data.List.Basic
import TreeLens.Proofs.Naming

/-!
# Ancestry

A lineage is a table of positions, and the ancestors of a node are found by
climbing from one position to the next. The same can be read off the forest:
beside every value stands the list of the values above it, the innermost first.
Climbing through the lineage of a tree gives exactly that list, so the path to a
node is the list read from the other end.
-/

namespace TreeLens

namespace Forest

variable {α : Type}

/-- Every value in pre-order with the values above it, the innermost first;
`outer` is above all of them. -/
def withAncestors (outer : List α) : Forest α → List (α × List α)
  | nil => []
  | node value below after =>
    (value, outer) :: (below.withAncestors (value :: outer) ++ after.withAncestors outer)

theorem map_fst_withAncestors (forest : Forest α) (outer : List α) :
    (forest.withAncestors outer).map Prod.fst = forest.toList := by
  induction forest generalizing outer with
  | nil => rfl
  | node value below after belowMap afterMap =>
    simp only [withAncestors, toList, List.map_cons, List.map_append, belowMap, afterMap]

theorem mem_toList_of_mem_withAncestors {forest : Forest α} {outer : List α}
    {entry : α × List α} (placed : entry ∈ forest.withAncestors outer) :
    entry.1 ∈ forest.toList := by
  rw [← map_fst_withAncestors forest outer]
  exact List.mem_map_of_mem placed

/-- The innermost value above another one stands in the forest itself, with the
remaining ones above it, or the forest has nothing but `outer` there. -/
theorem parent_mem_withAncestors {forest : Forest α} {outer above : List α} {value parent : α}
    (placed : (value, parent :: above) ∈ forest.withAncestors outer) :
    parent :: above = outer ∨ (parent, above) ∈ forest.withAncestors outer := by
  induction forest generalizing outer with
  | nil => contradiction
  | node first below after belowParent afterParent =>
    rw [withAncestors, List.mem_cons, List.mem_append] at placed ⊢
    rcases placed with here | inBelow | inAfter
    · exact Or.inl (Prod.mk.inj here).2
    · rcases belowParent inBelow with top | deeper
      · obtain ⟨rfl, rfl⟩ := List.cons.inj top
        exact Or.inr (Or.inl rfl)
      · exact Or.inr (Or.inr (Or.inl deeper))
    · rcases afterParent inAfter with top | deeper
      · exact Or.inl top
      · exact Or.inr (Or.inr (Or.inr deeper))

/-- The record that a list of nodes above makes. -/
def kinOf (above : List Node) : Kin :=
  ⟨above.head?.map Node.index, above.length⟩

/-- The numbers of a forest divide into those of the first node, of the nodes below
it and of the nodes after it. -/
theorem numbered_node {value : Node} {below after : Forest Node} {position : Nat}
    (numbered : (node value below after).toList.map Node.index =
      List.range' position (node value below after).size) :
    value.index = position ∧
      below.toList.map Node.index = List.range' (position + 1) below.size ∧
      after.toList.map Node.index = List.range' (position + 1 + below.size) after.size := by
  have sizeEq : (node value below after).size = (below.size + after.size) + 1 := by
    rw [size]
    omega
  rw [sizeEq, toList, List.map_cons, List.map_append, List.range'_succ,
    ← List.range'_append_1] at numbered
  obtain ⟨indexEq, rest⟩ := List.cons.inj numbered
  exact ⟨indexEq, List.append_inj rest (by simp)⟩

/-- A forest whose nodes are numbered from `position` has the records of the
nodes above. -/
theorem kin_eq_map_withAncestors {forest : Forest Node} {position : Nat} (outer : List Node)
    (numbered : forest.toList.map Node.index = List.range' position forest.size) :
    forest.kin (outer.head?.map Node.index) outer.length position =
      (forest.withAncestors outer).map fun entry => kinOf entry.2 := by
  induction forest generalizing position outer with
  | nil => rfl
  | node value below after belowKin afterKin =>
    obtain ⟨indexEq, belowNumbered, afterNumbered⟩ := numbered_node numbered
    rw [kin, withAncestors, List.map_cons, List.map_append,
      ← belowKin (value :: outer) belowNumbered, ← afterKin outer afterNumbered]
    simp only [kinOf, List.head?_cons, Option.map_some, List.length_cons, indexEq]

end Forest

namespace Tree

theorem numbered_forest (tree : Tree) :
    tree.forest.toList.map Node.index = List.range' 0 tree.forest.size := by
  rw [← List.range_eq_range']
  exact tree.map_index_nodes

/-- The nodes of a tree in pre-order with their ancestors. -/
def withAncestors (tree : Tree) : List (Node × List Node) :=
  tree.forest.withAncestors []

theorem mem_nodes_of_mem_withAncestors {tree : Tree} {node : Node} {above : List Node}
    (placed : (node, above) ∈ tree.withAncestors) : node ∈ tree.nodes :=
  Forest.mem_toList_of_mem_withAncestors placed

/-- The parent of a node has the node's other ancestors. -/
theorem parent_mem_withAncestors {tree : Tree} {node parent : Node} {above : List Node}
    (placed : (node, parent :: above) ∈ tree.withAncestors) :
    (parent, above) ∈ tree.withAncestors := by
  rcases Forest.parent_mem_withAncestors placed with impossible | found
  · contradiction
  · exact found

/-- All ancestors of a node are nodes of the tree. -/
theorem mem_nodes_of_mem_above {tree : Tree} {node ancestor : Node} {above : List Node}
    (placed : (node, above) ∈ tree.withAncestors) (inAbove : ancestor ∈ above) :
    ancestor ∈ tree.nodes := by
  induction above generalizing node with
  | nil => contradiction
  | cons parent above ih =>
    have parentLine := parent_mem_withAncestors placed
    rcases List.mem_cons.mp inAbove with rfl | further
    · exact mem_nodes_of_mem_withAncestors parentLine
    · exact ih parentLine further

/-- The nodes stand with their ancestors in order of their indices. -/
theorem index_of_withAncestors_getElem? {tree : Tree} {position : Nat} {node : Node}
    {above : List Node} (found : tree.withAncestors[position]? = some (node, above)) :
    node.index = position := by
  have atPosition : tree.node? position = some node := by
    rw [node?, nodes, ← Forest.map_fst_withAncestors tree.forest [], List.getElem?_map]
    exact congrArg (Option.map Prod.fst) found
  exact index_of_node?_eq_some atPosition

/-- A node stands with its ancestors at its own position. -/
theorem withAncestors_getElem?_index {tree : Tree} {node : Node} {above : List Node}
    (placed : (node, above) ∈ tree.withAncestors) :
    tree.withAncestors[node.index]? = some (node, above) := by
  obtain ⟨position, found⟩ := List.mem_iff_getElem?.mp placed
  rw [index_of_withAncestors_getElem? found]
  exact found

end Tree

namespace Lineage

/-- The lineage of a tree records the parent and the number of the ancestors. -/
theorem ofTree_getElem? {tree : Tree} {node : Node} {above : List Node}
    (placed : (node, above) ∈ tree.withAncestors) :
    (ofTree tree).table[node.index]? = some (Forest.kinOf above) := by
  have records := Forest.kin_eq_map_withAncestors [] tree.numbered_forest
  change (tree.forest.kin none 0 0).toArray[node.index]? = _
  rw [List.getElem?_toArray]
  change tree.forest.kin none 0 0 = _ at records
  rw [records, List.getElem?_map]
  exact congrArg (Option.map _) (Tree.withAncestors_getElem?_index placed)

theorem parent?_ofTree {tree : Tree} {node : Node} {above : List Node}
    (placed : (node, above) ∈ tree.withAncestors) :
    (ofTree tree).parent? node.index = above.head?.map Node.index := by
  rw [parent?, ofTree_getElem? placed]
  rfl

/-- The lineage of a tree records how many nodes are above each one. -/
theorem depth_ofTree {tree : Tree} {node : Node} {above : List Node}
    (placed : (node, above) ∈ tree.withAncestors) :
    (ofTree tree).depth node.index = above.length := by
  rw [depth, ofTree_getElem? placed]
  rfl

theorem ancestors_of_none {lineage : Lineage} {index : Nat}
    (top : lineage.parent? index = none) : lineage.ancestors index = [] := by
  rw [ancestors]
  split
  · rfl
  · rename_i found
    rw [top] at found
    contradiction

/-- Climbing goes to the parent first and on from there. -/
theorem ancestors_of_some {lineage : Lineage} {index parent : Nat}
    (recorded : lineage.parent? index = some parent) :
    lineage.ancestors index = parent :: lineage.ancestors parent := by
  rw [ancestors]
  split
  · rename_i found
    rw [recorded] at found
    contradiction
  · rename_i other found
    rw [Option.some.inj (found.symm.trans recorded)]

/-- Climbing from a node goes through the positions of its ancestors. -/
theorem ancestors_ofTree {tree : Tree} {node : Node} {above : List Node}
    (placed : (node, above) ∈ tree.withAncestors) :
    (ofTree tree).ancestors node.index = above.map Node.index := by
  have recorded := parent?_ofTree placed
  induction above generalizing node with
  | nil => exact ancestors_of_none recorded
  | cons parent above ih =>
    have parentPlaced := Tree.parent_mem_withAncestors placed
    rw [ancestors_of_some recorded, ih parentPlaced (parent?_ofTree parentPlaced), List.map_cons]

theorem ancestorsIn_ofTree {tree : Tree} {node : Node} {above : List Node}
    (placed : (node, above) ∈ tree.withAncestors) :
    (ofTree tree).ancestorsIn tree node = above := by
  have found : ∀ ancestor ∈ above, tree.node? ancestor.index = some ancestor := by
    intro ancestor inAbove
    exact Tree.mem_nodes_iff.mp (Tree.mem_nodes_of_mem_above placed inAbove)
  rw [ancestorsIn, ancestors_ofTree placed, List.filterMap_map]
  calc
    above.filterMap (tree.node? ∘ Node.index) = above.filterMap some :=
      List.filterMap_congr found
    _ = above := List.filterMap_some

/-- The path to a node is its ancestors from the outside in, then the node. -/
theorem pathTo_ofTree {tree : Tree} {node : Node} {above : List Node}
    (placed : (node, above) ∈ tree.withAncestors) :
    (ofTree tree).pathTo tree node = (node :: above).reverse := by
  rw [pathTo, ancestorsIn_ofTree placed]

end Lineage

end TreeLens
