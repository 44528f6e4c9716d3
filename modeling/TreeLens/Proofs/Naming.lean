import TreeLens.Selection.Transition

/-!
# Names of nodes

A snapshot names each of its nodes by generation and position, and a name leads
back to the node it was given to. Everything a snapshot answers, by offset, by
path or by a selected span, is a node of its own tree, so it has a name that
leads back to it. Nothing here depends on the extents of the nodes or on the
lineage being that of the tree.
-/

namespace TreeLens

namespace Tree

/-- The nodes of a tree are those found at their own index. -/
theorem mem_nodes_iff {tree : Tree} {node : Node} :
    node ∈ tree.nodes ↔ tree.node? node.index = some node := by
  constructor
  · intro member
    obtain ⟨index, found⟩ := List.mem_iff_getElem?.mp member
    have indexEq : node.index = index := index_of_node?_eq_some found
    rw [indexEq]
    exact found
  · intro found
    exact List.mem_of_getElem? found

theorem mem_nodes_of_node? {tree : Tree} {index : Nat} {node : Node}
    (found : tree.node? index = some node) : node ∈ tree.nodes :=
  List.mem_of_getElem? found

/-- Nodes of a tree are told apart by their indices. -/
theorem eq_of_index_eq {tree : Tree} {first second : Node} (firstMember : first ∈ tree.nodes)
    (secondMember : second ∈ tree.nodes) (sameIndex : first.index = second.index) :
    first = second := by
  have found := mem_nodes_iff.mp firstMember
  rw [sameIndex, mem_nodes_iff.mp secondMember] at found
  exact (Option.some.inj found).symm

/-- The nodes of a tree come in order of their indices. -/
theorem pairwise_index_nodes (tree : Tree) :
    tree.nodes.Pairwise fun first second => first.index < second.index := by
  have sorted : (tree.nodes.map Node.index).Pairwise (· < ·) := by
    rw [map_index_nodes]
    exact List.pairwise_lt_range
  exact List.pairwise_map.mp sorted

end Tree

/-- A node found in a forest is one of its nodes. -/
theorem Forest.mem_of_hit_eq_inside {forest : Forest Node} {offset : Nat} {node : Node}
    (found : forest.hit offset = .inside node) : node ∈ forest.toList := by
  induction forest with
  | nil => contradiction
  | node value below after belowMem afterMem =>
    rw [hit] at found
    rw [toList, List.mem_cons, List.mem_append]
    split at found
    · split at found
      · contradiction
      · cases deeper : below.hit offset with
        | outside =>
          rw [deeper] at found
          exact Or.inl (Hit.inside.inj found).symm
        | ambiguous =>
          rw [deeper] at found
          contradiction
        | inside inner =>
          rw [deeper] at found
          exact Or.inr (Or.inl (belowMem (deeper.trans found)))
    · exact Or.inr (Or.inr (afterMem found))

/-- A node is located exactly when the lookup ends inside it. -/
theorem Hit.node?_eq_some_iff {hit : Hit} {node : Node} :
    hit.node? = some node ↔ hit = .inside node := by
  cases hit <;> simp [Hit.node?]

theorem Tree.mem_nodes_of_locate? {tree : Tree} {offset : Nat} {node : Node}
    (found : tree.locate? offset = some node) : node ∈ tree.nodes :=
  Forest.mem_of_hit_eq_inside (Hit.node?_eq_some_iff.mp found)

/-- A path stays inside the tree, whatever lineage it follows. -/
theorem Lineage.mem_nodes_of_mem_pathTo {lineage : Lineage} {tree : Tree} {node step : Node}
    (member : node ∈ tree.nodes) (onPath : step ∈ lineage.pathTo tree node) :
    step ∈ tree.nodes := by
  rw [pathTo, List.mem_reverse, List.mem_cons] at onPath
  rcases onPath with rfl | above
  · exact member
  · obtain ⟨index, _, found⟩ := List.mem_filterMap.mp above
    exact Tree.mem_nodes_of_node? found

namespace Snapshot

/-- A name is understood exactly when it has the snapshot's generation and a
position of its tree. -/
theorem resolve?_eq_some_iff {snapshot : Snapshot} {id : NodeId} {node : Node} :
    snapshot.resolve? id = some node ↔
      id.generation = snapshot.generation ∧ snapshot.tree.node? id.index = some node := by
  rw [resolve?, resolve]
  by_cases current : id.generation = snapshot.generation
  · rw [if_pos current]
    cases snapshot.tree.node? id.index <;> simp [Except.toOption, current]
  · rw [if_neg current]
    simp [Except.toOption, current]

/-- A node of the snapshot is found under its own name. -/
theorem resolve?_id {snapshot : Snapshot} {node : Node} (member : node ∈ snapshot.tree.nodes) :
    snapshot.resolve? (snapshot.id node) = some node :=
  resolve?_eq_some_iff.mpr ⟨rfl, Tree.mem_nodes_iff.mp member⟩

/-- The node found under a name has that name. -/
theorem id_of_resolve? {snapshot : Snapshot} {id : NodeId} {node : Node}
    (resolved : snapshot.resolve? id = some node) : snapshot.id node = id := by
  obtain ⟨current, found⟩ := resolve?_eq_some_iff.mp resolved
  have indexEq : node.index = id.index := Tree.index_of_node?_eq_some found
  rw [Snapshot.id, indexEq, ← current]

end Snapshot

/-- The node a span selects is a node of the snapshot. -/
theorem Context.mem_nodes_of_pick? {context : Context} {target : Span} {node : Node}
    (picked : context.pick? target = some (some node)) :
    node ∈ context.snapshot.tree.nodes := by
  simp only [pick?, Option.bind_eq_bind, Option.bind_eq_some_iff] at picked
  obtain ⟨start, -, picked⟩ := picked
  cases located : context.snapshot.locate? start with
  | none => simp [located] at picked
  | some deepest =>
    have member : deepest ∈ context.snapshot.tree.nodes := Tree.mem_nodes_of_locate? located
    rw [located] at picked
    cases choice : context.policy.multiRange with
    | first =>
      rw [choice] at picked
      cases picked
      exact member
    | enclosing =>
      rw [choice] at picked
      simp only at picked
      split at picked
      · cases picked
        exact member
      · cases picked
        -- The climb ends at a node of the path, or stays where it began.
        cases climbed : (context.snapshot.pathTo deepest).reverse.find? _ with
        | none => exact member
        | some covering =>
          have onPath := List.mem_reverse.mp (List.mem_of_find?_eq_some climbed)
          exact Lineage.mem_nodes_of_mem_pathTo member onPath

end TreeLens
