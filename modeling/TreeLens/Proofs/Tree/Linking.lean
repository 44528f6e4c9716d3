import Mathlib.Data.List.Chain
import TreeLens.Linking
import TreeLens.Proofs.Tree.Children

/-!
# Links and paths

The walk that links a tree keeps its nodes on a stack, so it comes to siblings from the last
to the first. It still comes to each node exactly once, and what it has noted in the end is
the lineage: the induction is over a forest of siblings that wait on the stack, and says
that the walk fills their part of the notes and goes on with what waited behind them.

The links lead back along the lists of children and nothing else, so climbing from a node
goes through its ancestors. Climbing lowers the position at every step, whatever tree the
node belongs to; therefore a path always exists, and its steps are nodes of that tree.
-/

namespace TreeLens

namespace Linking

variable {tree : Tree}

theorem visits_cons (kin : Kin) (first : Node) (siblings : List Node) :
    visits kin (first :: siblings) = visits kin siblings ++ [⟨first.index, kin⟩] := by
  simp [visits]

/-- The first visit of a node notes how the walk came there and goes on to the node's
children. -/
theorem run_visit {before : List (Option Kin)} {index : Nat} (placed : before.length = index)
    (behind : List (Option Kin)) (kin : Kin) (rest : List Visit) (repeated : List Nat) :
    run tree ⟨(before ++ none :: behind).toArray, ⟨index, kin⟩ :: rest, repeated⟩ =
      run tree ⟨(before ++ some kin :: behind).toArray,
        visits ⟨some index, kin.depth + 1⟩ (tree.children index) ++ rest, repeated⟩ := by
  subst placed
  have noNote : (before ++ none :: behind).toArray[before.length]? = some none := by simp
  rw [run]
  split
  · simp_all
  · simp_all
  · simp

/-- Where siblings wait, and nothing is noted of them and of the nodes below them, the walk
notes the records of all of them and comes to what waited behind. -/
theorem run_forest {forest : Forest Node} {position : Nat} (kin : Kin)
    (numbered : forest.toList.map Node.index = List.range' position forest.size)
    (listed : ∀ entry ∈ forest.entries, tree.children entry.1.index = entry.2)
    (before : List (Option Kin)) (placed : before.length = position)
    (behind : List (Option Kin)) (rest : List Visit) (repeated : List Nat) :
    run tree ⟨(before ++ (List.replicate forest.size none ++ behind)).toArray,
        visits kin forest.roots ++ rest, repeated⟩ =
      run tree ⟨(before ++ ((forest.kin kin.parent kin.depth position).map some ++ behind)).toArray,
        rest, repeated⟩ := by
  induction forest generalizing position kin before behind rest with
  | nil => rfl
  | node value below after belowRun afterRun =>
    obtain ⟨indexEq, belowNumbered, afterNumbered⟩ := Forest.numbered_node numbered
    simp only [Forest.entries, List.forall_mem_cons, List.forall_mem_append] at listed
    obtain ⟨valueListed, belowListed, afterListed⟩ := listed
    rw [indexEq] at valueListed
    let inner : Kin := ⟨some position, kin.depth + 1⟩
    let unnoted := List.replicate below.size (none : Option Kin)
    let belowNotes := (below.kin inner.parent inner.depth (position + 1)).map some
    let afterNotes := (after.kin kin.parent kin.depth (position + 1 + below.size)).map some
    have afterPlaced : (before ++ none :: unnoted).length = position + 1 + below.size := by
      simp [unnoted]
      omega
    have belowPlaced : (before ++ [some kin]).length = position + 1 := by simp [placed]
    have unnotedEq : List.replicate (Forest.node value below after).size none =
        none :: (unnoted ++ List.replicate after.size none) := by
      rw [Forest.size, Nat.add_assoc, Nat.add_comm, List.replicate_succ, List.replicate_add]
    -- The stack brings the later siblings first, then the first one, then the nodes below it.
    calc
      _ = run tree ⟨((before ++ none :: unnoted) ++
            (List.replicate after.size none ++ behind)).toArray,
          visits kin after.roots ++ (⟨position, kin⟩ :: rest), repeated⟩ := by
        rw [unnotedEq, Forest.roots, visits_cons, indexEq]
        simp
      _ = run tree ⟨((before ++ none :: unnoted) ++ (afterNotes ++ behind)).toArray,
          ⟨position, kin⟩ :: rest, repeated⟩ :=
        afterRun kin afterNumbered afterListed _ afterPlaced behind _
      _ = run tree ⟨((before ++ [some kin]) ++ (unnoted ++ (afterNotes ++ behind))).toArray,
          visits inner below.roots ++ rest, repeated⟩ := by
        rw [List.append_assoc, List.cons_append, run_visit placed, valueListed]
        simp [inner]
      _ = run tree ⟨((before ++ [some kin]) ++ (belowNotes ++ (afterNotes ++ behind))).toArray,
          rest, repeated⟩ :=
        belowRun inner belowNumbered belowListed _ belowPlaced _ rest
      _ = _ := by simp [Forest.kin, belowNotes, afterNotes, inner]

/-- The walk visits every node once, and what it has noted in the end is the lineage. -/
theorem run_start (tree : Tree) :
    run tree (start tree) = some ⟨(Lineage.ofTree tree).table.map some, [], []⟩ := by
  have walked := run_forest ⟨none, 0⟩ tree.numbered_forest
    (fun entry => Tree.children_of_mem_entries) [] rfl [] [] []
  calc
    run tree (start tree) =
        run tree ⟨([] ++ (List.replicate tree.forest.size none ++ [])).toArray,
          visits ⟨none, 0⟩ tree.forest.roots ++ [], []⟩ := by
      simp [start, visits, Tree.size, Tree.forest, Forest.roots]
    _ = _ := walked
    _ = some ⟨(Lineage.ofTree tree).table.map some, [], []⟩ := by
      rw [run]
      simp [Lineage.ofTree]

end Linking

namespace Lineage

section Climbing

variable (lineage : Lineage) {tree : Tree} {node : Node}

/-- Climbing goes to smaller and smaller positions. -/
theorem pairwise_cons_ancestors (index : Nat) :
    (index :: lineage.ancestors index).Pairwise (· > ·) := by
  fun_induction lineage.ancestors index with
  | case1 index top => exact List.pairwise_singleton _ _
  | case2 index parent recorded climb =>
    have parentLt : parent < index := lineage.parent_lt recorded
    refine List.pairwise_cons.mpr ⟨?_, climb⟩
    intro above member
    rcases List.mem_cons.mp member with rfl | further
    · exact parentLt
    · exact Nat.lt_trans (List.rel_of_pairwise_cons climb further) parentLt

/-- Every position on the way up is the parent of the one before it. -/
theorem isChain_cons_ancestors (index : Nat) :
    (index :: lineage.ancestors index).IsChain fun lower upper =>
      lineage.parent? lower = some upper := by
  fun_induction lineage.ancestors index with
  | case1 index top => exact .singleton _
  | case2 index parent recorded climb => exact .cons_cons recorded climb

/-- Climbing ends where no parent is recorded. -/
theorem parent?_getLast_cons_ancestors (index : Nat) :
    lineage.parent? ((index :: lineage.ancestors index).getLast (List.cons_ne_nil _ _)) = none := by
  fun_induction lineage.ancestors index with
  | case1 index top => exact top
  | case2 index parent recorded climb => rwa [List.getLast_cons_cons]

variable {lineage}

/-- The positions above a node of a tree are positions of the tree, whatever tree the
lineage was made for. -/
theorem map_index_ancestorsIn (member : node ∈ tree.nodes) :
    (lineage.ancestorsIn tree node).map Node.index = lineage.ancestors node.index := by
  have found : ∀ above ∈ lineage.ancestors node.index,
      (tree.node? above).map Node.index = some above := by
    intro above isAbove
    have earlier := List.rel_of_pairwise_cons (lineage.pairwise_cons_ancestors node.index) isAbove
    exact Tree.map_index_node? (Nat.lt_trans earlier (Tree.index_lt_size member))
  rw [ancestorsIn, List.map_filterMap, List.filterMap_congr found, List.filterMap_some]

theorem map_index_pathTo (member : node ∈ tree.nodes) :
    (lineage.pathTo tree node).map Node.index =
      (node.index :: lineage.ancestors node.index).reverse := by
  rw [pathTo, List.map_reverse, List.map_cons, map_index_ancestorsIn member]

end Climbing

section OfTree

variable (tree : Tree)

theorem size_table_ofTree : (ofTree tree).table.size = tree.size := by
  simp [ofTree, Tree.size]

theorem parent?_of_size_le {index : Nat} (past : tree.size ≤ index) :
    (ofTree tree).parent? index = none := by
  rw [parent?, Array.getElem?_eq_none (size_table_ofTree tree ▸ past)]
  rfl

/-- The parent recorded for a node is the one that lists it among its children. -/
theorem parent?_ofTree_eq_some_iff {parent child : Nat} :
    (ofTree tree).parent? child = some parent ↔ tree.IsChild parent child := by
  by_cases inside : child < tree.size
  · obtain ⟨node, above, placed, rfl⟩ := tree.exists_mem_withAncestors_of_lt inside
    rw [parent?_ofTree placed, Tree.isChild_iff placed]
  · rw [parent?_of_size_le tree (Nat.not_lt.mp inside)]
    constructor
    · intro impossible
      contradiction
    · intro isChild
      exact absurd (Tree.lt_size_of_isChild isChild) inside

/-- Of the nodes of a tree only the root has no parent. -/
theorem parent?_ofTree_eq_none_iff {index : Nat} (inside : index < tree.size) :
    (ofTree tree).parent? index = none ↔ index = 0 := by
  obtain ⟨node, above, placed, rfl⟩ := tree.exists_mem_withAncestors_of_lt inside
  rw [parent?_ofTree placed, Option.map_eq_none_iff, Tree.head?_above_eq_none_iff placed]

/-- Climbing goes through all ancestors and nothing else. -/
theorem mem_ancestors_ofTree_iff {ancestor index : Nat} :
    ancestor ∈ (ofTree tree).ancestors index ↔
      Relation.TransGen tree.IsChild ancestor index := by
  fun_induction (ofTree tree).ancestors index with
  | case1 index top =>
    rw [Relation.transGen_iff]
    simp only [← parent?_ofTree_eq_some_iff, top, List.not_mem_nil, reduceCtorEq, and_false,
      exists_false, or_self]
  | case2 index parent recorded climb =>
    rw [Relation.transGen_iff, List.mem_cons, climb]
    simp only [← parent?_ofTree_eq_some_iff, recorded, Option.some.injEq, exists_eq_right']
    rw [eq_comm]

theorem depth_ofTree_eq_length (index : Nat) :
    (ofTree tree).depth index = ((ofTree tree).ancestors index).length := by
  by_cases inside : index < tree.size
  · obtain ⟨node, above, placed, rfl⟩ := tree.exists_mem_withAncestors_of_lt inside
    rw [depth_ofTree placed, ancestors_ofTree placed, List.length_map]
  · have past := Nat.not_lt.mp inside
    rw [ancestors_of_none (parent?_of_size_le tree past), depth,
      Array.getElem?_eq_none (size_table_ofTree tree ▸ past)]
    rfl

end OfTree

/-- A lineage that tells everything about the ancestors of the nodes of a tree. -/
structure Inverts (lineage : Lineage) (tree : Tree) : Prop where
  size_eq : lineage.table.size = tree.size
  /-- The parent of a node is the one that has it in its list of children. -/
  parent?_eq_some_iff : ∀ parent child,
    lineage.parent? child = some parent ↔ tree.IsChild parent child
  parent?_root : lineage.parent? tree.root.index = none
  mem_ancestors_iff : ∀ ancestor index,
    ancestor ∈ lineage.ancestors index ↔ Relation.TransGen tree.IsChild ancestor index
  nodup_ancestors : ∀ index, (lineage.ancestors index).Nodup
  depth_eq : ∀ index, lineage.depth index = (lineage.ancestors index).length

theorem inverts_ofTree (tree : Tree) : (ofTree tree).Inverts tree where
  size_eq := size_table_ofTree tree
  parent?_eq_some_iff _ _ := parent?_ofTree_eq_some_iff tree
  parent?_root := by
    rw [tree.index_root, parent?_ofTree_eq_none_iff tree]
    rw [tree.size_eq]
    exact Nat.succ_pos _
  mem_ancestors_iff _ _ := mem_ancestors_ofTree_iff tree
  nodup_ancestors index := by
    obtain ⟨-, decreasing⟩ := List.pairwise_cons.mp ((ofTree tree).pairwise_cons_ancestors index)
    exact decreasing.imp Nat.ne_of_gt
  depth_eq := depth_ofTree_eq_length tree

/-- A path that leads down to a node of a tree, by a lineage that may be that of another
tree. -/
structure Leads (lineage : Lineage) (tree : Tree) (node : Node) (path : List Node) : Prop where
  mem_nodes : ∀ step ∈ path, step ∈ tree.nodes
  length_eq : path.length = lineage.depth node.index + 1
  increasing : path.Pairwise fun upper lower => upper.index < lower.index
  getLast?_eq : path.getLast? = some node
  /-- Every step but the first has the one before it as its parent. -/
  isChain : path.IsChain fun upper lower => lineage.parentIn? tree lower = some upper
  head?_eq : node.index < lineage.table.size → path.head? = some tree.root
  eq_singleton : lineage.table.size ≤ node.index → path = [node]

/-- The topmost position on the way up from a node of the tree is that of the root. -/
theorem getLast_cons_ancestors_ofTree (tree : Tree) {index : Nat} (inside : index < tree.size) :
    (index :: (ofTree tree).ancestors index).getLast (List.cons_ne_nil _ _) = 0 := by
  have top := (ofTree tree).parent?_getLast_cons_ancestors index
  have decreasing := (ofTree tree).pairwise_cons_ancestors index
  have member := List.getLast_mem (List.cons_ne_nil index ((ofTree tree).ancestors index))
  generalize List.getLast _ _ = last at top member ⊢
  rw [← parent?_ofTree_eq_none_iff tree]
  · exact top
  · rcases List.mem_cons.mp member with rfl | above
    · exact inside
    · exact Nat.lt_trans (List.rel_of_pairwise_cons decreasing above) inside

/-- The lineage of a tree leads to the nodes of every tree. -/
theorem leads_pathTo (tree : Tree) {other : Tree} {node : Node} (member : node ∈ other.nodes) :
    (ofTree tree).Leads other node ((ofTree tree).pathTo other node) := by
  have indices : ((ofTree tree).pathTo other node).map Node.index =
      (node.index :: (ofTree tree).ancestors node.index).reverse := map_index_pathTo member
  have inOther : ∀ step ∈ (ofTree tree).pathTo other node, step ∈ other.nodes :=
    fun step => mem_nodes_of_mem_pathTo member
  constructor
  case mem_nodes => exact inOther
  case length_eq =>
    have lengths := congrArg List.length indices
    simpa [depth_ofTree_eq_length] using lengths
  case increasing =>
    rw [← List.pairwise_map, indices, List.pairwise_reverse]
    exact (ofTree tree).pairwise_cons_ancestors node.index
  case getLast?_eq => rw [pathTo, List.getLast?_reverse, List.head?_cons]
  case isChain =>
    have chain := (ofTree tree).isChain_cons_ancestors node.index
    rw [← List.isChain_reverse, ← indices, List.isChain_map] at chain
    apply chain.imp_of_mem_imp
    intro upper lower upperMem _ recorded
    rw [parentIn?, recorded, Option.bind_some, Tree.mem_nodes_iff.mp (inOther upper upperMem)]
  case head?_eq =>
    intro inside
    rw [size_table_ofTree] at inside
    have first := congrArg List.head? indices
    rw [List.head?_map, List.head?_reverse, List.getLast?_eq_some_getLast (List.cons_ne_nil _ _),
      getLast_cons_ancestors_ofTree tree inside, Option.map_eq_some_iff] at first
    obtain ⟨top, topFirst, topIndex⟩ := first
    rw [topFirst]
    refine congrArg some (Tree.eq_of_index_eq (inOther top (List.mem_of_mem_head? topFirst)) ?_ ?_)
    · rw [other.nodes_eq]
      exact List.mem_cons_self
    · rw [topIndex, other.index_root]
  case eq_singleton =>
    intro past
    rw [size_table_ofTree] at past
    rw [pathTo, ancestorsIn, ancestors_of_none (parent?_of_size_le tree past)]
    rfl

theorem mem_children_of_parentIn? {tree : Tree} {upper lower : Node} (member : lower ∈ tree.nodes)
    (recorded : (ofTree tree).parentIn? tree lower = some upper) :
    lower ∈ tree.children upper.index := by
  obtain ⟨parent, parentEq, found⟩ := Option.bind_eq_some_iff.mp recorded
  obtain rfl := Tree.index_of_node?_eq_some found
  obtain ⟨above, placed⟩ := Tree.exists_mem_withAncestors member
  rw [Tree.mem_children_iff placed, ← parent?_ofTree placed]
  exact parentEq

end Lineage

/-- The name of the parent is that of the node the lineage leads to, also where the node
belongs to another tree. -/
theorem Snapshot.parentId?_id (snapshot : Snapshot) {tree : Tree} {node : Node}
    (member : node ∈ tree.nodes) :
    snapshot.parentId? (snapshot.id node) =
      (snapshot.lineage.parentIn? tree node).map snapshot.id := by
  have current : (snapshot.id node).generation = snapshot.generation := rfl
  rw [parentId?, if_pos current, Lineage.parentIn?]
  change (snapshot.lineage.parent? node.index).map _ = _
  cases recorded : snapshot.lineage.parent? node.index with
  | none => rfl
  | some parent =>
    have inside : parent < tree.size :=
      Nat.lt_trans (snapshot.lineage.parent_lt recorded) (Tree.index_lt_size member)
    obtain ⟨found, foundEq, rfl⟩ := Option.map_eq_some_iff.mp (Tree.map_index_node? inside)
    rw [Option.bind_some, foundEq]
    rfl

namespace Lineage

/-- The walk that links a tree comes to every node once. It records the parent of a node
exactly where the node is listed as a child, and as many ancestors as there are. The
links lead down to the nodes of every tree by a path as long as the recorded depth: from
the root, where the links know the position, and else the node alone. -/
theorem ofTree_inverts_children (tree : Tree) (generation : Generation) (source : String) :
    let lineage := ofTree tree
    let snapshot := Snapshot.ofTree generation source tree
    Linking.run tree (Linking.start tree) = some ⟨lineage.table.map some, [], []⟩ ∧
      lineage.Inverts tree ∧
      ∀ other : Tree, ∀ node ∈ other.nodes,
        snapshot.parentId? (snapshot.id node) =
            (lineage.parentIn? other node).map snapshot.id ∧
          lineage.Leads other node (lineage.pathTo other node) ∧
          (other = tree → (lineage.pathTo other node).IsChain fun upper lower =>
            lower ∈ tree.children upper.index) := by
  intro lineage snapshot
  refine ⟨Linking.run_start tree, inverts_ofTree tree, ?_⟩
  intro other node member
  have leads := leads_pathTo tree member
  refine ⟨snapshot.parentId?_id member, leads, ?_⟩
  rintro rfl
  apply leads.isChain.imp_of_mem_imp
  intro upper lower _ lowerMem recorded
  exact mem_children_of_parentIn? (leads.mem_nodes lower lowerMem) recorded

/-- Links of a tree of three nodes, asked about the nodes of a chain of four. -/
theorem ofTree_inverts_children_chain :
    let leaf (kind : String) : Label := ⟨{ kind := kind }, ⟨0, 0, 1, 0⟩⟩
    let pair := Tree.ofLabels (leaf "pair")
      (.node (leaf "left") .nil (.node (leaf "right") .nil .nil)) 1
    let chain := Tree.ofLabels (leaf "a")
      (.node (leaf "b") (.node (leaf "c") (.node (leaf "d") .nil .nil) .nil) .nil) 1
    let known : Node := ⟨leaf "c", 2⟩
    let unknown : Node := ⟨leaf "d", 3⟩
    let path := (ofTree pair).pathTo chain known
    known ∈ chain.nodes ∧ unknown ∈ chain.nodes ∧
      (ofTree chain).depth 2 = 2 ∧ path.length = 2 ∧ path.head? = some chain.root ∧
      path.getLast? = some known ∧ (ofTree pair).pathTo chain unknown = [unknown] := by
  intro leaf pair chain known unknown path
  have knownMember : known ∈ chain.nodes := by decide
  have unknownMember : unknown ∈ chain.nodes := by decide
  obtain ⟨-, -, paths⟩ := ofTree_inverts_children pair ⟨1⟩ "x"
  obtain ⟨-, toKnown, -⟩ := paths chain known knownMember
  obtain ⟨-, toUnknown, -⟩ := paths chain unknown unknownMember
  exact ⟨knownMember, unknownMember, by decide, toKnown.length_eq, toKnown.head?_eq (by decide),
    toKnown.getLast?_eq, toUnknown.eq_singleton (by decide)⟩

end Lineage

end TreeLens
