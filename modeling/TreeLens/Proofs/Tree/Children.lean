import Mathlib.Logic.Relation
import TreeLens.Proofs.Forest
import TreeLens.Proofs.Tree.Ancestry

/-!
# Children and descendants

The children of a node are listed beside it, and the nodes above a node beside
that one. Both say the same: the children of a node are, in pre-order, the nodes
that have it directly above them. So every node but the root is in one list of
children, that of a node with a smaller index, and the lists are in order. A node
and its descendants have consecutive indices, since pre-order lists everything
below a node right after it.
-/

namespace TreeLens

namespace Forest

section Parents

variable {α : Type}

/-- What is above a value is above the whole forest or stands in it. -/
theorem mem_of_mem_withAncestors {forest : Forest α} {outer : List α} {entry : α × List α}
    (placed : entry ∈ forest.withAncestors outer) {ancestor : α} (above : ancestor ∈ entry.2) :
    ancestor ∈ outer ∨ ancestor ∈ forest.toList := by
  induction forest generalizing outer with
  | nil => contradiction
  | node value below after belowMem afterMem =>
    rw [withAncestors, List.mem_cons, List.mem_append] at placed
    rw [toList, List.mem_cons, List.mem_append]
    rcases placed with rfl | inBelow | inAfter
    · exact Or.inl above
    · rcases belowMem inBelow with inOuter | inForest
      · rcases List.mem_cons.mp inOuter with rfl | further
        · exact Or.inr (Or.inl rfl)
        · exact Or.inl further
      · exact Or.inr (Or.inr (Or.inl inForest))
    · rcases afterMem inAfter with inOuter | inForest
      · exact Or.inl inOuter
      · exact Or.inr (Or.inr (Or.inr inForest))

/-- What is above the whole forest is above each of its values. -/
theorem subset_of_mem_withAncestors {forest : Forest α} {outer : List α} {entry : α × List α}
    (placed : entry ∈ forest.withAncestors outer) : outer ⊆ entry.2 := by
  induction forest generalizing outer with
  | nil => contradiction
  | node value below after belowSubset afterSubset =>
    rw [withAncestors, List.mem_cons, List.mem_append] at placed
    rcases placed with rfl | inBelow | inAfter
    · exact fun _ member => member
    · exact fun _ member => belowSubset inBelow (List.mem_cons_of_mem _ member)
    · exact afterSubset inAfter

variable [DecidableEq α]

/-- The values of a forest that have `parent` directly above them, in pre-order. -/
def childrenOf (parent : α) (outer : List α) (forest : Forest α) : List α :=
  ((forest.withAncestors outer).filter fun entry => entry.2.head? = some parent).map Prod.fst

theorem childrenOf_node (parent : α) (outer : List α) (value : α) (below after : Forest α) :
    (node value below after).childrenOf parent outer =
      (if outer.head? = some parent then [value] else []) ++
        below.childrenOf parent (value :: outer) ++ after.childrenOf parent outer := by
  rw [childrenOf, withAncestors, List.filter_cons, List.filter_append]
  by_cases here : outer.head? = some parent <;> simp [here, childrenOf]

/-- A value that is neither in a forest nor directly above it has no children
there. -/
theorem childrenOf_eq_nil {parent : α} {outer : List α} {forest : Forest α}
    (notAbove : outer.head? ≠ some parent) (notInside : parent ∉ forest.toList) :
    forest.childrenOf parent outer = [] := by
  induction forest generalizing outer with
  | nil => rfl
  | node value below after belowNil afterNil =>
    rw [toList, List.mem_cons, List.mem_append, not_or, not_or] at notInside
    obtain ⟨notValue, notBelow, notAfter⟩ := notInside
    rw [childrenOf_node, if_neg notAbove, belowNil (by simpa using Ne.symm notValue) notBelow,
      afterNil notAbove notAfter]
    rfl

/-- A value directly above a forest has the values at its top as children. -/
theorem childrenOf_cons {parent : α} {outer : List α} {forest : Forest α}
    (notInside : parent ∉ forest.toList) : forest.childrenOf parent (parent :: outer) =
      forest.roots := by
  induction forest with
  | nil => rfl
  | node value below after _ afterRoots =>
    rw [toList, List.mem_cons, List.mem_append, not_or, not_or] at notInside
    obtain ⟨notValue, notBelow, notAfter⟩ := notInside
    rw [childrenOf_node, afterRoots notAfter, roots,
      childrenOf_eq_nil (by simpa using Ne.symm notValue) notBelow]
    simp

/-- Where no value occurs twice, the values listed directly below one are those
that have it directly above them. -/
theorem eq_childrenOf_of_mem_entries {forest : Forest α} {outer : List α}
    {entry : α × List α} (distinct : forest.toList.Nodup)
    (apart : ∀ above ∈ outer, above ∉ forest.toList) (member : entry ∈ forest.entries) :
    entry.2 = forest.childrenOf entry.1 outer := by
  induction forest generalizing outer with
  | nil => contradiction
  | node value below after belowChildren afterChildren =>
    have isValue : entry.1 ∈ (node value below after).toList := by
      rw [← map_fst_entries]
      exact List.mem_map_of_mem member
    have notAbove : outer.head? ≠ some entry.1 := fun equal =>
      apart entry.1 (List.mem_of_head? equal) isValue
    rw [toList, List.nodup_cons, List.nodup_append, List.mem_append, not_or] at distinct
    obtain ⟨⟨notBelow, notAfter⟩, belowDistinct, afterDistinct, disjoint⟩ := distinct
    simp only [toList, List.mem_cons, List.mem_append, not_or] at apart
    rw [childrenOf_node, if_neg notAbove, List.nil_append]
    rw [entries, List.mem_cons, List.mem_append] at member
    rcases member with rfl | inBelow | inAfter
    · rw [childrenOf_cons notBelow, childrenOf_eq_nil notAbove notAfter, List.append_nil]
    · have inside : entry.1 ∈ below.toList := by
        rw [← map_fst_entries]
        exact List.mem_map_of_mem inBelow
      have notIn : entry.1 ∉ after.toList := fun inOther => disjoint _ inside _ inOther rfl
      rw [childrenOf_eq_nil notAbove notIn, List.append_nil]
      refine belowChildren belowDistinct ?_ inBelow
      intro above inOuter
      rcases List.mem_cons.mp inOuter with rfl | further
      · exact notBelow
      · exact (apart above further).2.1
    · have inside : entry.1 ∈ after.toList := by
        rw [← map_fst_entries]
        exact List.mem_map_of_mem inAfter
      have notIn : entry.1 ∉ below.toList := fun inOther => disjoint _ inOther _ inside rfl
      have notValue : value ≠ entry.1 := fun equal => notAfter (equal ▸ inside)
      rw [childrenOf_eq_nil (by simpa using notValue) notIn, List.nil_append]
      exact afterChildren afterDistinct (fun above inOuter => (apart above inOuter).2.2) inAfter

end Parents

/-- The numbers of a forest are those from `position` on. -/
theorem index_of_numbered {forest : Forest Node} {position : Nat}
    (numbered : forest.toList.map Node.index = List.range' position forest.size) {node : Node}
    (member : node ∈ forest.toList) :
    position ≤ node.index ∧ node.index < position + forest.size := by
  have inRange : node.index ∈ forest.toList.map Node.index := List.mem_map_of_mem member
  rw [numbered, List.mem_range'_1] at inRange
  exact inRange

/-- An index belongs to a node or to one of the nodes above it. -/
def OnPath (index : Nat) (entry : Node × List Node) : Prop :=
  index = entry.1.index ∨ ∃ above ∈ entry.2, index = above.index

theorem index_of_placed {forest : Forest Node} {position : Nat} {outer : List Node}
    (numbered : forest.toList.map Node.index = List.range' position forest.size)
    {entry : Node × List Node} (placed : entry ∈ forest.withAncestors outer) :
    position ≤ entry.1.index ∧ entry.1.index < position + forest.size :=
  index_of_numbered numbered (mem_toList_of_mem_withAncestors placed)

/-- Where all nodes above come earlier, an index is on the path of its own node only. -/
theorem onPath_iff_of_outside {index : Nat} {entry : Node × List Node}
    (outside : ∀ above ∈ entry.2, above.index < index) :
    OnPath index entry ↔ index = entry.1.index := by
  constructor
  · rintro (equal | ⟨above, isAbove, rfl⟩)
    · exact equal
    · exact absurd (outside above isAbove) (Nat.lt_irrefl _)
  · exact Or.inl

/-- An interval of numbers that begins behind the nodes above a forest and does not meet
those of the forest has nothing to do with it: its first number is on no path there. -/
theorem onPath_iff_of_apart {forest : Forest Node} {position : Nat} {outer : List Node}
    (numbered : forest.toList.map Node.index = List.range' position forest.size)
    {index stop : Nat} (outside : ∀ above ∈ outer, above.index < index)
    (apart : index < position ∧ stop ≤ position ∨ position + forest.size ≤ index) :
    ∀ entry ∈ forest.withAncestors outer,
      OnPath index entry ↔ index ≤ entry.1.index ∧ entry.1.index < stop := by
  intro entry placed
  have inForest := index_of_placed numbered placed
  have offPath : ¬OnPath index entry := by
    rintro (equal | ⟨above, isAbove, equal⟩)
    · omega
    · rcases mem_of_mem_withAncestors placed isAbove with inOuter | isNode
      · exact Nat.ne_of_gt (outside above inOuter) equal
      · have isInForest := index_of_numbered numbered isNode
        omega
  simp only [offPath, false_iff]
  omega

/-- A node is on the paths to the nodes of an interval of numbers: to its own, and
to those of the nodes below it, which come right after it. -/
theorem exists_interval {forest : Forest Node} {position : Nat} {outer : List Node}
    (numbered : forest.toList.map Node.index = List.range' position forest.size)
    (outside : ∀ above ∈ outer, above.index < position) {target : Node}
    (member : target ∈ forest.toList) :
    ∃ stop ≤ position + forest.size, ∀ entry ∈ forest.withAncestors outer,
      OnPath target.index entry ↔ target.index ≤ entry.1.index ∧ entry.1.index < stop := by
  induction forest generalizing position outer with
  | nil => contradiction
  | node value below after belowInterval afterInterval =>
    rcases numbered_node numbered with ⟨indexEq, belowNumbered, afterNumbered⟩
    have sizeEq : (node value below after).size = 1 + below.size + after.size := rfl
    have outerBefore : ∀ above ∈ outer, above.index < target.index := by
      intro above inOuter
      exact Nat.lt_of_lt_of_le (outside above inOuter) (index_of_numbered numbered member).1
    have here : OnPath target.index (value, outer) ↔ target.index = value.index :=
      onPath_iff_of_outside outerBefore
    rw [toList, List.mem_cons, List.mem_append] at member
    simp only [withAncestors, List.forall_mem_cons, List.forall_mem_append, here]
    rcases member with rfl | targetBelow | targetAfter
    · -- The first node is above everything below it and above nothing else.
      refine ⟨position + 1 + below.size, by omega, by omega, ?_, ?_⟩
      · intro entry placed
        have onPath : OnPath target.index entry :=
          Or.inr ⟨target, subset_of_mem_withAncestors placed List.mem_cons_self, rfl⟩
        have inBelow := index_of_placed belowNumbered placed
        simp only [onPath, true_iff]
        omega
      · exact onPath_iff_of_apart afterNumbered outerBefore (by omega)
    · have inBelow := index_of_numbered belowNumbered targetBelow
      have belowOutside : ∀ above ∈ value :: outer, above.index < position + 1 := by
        rw [List.forall_mem_cons]
        exact ⟨by omega, fun above inOuter => Nat.lt_succ_of_lt (outside above inOuter)⟩
      rcases belowInterval belowNumbered belowOutside targetBelow with ⟨stop, stopLe, interval⟩
      refine ⟨stop, by omega, by omega, interval, ?_⟩
      exact onPath_iff_of_apart afterNumbered outerBefore (by omega)
    · have inAfter := index_of_numbered afterNumbered targetAfter
      have afterOutside : ∀ above ∈ outer, above.index < position + 1 + below.size := by
        intro above inOuter
        exact Nat.lt_of_lt_of_le (outside above inOuter) (by omega)
      rcases afterInterval afterNumbered afterOutside targetAfter with ⟨stop, stopLe, interval⟩
      refine ⟨stop, by omega, by omega, ?_, interval⟩
      apply onPath_iff_of_apart belowNumbered _ (by omega)
      rw [List.forall_mem_cons]
      exact ⟨by omega, outerBefore⟩

end Forest

namespace Tree

variable {tree : Tree}

theorem nodup_nodes (tree : Tree) : tree.nodes.Nodup := by
  apply tree.pairwise_index_nodes.imp
  rintro first second earlier rfl
  exact Nat.lt_irrefl _ earlier

theorem exists_mem_withAncestors {node : Node} (member : node ∈ tree.nodes) :
    ∃ above, (node, above) ∈ tree.withAncestors := by
  rw [nodes, ← Forest.map_fst_withAncestors tree.forest []] at member
  obtain ⟨⟨_, above⟩, placed, rfl⟩ := List.mem_map.mp member
  exact ⟨above, placed⟩

theorem index_root (tree : Tree) : tree.root.index = 0 := by
  have numbered := tree.numbered
  rw [List.map_cons, List.range_succ_eq_map] at numbered
  exact (List.cons.inj numbered).1

theorem withAncestors_eq (tree : Tree) :
    tree.withAncestors = (tree.root, []) :: tree.below.withAncestors [tree.root] := by
  simp [withAncestors, forest, Forest.withAncestors]

/-- The root is above every other node. -/
theorem root_mem_above {node : Node} {above : List Node}
    (placed : (node, above) ∈ tree.withAncestors) (notFirst : node.index ≠ 0) :
    tree.root ∈ above := by
  have found := withAncestors_getElem?_index placed
  obtain ⟨place, placeEq⟩ := Nat.exists_eq_succ_of_ne_zero notFirst
  rw [withAncestors_eq, placeEq, List.getElem?_cons_succ] at found
  exact Forest.subset_of_mem_withAncestors (List.mem_of_getElem? found) List.mem_cons_self

/-- The root alone has nothing above it. -/
theorem head?_above_eq_none_iff {node : Node} {above : List Node}
    (placed : (node, above) ∈ tree.withAncestors) : above.head? = none ↔ node.index = 0 := by
  rw [List.head?_eq_none_iff]
  constructor
  · rintro rfl
    by_contra notFirst
    exact List.not_mem_nil (root_mem_above placed notFirst)
  · intro first
    have found := withAncestors_getElem?_index placed
    rw [withAncestors_eq, first, List.getElem?_cons_zero] at found
    cases found
    rfl

/-- The node at an index is the one whose children are listed there. -/
theorem node?_eq_map_entries (tree : Tree) (index : Nat) :
    tree.node? index = tree.entries[index]?.map Prod.fst := by
  rw [node?, nodes, ← Forest.map_fst_entries, List.getElem?_map]
  rfl

theorem children_of_mem_entries {entry : Node × List Node} (member : entry ∈ tree.entries) :
    tree.children entry.1.index = entry.2 := by
  obtain ⟨position, found⟩ := List.mem_iff_getElem?.mp member
  have atPosition : tree.node? position = some entry.1 := by
    rw [node?_eq_map_entries, found]
    rfl
  rw [index_of_node?_eq_some atPosition, children, found]
  rfl

/-- The children of the node at an index are the nodes whose parent has that
index, in pre-order. -/
theorem children_eq_filter (tree : Tree) (index : Nat) :
    tree.children index = (tree.withAncestors.filter fun entry =>
      entry.2.head?.map Node.index = some index).map Prod.fst := by
  have parentMember : ∀ entry ∈ tree.withAncestors, ∀ parent, entry.2.head? = some parent →
      parent ∈ tree.nodes := fun entry placed parent first =>
    mem_nodes_of_mem_above placed (List.mem_of_head? first)
  rw [children]
  cases found : tree.entries[index]? with
  | none =>
    have past : tree.node? index = none := by
      rw [node?_eq_map_entries, found]
      rfl
    have noParent : (tree.withAncestors.filter fun entry =>
        entry.2.head?.map Node.index = some index) = [] := by
      rw [List.filter_eq_nil_iff]
      intro entry placed hasParent
      rw [decide_eq_true_eq, Option.map_eq_some_iff] at hasParent
      obtain ⟨parent, first, rfl⟩ := hasParent
      rw [mem_nodes_iff.mp (parentMember entry placed parent first)] at past
      contradiction
    rw [noParent]
    rfl
  | some entry =>
    have atIndex : tree.node? index = some entry.1 := by
      rw [node?_eq_map_entries, found]
      rfl
    have indexEq : entry.1.index = index := index_of_node?_eq_some atIndex
    change entry.2 = _
    have noneAbove : ∀ outermost ∈ ([] : List Node), outermost ∉ tree.nodes := by simp
    rw [Forest.eq_childrenOf_of_mem_entries tree.nodup_nodes noneAbove
      (List.mem_of_getElem? found)]
    refine congrArg (List.map Prod.fst) (List.filter_congr ?_)
    intro other placed
    rw [decide_eq_decide]
    constructor
    · intro first
      rw [first, Option.map_some, indexEq]
    · intro sameIndex
      obtain ⟨parent, first, parentIndex⟩ := Option.map_eq_some_iff.mp sameIndex
      rw [first, eq_of_index_eq (parentMember other placed parent first)
        (mem_nodes_of_node? atIndex) (parentIndex.trans indexEq.symm)]

/-- A node is among the children of its parent and of no other node. -/
theorem mem_children_iff {node : Node} {above : List Node}
    (placed : (node, above) ∈ tree.withAncestors) {index : Nat} :
    node ∈ tree.children index ↔ above.head?.map Node.index = some index := by
  rw [children_eq_filter, List.mem_map]
  constructor
  · rintro ⟨⟨child, other⟩, found, childEq⟩
    obtain ⟨otherPlaced, parentEq⟩ := List.mem_filter.mp found
    change child = node at childEq
    subst child
    have same : some (node, above) = some (node, other) :=
      (withAncestors_getElem?_index placed).symm.trans (withAncestors_getElem?_index otherPlaced)
    cases same
    exact of_decide_eq_true parentEq
  · intro parentEq
    exact ⟨(node, above), List.mem_filter.mpr ⟨placed, decide_eq_true parentEq⟩, rfl⟩

theorem children_sublist_nodes (tree : Tree) (index : Nat) :
    (tree.children index).Sublist tree.nodes := by
  rw [children_eq_filter, nodes, ← Forest.map_fst_withAncestors tree.forest []]
  exact List.filter_sublist.map Prod.fst

/-- The children of a node come in order of their indices. -/
theorem pairwise_index_children (tree : Tree) (index : Nat) :
    (tree.children index).Pairwise fun first second => first.index < second.index :=
  tree.pairwise_index_nodes.sublist (tree.children_sublist_nodes index)

/-- The index of a child stands in the list of its parent. -/
def IsChild (tree : Tree) (parent child : Nat) : Prop :=
  child ∈ (tree.children parent).map Node.index

theorem isChild_iff {node : Node} {above : List Node}
    (placed : (node, above) ∈ tree.withAncestors) {parent : Nat} :
    tree.IsChild parent node.index ↔ above.head?.map Node.index = some parent := by
  rw [← mem_children_iff placed, IsChild, List.mem_map]
  constructor
  · rintro ⟨other, isChild, sameIndex⟩
    have otherMember := (tree.children_sublist_nodes parent).subset isChild
    rwa [← eq_of_index_eq otherMember (mem_nodes_of_mem_withAncestors placed) sameIndex]
  · intro isChild
    exact ⟨node, isChild, rfl⟩

theorem lt_size_of_isChild {parent child : Nat} (isChild : tree.IsChild parent child) :
    child < tree.size := by
  rw [← List.mem_range, ← map_index_nodes]
  exact ((tree.children_sublist_nodes parent).map Node.index).subset isChild

/-- A node is below itself and below the nodes above it. -/
theorem reflTransGen_isChild_iff {node : Node} {above : List Node}
    (placed : (node, above) ∈ tree.withAncestors) {index : Nat} :
    Relation.ReflTransGen tree.IsChild index node.index ↔ Forest.OnPath index (node, above) := by
  induction above generalizing node with
  | nil =>
    rw [Relation.ReflTransGen.cases_tail_iff]
    simp [Forest.OnPath, isChild_iff placed, eq_comm]
  | cons parent above ih =>
    have parentPlaced := parent_mem_withAncestors placed
    rw [Relation.ReflTransGen.cases_tail_iff]
    simp only [isChild_iff placed, List.head?_cons, Option.map_some, Option.some.injEq,
      exists_eq_right', ih parentPlaced, Forest.OnPath, List.mem_cons, exists_eq_or_imp]
    rw [eq_comm]

theorem exists_index_eq (tree : Tree) {index : Nat} (inside : index < tree.size) :
    ∃ node ∈ tree.nodes, node.index = index := by
  rw [← List.mem_range, ← map_index_nodes, List.mem_map] at inside
  exact inside

theorem index_lt_size {node : Node} (member : node ∈ tree.nodes) : node.index < tree.size := by
  rw [← List.mem_range, ← map_index_nodes]
  exact List.mem_map_of_mem member

theorem map_index_node? {index : Nat} (inside : index < tree.size) :
    (tree.node? index).map Node.index = some index := by
  obtain ⟨node, member, rfl⟩ := tree.exists_index_eq inside
  rw [mem_nodes_iff.mp member]
  rfl

theorem exists_mem_withAncestors_of_lt (tree : Tree) {index : Nat} (inside : index < tree.size) :
    ∃ node above, (node, above) ∈ tree.withAncestors ∧ node.index = index := by
  obtain ⟨node, member, indexEq⟩ := tree.exists_index_eq inside
  obtain ⟨above, placed⟩ := exists_mem_withAncestors member
  exact ⟨node, above, placed, indexEq⟩

/-- All nodes are below the root. -/
theorem reflTransGen_isChild_zero (tree : Tree) {index : Nat} (inside : index < tree.size) :
    Relation.ReflTransGen tree.IsChild 0 index := by
  obtain ⟨node, above, placed, rfl⟩ := tree.exists_mem_withAncestors_of_lt inside
  rw [reflTransGen_isChild_iff placed]
  by_cases first : node.index = 0
  · exact Or.inl first.symm
  · exact Or.inr ⟨tree.root, root_mem_above placed first, tree.index_root.symm⟩

/-- The descendants of a node, itself included, have the indices of an interval that
begins with its own. -/
theorem exists_interval (tree : Tree) {index : Nat} (inside : index < tree.size) :
    ∃ stop ≤ tree.size, ∀ other,
      Relation.ReflTransGen tree.IsChild index other ↔ index ≤ other ∧ other < stop := by
  obtain ⟨target, member, rfl⟩ := tree.exists_index_eq inside
  have noneAbove : ∀ above ∈ ([] : List Node), above.index < 0 := by simp
  obtain ⟨stop, stopLe, interval⟩ := Forest.exists_interval tree.numbered_forest noneAbove
    member
  rw [Nat.zero_add] at stopLe
  refine ⟨stop, stopLe, ?_⟩
  intro other
  by_cases otherInside : other < tree.size
  · obtain ⟨node, above, placed, rfl⟩ := tree.exists_mem_withAncestors_of_lt otherInside
    rw [reflTransGen_isChild_iff placed]
    exact interval (node, above) placed
  · -- Nothing past the end is a child, and the interval ends before.
    constructor
    · intro path
      rcases Relation.ReflTransGen.cases_tail_iff _ _ _ |>.mp path with rfl | ⟨parent, -, isChild⟩
      · exact absurd inside otherInside
      · exact absurd (lt_size_of_isChild isChild) otherInside
    · rintro ⟨-, beforeStop⟩
      exact absurd (Nat.lt_of_lt_of_le beforeStop stopLe) otherInside

end Tree

end TreeLens
