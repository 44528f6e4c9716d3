import TreeLens.Proofs.Tree.Children
import TreeLens.Proofs.Tree.Nesting

/-!
# Pairs of nodes

Validation compares a child with its parent and with the sibling before it. What
it accepts is a property of all pairs of nodes, at any distance from each other: a
descendant lies inside its ancestor, and of two nodes of which neither is above the
other, the first in pre-order ends before the second begins. Together with the span
of the root this is all that validation asks for.

Nodes without any bytes make no gap in the argument, since a node never ends before
it begins.
-/

namespace TreeLens

namespace Forest

/-- How two nodes lie, of which the first comes first in pre-order: the second is
inside the first if it is below it, and otherwise begins where the first has
ended. -/
def Arranged (first second : Node × List Node) : Prop :=
  first.1 ∈ second.2 ∧ first.1.start ≤ second.1.start ∧ second.1.stop ≤ first.1.stop ∨
    first.1 ∉ second.2 ∧ first.1.stop ≤ second.1.start

/-- A node above a whole forest is arranged with it exactly when the forest lies
inside the node. -/
theorem forall_arranged_of_above {forest : Forest Node} {outer : List Node}
    (first : Node × List Node) (above : first.1 ∈ outer) :
    (∀ second ∈ forest.withAncestors outer, Arranged first second) ↔
      ∀ node ∈ forest.toList, first.1.start ≤ node.start ∧ node.stop ≤ first.1.stop := by
  rw [← map_fst_withAncestors forest outer, List.forall_mem_map]
  refine forall₂_congr fun second placed => ?_
  have aboveSecond : first.1 ∈ second.2 := subset_of_mem_withAncestors placed above
  simp [Arranged, aboveSecond]

/-- A node that is neither above a forest nor in it is arranged with it exactly when
the forest begins after the node. -/
theorem forall_arranged_of_not_above {forest : Forest Node} {outer : List Node}
    (first : Node × List Node) (notAbove : first.1 ∉ outer)
    (notInside : first.1 ∉ forest.toList) :
    (∀ second ∈ forest.withAncestors outer, Arranged first second) ↔
      ∀ node ∈ forest.toList, first.1.stop ≤ node.start := by
  rw [← map_fst_withAncestors forest outer, List.forall_mem_map]
  refine forall₂_congr fun second placed => ?_
  have notAboveSecond : first.1 ∉ second.2 := by
    intro aboveSecond
    rcases mem_of_mem_withAncestors placed aboveSecond with inOuter | inForest
    · exact notAbove inOuter
    · exact notInside inForest
  simp [Arranged, notAboveSecond]

/-- Siblings with everything below them are nested between two bounds exactly when
all nodes lie between the bounds and every two of them are arranged. -/
theorem nested_iff_pairwise_arranged {forest : Forest Node} {outer : List Node}
    (distinct : forest.toList.Nodup) (apart : ∀ above ∈ outer, above ∉ forest.toList)
    {low high : Nat} :
    forest.Nested low high ↔
      (∀ node ∈ forest.toList, low ≤ node.start ∧ node.stop ≤ high) ∧
        (forest.withAncestors outer).Pairwise Arranged := by
  induction forest generalizing outer low high with
  | nil => simp [Nested, toList, withAncestors]
  | node value below after belowIff afterIff =>
    rw [toList, List.nodup_cons, List.nodup_append, List.mem_append, not_or] at distinct
    obtain ⟨⟨notBelow, notAfter⟩, belowDistinct, afterDistinct, disjoint⟩ := distinct
    simp only [toList, List.mem_cons, List.mem_append, not_or] at apart
    have belowApart : ∀ above ∈ value :: outer, above ∉ below.toList := by
      intro above inOuter
      rcases List.mem_cons.mp inOuter with rfl | further
      · exact notBelow
      · exact (apart above further).2.1
    have notOuter : value ∉ outer := fun inOuter => (apart value inOuter).1 rfl
    -- A node of `below` is not above any node of `after`, nor is it one of them.
    have acrossIff : (∀ first ∈ below.withAncestors (value :: outer),
        ∀ second ∈ after.withAncestors outer, Arranged first second) ↔
          ∀ first ∈ below.toList, ∀ second ∈ after.toList, first.stop ≤ second.start := by
      rw [← map_fst_withAncestors below (value :: outer), List.forall_mem_map]
      refine forall₂_congr fun first placed => ?_
      have inBelow : first.1 ∈ below.toList := mem_toList_of_mem_withAncestors placed
      exact forall_arranged_of_not_above first (fun inOuter => (apart _ inOuter).2.1 inBelow)
        (fun inAfter => disjoint _ inBelow _ inAfter rfl)
    rw [Nested, belowIff belowDistinct belowApart,
      afterIff afterDistinct fun above inOuter => (apart above inOuter).2.2,
      toList, withAncestors, List.forall_mem_cons, List.forall_mem_append, List.pairwise_cons,
      List.pairwise_append, List.forall_mem_append, acrossIff,
      forall_arranged_of_above (value, outer) List.mem_cons_self,
      forall_arranged_of_not_above (value, outer) notOuter notAfter]
    have ordered : value.start ≤ value.stop := Nat.le_add_right _ _
    constructor
    · rintro ⟨lowLe, leHigh, ⟨belowBounds, belowPairs⟩, afterBounds, afterPairs⟩
      refine ⟨⟨⟨lowLe, leHigh⟩, ?_, ?_⟩,
        ⟨belowBounds, fun node inAfter => (afterBounds node inAfter).1⟩, belowPairs, afterPairs, ?_⟩
      · intro node inBelow
        obtain ⟨startLe, leStop⟩ := belowBounds node inBelow
        exact ⟨Nat.le_trans lowLe startLe, Nat.le_trans leStop leHigh⟩
      · intro node inAfter
        obtain ⟨stopLe, leEnd⟩ := afterBounds node inAfter
        exact ⟨Nat.le_trans lowLe (Nat.le_trans ordered stopLe), leEnd⟩
      · intro first inBelow second inAfter
        exact Nat.le_trans (belowBounds first inBelow).2 (afterBounds second inAfter).1
    · rintro ⟨⟨⟨lowLe, leHigh⟩, -, afterInside⟩, ⟨belowBounds, afterBegins⟩, belowPairs,
        afterPairs, -⟩
      refine ⟨lowLe, leHigh, ⟨belowBounds, belowPairs⟩, ?_, afterPairs⟩
      intro node inAfter
      exact ⟨afterBegins node inAfter, (afterInside node inAfter).2⟩

end Forest

namespace Tree

variable {tree : Tree}

/-- A tree is accepted exactly when its root spans the source and every two of its
nodes are arranged. -/
theorem validate_eq_ok_iff_pairwise_arranged :
    tree.validate = .ok () ↔
      tree.root.full = ⟨0, tree.sourceLength⟩ ∧ tree.withAncestors.Pairwise Forest.Arranged := by
  have distinct : (tree.root :: tree.below.toList).Nodup := by
    rw [← tree.nodes_eq]
    exact tree.nodup_nodes
  obtain ⟨notBelow, belowDistinct⟩ := List.nodup_cons.mp distinct
  have rootApart : ∀ above ∈ [tree.root], above ∉ tree.below.toList := by simpa using notBelow
  rw [validate_eq_ok_iff, Forest.nested_iff_pairwise_arranged belowDistinct rootApart,
    withAncestors_eq, List.pairwise_cons,
    Forest.forall_arranged_of_above (tree.root, []) List.mem_cons_self]

/-- One node is a descendant of another exactly when that one is above it. -/
theorem transGen_isChild_iff {first second : Node} {above : List Node}
    (member : first ∈ tree.nodes) (placed : (second, above) ∈ tree.withAncestors)
    (earlier : first.index < second.index) :
    Relation.TransGen tree.IsChild first.index second.index ↔ first ∈ above := by
  have path : Relation.ReflTransGen tree.IsChild first.index second.index ↔
      Forest.OnPath first.index (second, above) := reflTransGen_isChild_iff placed
  rw [Relation.reflTransGen_iff_eq_or_transGen, Forest.OnPath] at path
  simp only [Nat.ne_of_gt earlier, Nat.ne_of_lt earlier, false_or] at path
  rw [path]
  constructor
  · rintro ⟨ancestor, isAbove, sameIndex⟩
    rwa [eq_of_index_eq member (mem_nodes_of_mem_above placed isAbove) sameIndex]
  · intro isAbove
    exact ⟨first, isAbove, rfl⟩

/-- Pairs in pre-order are pairs in order of their indices. -/
theorem pairwise_withAncestors_iff {relation : Node × List Node → Node × List Node → Prop} :
    tree.withAncestors.Pairwise relation ↔
      ∀ first ∈ tree.withAncestors, ∀ second ∈ tree.withAncestors,
        first.1.index < second.1.index → relation first second := by
  rw [List.pairwise_iff_getElem]
  constructor
  · intro pairs first firstPlaced second secondPlaced earlier
    obtain ⟨firstInside, firstEq⟩ :=
      List.getElem?_eq_some_iff.mp (withAncestors_getElem?_index firstPlaced)
    obtain ⟨secondInside, secondEq⟩ :=
      List.getElem?_eq_some_iff.mp (withAncestors_getElem?_index secondPlaced)
    have related := pairs _ _ firstInside secondInside earlier
    rwa [firstEq, secondEq] at related
  · intro pairs i j iInside jInside earlier
    have iIndex : tree.withAncestors[i].1.index = i :=
      index_of_withAncestors_getElem? (List.getElem?_eq_getElem iInside)
    have jIndex : tree.withAncestors[j].1.index = j :=
      index_of_withAncestors_getElem? (List.getElem?_eq_getElem jInside)
    apply pairs _ (List.getElem_mem iInside) _ (List.getElem_mem jInside)
    rwa [iIndex, jIndex]

/-- Validation accepts a tree exactly when its root spans the source and of every two
nodes the later one either is a descendant of the earlier and lies inside it, or is
no descendant and begins after it has ended. -/
theorem validate_iff_every_pair (tree : Tree) :
    tree.validate = .ok () ↔
      tree.root.full = ⟨0, tree.sourceLength⟩ ∧
        ∀ i j first second, i < j → tree.node? i = some first → tree.node? j = some second →
          Relation.TransGen tree.IsChild i j ∧
              first.start ≤ second.start ∧ second.stop ≤ first.stop ∨
            ¬Relation.TransGen tree.IsChild i j ∧ first.stop ≤ second.start := by
  rw [validate_eq_ok_iff_pairwise_arranged, pairwise_withAncestors_iff]
  apply and_congr_right
  intro _
  constructor
  · intro pairs i j first second earlier firstFound secondFound
    obtain rfl := index_of_node?_eq_some firstFound
    obtain rfl := index_of_node?_eq_some secondFound
    have firstMember := mem_nodes_of_node? firstFound
    obtain ⟨above, firstPlaced⟩ := exists_mem_withAncestors firstMember
    obtain ⟨_, secondPlaced⟩ := exists_mem_withAncestors (mem_nodes_of_node? secondFound)
    rw [transGen_isChild_iff firstMember secondPlaced earlier]
    exact pairs (first, above) firstPlaced _ secondPlaced earlier
  · intro pairs first firstPlaced second secondPlaced earlier
    have firstMember := mem_nodes_of_mem_withAncestors firstPlaced
    have arranged := pairs _ _ _ _ earlier (mem_nodes_iff.mp firstMember)
      (mem_nodes_iff.mp (mem_nodes_of_mem_withAncestors secondPlaced))
    rwa [transGen_isChild_iff firstMember secondPlaced earlier] at arranged

end Tree

end TreeLens
