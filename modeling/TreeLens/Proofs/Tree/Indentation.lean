import TreeLens.Proofs.Tree.Linking

/-!
# Depths in pre-order

A forest can be written down as the list of its values in pre-order with their depths, and
nothing is lost: reading the rows from the last to the first, a row takes what is deeper,
up to the first row that is not, as the forest below it.

The depths alone say who is whose child. The nodes below a node come right after it and are
deeper, so from any node back to its parent there is nothing but deeper nodes: the parent is
the nearest node before it that is one less deep.
-/

namespace TreeLens

namespace Forest

variable {α β : Type}

theorem toRows_map (change : α → β) (depth : Nat) (forest : Forest α) :
    (forest.map change).toRows depth =
      (forest.toRows depth).map fun row => (row.1, change row.2) := by
  induction forest generalizing depth with
  | nil => rfl
  | node value below after belowRows afterRows =>
    simp only [map, toRows, List.map_cons, List.map_append, belowRows, afterRows]

/-- The depth of a value counts the values above it. -/
theorem map_withAncestors_eq_toRows (forest : Forest α) (outer : List α) :
    ((forest.withAncestors outer).map fun entry => (entry.2.length, entry.1)) =
      forest.toRows outer.length := by
  induction forest generalizing outer with
  | nil => rfl
  | node value below after belowRows afterRows =>
    simp only [withAncestors, toRows, List.map_cons, List.map_append, belowRows, afterRows,
      List.length_cons]

/-! ## Reading rows back -/

/-- A row takes the branches that are deeper and leaves those from the first on that is
not. -/
theorem addRow_append {depth : Nat} {deeper rest : List (Nat × α × Forest α)} (value : α)
    (allDeeper : ∀ branch ∈ deeper, depth < branch.1)
    (notDeeper : ∀ branch ∈ rest.head?, branch.1 ≤ depth) :
    addRow (depth, value) (deeper ++ rest) =
      (depth, value, ofBranches (deeper.map Prod.snd)) :: rest := by
  have taken : ∀ branch ∈ deeper, decide (depth < branch.1) = true := by
    intro branch member
    exact decide_eq_true (allDeeper branch member)
  rw [addRow, List.takeWhile_append_of_pos taken, List.dropWhile_append_of_pos taken]
  cases rest with
  | nil => simp
  | cons first later =>
    have left : ¬depth < first.1 := Nat.not_lt.mpr (notDeeper first rfl)
    simp [left]

/-- Rows of a forest that stand before others become the branches of that forest, as long
as the others do not begin deeper. The induction is over the forest; what is read from the
rows behind it stays as it is. -/
theorem foldr_addRow_toRows (forest : Forest α) {depth : Nat} {read : List (Nat × α × Forest α)}
    (notDeeper : ∀ branch ∈ read.head?, branch.1 ≤ depth) :
    (forest.toRows depth).foldr addRow read = forest.branches.map (depth, ·) ++ read := by
  induction forest generalizing depth read with
  | nil => rfl
  | node value below after belowRead afterRead =>
    have afterNotDeeper : ∀ branch ∈ (after.branches.map (depth, ·) ++ read).head?,
        branch.1 ≤ depth := by
      intro branch first
      cases after with
      | nil => exact notDeeper branch first
      | node =>
        cases first
        exact Nat.le_refl depth
    have allDeeper : ∀ branch ∈ below.branches.map (depth + 1, ·), depth < branch.1 := by
      intro branch member
      rcases List.mem_map.mp member with ⟨_, _, rfl⟩
      exact Nat.lt_succ_self depth
    have belowNotDeeper : ∀ branch ∈ (after.branches.map (depth, ·) ++ read).head?,
        branch.1 ≤ depth + 1 := by
      intro branch first
      exact Nat.le_succ_of_le (afterNotDeeper branch first)
    rw [toRows, List.foldr_cons, List.foldr_append, afterRead notDeeper,
      belowRead belowNotDeeper, addRow_append value allDeeper afterNotDeeper]
    simp [branches, Function.comp_def]

/-- The rows of a forest are read back as that forest. -/
theorem ofRows_toRows (forest : Forest α) (depth : Nat) :
    ofRows (forest.toRows depth) = forest := by
  have noneBehind : ∀ branch ∈ ([] : List (Nat × α × Forest α)).head?, branch.1 ≤ depth := by simp
  rw [ofRows, foldr_addRow_toRows forest noneBehind]
  simp [Function.comp_def]

end Forest

namespace Lineage

variable {tree : Tree}

theorem depth_of_isChild {parent child : Nat} (isChild : tree.IsChild parent child) :
    (ofTree tree).depth child = (ofTree tree).depth parent + 1 := by
  have recorded := (parent?_ofTree_eq_some_iff tree).mpr isChild
  rw [depth_ofTree_eq_length, ancestors_of_some recorded, List.length_cons,
    ← depth_ofTree_eq_length]

/-- Nodes are deeper than those above them. -/
theorem depth_lt_of_transGen {upper lower : Nat}
    (descends : Relation.TransGen tree.IsChild upper lower) :
    (ofTree tree).depth upper < (ofTree tree).depth lower := by
  induction descends with
  | single isChild =>
    rw [depth_of_isChild isChild]
    exact Nat.lt_succ_self _
  | tail _ isChild deeper =>
    rw [depth_of_isChild isChild]
    exact Nat.lt_succ_of_lt deeper

/-- Everything between a node and one of its children is deeper than the node. -/
theorem depth_lt_of_between {parent child between : Nat} (isChild : tree.IsChild parent child)
    (later : parent < between) (earlier : between < child) :
    (ofTree tree).depth parent < (ofTree tree).depth between := by
  have inside : parent < tree.size :=
    Nat.lt_trans (Nat.lt_trans later earlier) (Tree.lt_size_of_isChild isChild)
  rcases tree.exists_interval inside with ⟨stop, -, interval⟩
  have childBefore : child < stop := ((interval child).mp (.single isChild)).2
  have descends : Relation.ReflTransGen tree.IsChild parent between :=
    (interval between).mpr ⟨Nat.le_of_lt later, Nat.lt_trans earlier childBefore⟩
  rcases Relation.reflTransGen_iff_eq_or_transGen.mp descends with same | below
  · exact absurd same (Nat.ne_of_gt later)
  · exact depth_lt_of_transGen below

end Lineage

/-! ## Parents and children by depth -/

namespace Depths

/-- The nearest position before another one that is one less deep. -/
def parent? (depths : List Nat) (position : Nat) : Option Nat :=
  (List.range position).reverse.find? fun earlier =>
    depths[earlier]?.map (· + 1) = depths[position]?

/-- The positions that have a given one as their parent, in order. -/
def children (depths : List Nat) (position : Nat) : List Nat :=
  (List.range depths.length).filter fun later => parent? depths later = some position

/-- A number is found from the end of a range if it is the last one of its kind there. -/
theorem find?_reverse_range {isWanted : Nat → Bool} {stop last : Nat} (inside : last < stop)
    (wanted : isWanted last = true)
    (unwanted : ∀ later, last < later → later < stop → isWanted later = false) :
    (List.range stop).reverse.find? isWanted = some last := by
  induction stop with
  | zero => contradiction
  | succ stop findEarlier =>
    rw [List.range_succ, List.reverse_concat, List.find?_cons]
    rcases Nat.lt_succ_iff_lt_or_eq.mp inside with earlier | rfl
    · rw [unwanted stop earlier (Nat.lt_succ_self stop)]
      apply findEarlier earlier
      intro later isLater isBefore
      exact unwanted later isLater (Nat.lt_succ_of_lt isBefore)
    · rw [wanted]

end Depths

namespace Tree

/-- The depths of all nodes in pre-order. -/
def depths (tree : Tree) : List Nat :=
  tree.nodes.map fun node => (Lineage.ofTree tree).depth node.index

variable {tree : Tree}

@[simp]
theorem length_depths (tree : Tree) : tree.depths.length = tree.size := by
  rw [depths, List.length_map, length_nodes]

theorem getElem?_depths {index : Nat} (inside : index < tree.size) :
    tree.depths[index]? = some ((Lineage.ofTree tree).depth index) := by
  rcases tree.exists_index_eq inside with ⟨node, member, rfl⟩
  rw [depths, List.getElem?_map]
  exact congrArg (Option.map _) (mem_nodes_iff.mp member)

/-- The nodes with their depths are the rows of the tree. -/
theorem map_depth_nodes (tree : Tree) :
    (tree.nodes.map fun node => ((Lineage.ofTree tree).depth node.index, node)) =
      tree.forest.toRows 0 := by
  have rows := Forest.map_withAncestors_eq_toRows tree.forest []
  rw [List.length_nil] at rows
  rw [← rows, nodes, ← Forest.map_fst_withAncestors tree.forest [], List.map_map]
  apply List.map_congr_left
  intro entry placed
  exact congrArg (·, entry.1) (Lineage.depth_ofTree placed)

/-- Going by the depths alone, the parent of a node is the one the lineage records. -/
theorem parent?_depths {index : Nat} (inside : index < tree.size) :
    Depths.parent? tree.depths index = (Lineage.ofTree tree).parent? index := by
  cases recorded : (Lineage.ofTree tree).parent? index with
  | none =>
    rw [(Lineage.parent?_ofTree_eq_none_iff tree inside).mp recorded]
    rfl
  | some parent =>
    have isChild := (Lineage.parent?_ofTree_eq_some_iff tree).mp recorded
    have parentLt : parent < index := (Lineage.ofTree tree).parent_lt recorded
    have oneDeeper := Lineage.depth_of_isChild isChild
    apply Depths.find?_reverse_range parentLt
    · rw [getElem?_depths inside, getElem?_depths (Nat.lt_trans parentLt inside), oneDeeper]
      exact decide_eq_true rfl
    · intro between later earlier
      have deeper := Lineage.depth_lt_of_between isChild later earlier
      rw [getElem?_depths inside, getElem?_depths (Nat.lt_trans earlier inside), oneDeeper]
      simp only [Option.map_some, Option.some.injEq, Nat.add_right_cancel_iff,
        decide_eq_false_iff_not]
      exact Nat.ne_of_gt deeper

/-- Going by the depths alone, the children of a node are its children. -/
theorem children_depths (tree : Tree) (index : Nat) :
    Depths.children tree.depths index = (tree.children index).map Node.index := by
  have lines : List.range tree.size = tree.withAncestors.map fun entry => entry.1.index := by
    rw [← map_index_nodes, nodes, ← Forest.map_fst_withAncestors tree.forest [], List.map_map]
    rfl
  calc
    Depths.children tree.depths index
      = (List.range tree.size).filter fun later =>
          (Lineage.ofTree tree).parent? later = some index := by
        rw [Depths.children, length_depths]
        apply List.filter_congr
        intro later inRange
        rw [parent?_depths (List.mem_range.mp inRange)]
    _ = (tree.withAncestors.filter fun entry =>
          entry.2.head?.map Node.index = some index).map fun entry => entry.1.index := by
        rw [lines, List.filter_map]
        apply congrArg (List.map _)
        apply List.filter_congr
        intro entry placed
        rw [Function.comp_apply, Lineage.parent?_ofTree placed]
    _ = (tree.children index).map Node.index := by
        rw [children_eq_filter, List.map_map]
        rfl

end Tree

end TreeLens
