import TreeLens.Tree.Basic

/-!
# Views of a forest

A forest can be looked at as a list in several ways: all values in pre-order,
the values at the top, or every value with those directly below it. Replacing
the values of a forest replaces them in each of these views and leaves the shape
alone; leaving out the numbers of a tree gives the labels it was made from.
-/

namespace TreeLens

namespace Forest

variable {α β γ : Type}

/-- The values at the top are values of the forest. -/
theorem mem_toList_of_mem_roots {forest : Forest α} {value : α}
    (top : value ∈ forest.roots) : value ∈ forest.toList := by
  induction forest with
  | nil => contradiction
  | node first below after _ afterMem =>
    rw [roots, List.mem_cons] at top
    rw [toList, List.mem_cons, List.mem_append]
    rcases top with rfl | later
    · exact Or.inl rfl
    · exact Or.inr (Or.inr (afterMem later))

theorem map_fst_entries (forest : Forest α) : forest.entries.map Prod.fst = forest.toList := by
  induction forest with
  | nil => rfl
  | node value below after belowMap afterMap =>
    simp only [entries, toList, List.map_cons, List.map_append, belowMap, afterMap]

/-- Values that stand directly below others are values of the forest. -/
theorem mem_toList_of_mem_entries {forest : Forest α} {entry : α × List α} {child : α}
    (member : entry ∈ forest.entries) (isChild : child ∈ entry.2) : child ∈ forest.toList := by
  induction forest with
  | nil => contradiction
  | node first below after belowMem afterMem =>
    rw [entries, List.mem_cons, List.mem_append] at member
    rw [toList, List.mem_cons, List.mem_append]
    rcases member with rfl | inBelow | inAfter
    · exact Or.inr (Or.inl (mem_toList_of_mem_roots isChild))
    · exact Or.inr (Or.inl (belowMem inBelow))
    · exact Or.inr (Or.inr (afterMem inAfter))

/-- The values at the top, each with everything below it. -/
def branches : Forest α → List (α × Forest α)
  | nil => []
  | node value below after => (value, below) :: after.branches

@[simp]
theorem ofBranches_branches (forest : Forest α) : ofBranches forest.branches = forest := by
  induction forest with
  | nil => rfl
  | node value below after _ afterEq => rw [branches, ofBranches, afterEq]

theorem size_map (change : α → β) (forest : Forest α) : (forest.map change).size = forest.size := by
  induction forest with
  | nil => rfl
  | node value below after belowSize afterSize => simp only [map, size, belowSize, afterSize]

theorem toList_map (change : α → β) (forest : Forest α) :
    (forest.map change).toList = forest.toList.map change := by
  induction forest with
  | nil => rfl
  | node value below after belowList afterList =>
    simp only [map, toList, List.map_cons, List.map_append, belowList, afterList]

theorem map_map (change : α → β) (again : β → γ) (forest : Forest α) :
    (forest.map change).map again = forest.map fun value => again (change value) := by
  induction forest with
  | nil => rfl
  | node value below after belowMap afterMap => simp only [map, belowMap, afterMap]

theorem roots_map (change : α → β) (forest : Forest α) :
    (forest.map change).roots = forest.roots.map change := by
  induction forest with
  | nil => rfl
  | node value below after _ afterRoots => simp only [map, roots, List.map_cons, afterRoots]

theorem entries_map (change : α → β) (forest : Forest α) :
    (forest.map change).entries =
      forest.entries.map fun entry => (change entry.1, entry.2.map change) := by
  induction forest with
  | nil => rfl
  | node value below after belowEntries afterEntries =>
    simp only [map, entries, roots_map, List.map_cons, List.map_append, belowEntries, afterEntries]

/-- Labels that were numbered are there again once the numbers are left out. -/
theorem map_toLabel_mapIdxFrom (position : Nat) (labels : Forest Label) :
    (labels.mapIdxFrom (fun index label => Node.mk label index) position).map Node.toLabel =
      labels := by
  induction labels generalizing position with
  | nil => rfl
  | node label below after belowMap afterMap => simp only [mapIdxFrom, map, belowMap, afterMap]

end Forest

namespace Tree

theorem map_toLabel_forest_ofLabels (root : Label) (below : Forest Label)
    (sourceLength : Nat) :
    (ofLabels root below sourceLength).forest.map Node.toLabel = .node root below .nil := by
  simp only [ofLabels, forest, Forest.map, Forest.map_toLabel_mapIdxFrom]

/-- The entries of a tree are entries of its labels once the numbers are left out. -/
theorem mem_entries_map_toLabel {tree : Tree} {labels : Forest Label}
    (unnumbered : tree.forest.map Node.toLabel = labels) {entry : Node × List Node}
    (member : entry ∈ tree.entries) :
    (entry.1.toLabel, entry.2.map Node.toLabel) ∈ labels.entries := by
  rw [← unnumbered, Forest.entries_map]
  exact List.mem_map_of_mem member

end Tree

end TreeLens
