import TreeLens.Proofs.Forest
import TreeLens.Tree.Validity

/-!
# Nested extents

Validation looks at one node and its children at a time. Here the same is said
once for a whole forest: siblings lie one after the other between two bounds,
and what is below a sibling lies between the bounds of that sibling. A tree is
accepted exactly when its root spans the source and the rest is nested in it,
and then the bounds reach every node at any depth, not only the children.
-/

namespace TreeLens

namespace Forest

/-- Siblings lie in order between two bounds, each with everything below it. -/
def Nested (low high : Nat) : Forest Node → Prop
  | nil => True
  | node value below after =>
    low ≤ value.start ∧ value.stop ≤ high ∧
      below.Nested value.start value.stop ∧ after.Nested value.stop high

/-- The bounds of a nested forest hold for all of its nodes. -/
theorem Nested.bounds {forest : Forest Node} {low high : Nat} (nested : forest.Nested low high)
    {node : Node} (member : node ∈ forest.toList) : low ≤ node.start ∧ node.stop ≤ high := by
  induction forest generalizing low high with
  | nil => contradiction
  | node value below after belowBounds afterBounds =>
    obtain ⟨lowLe, leHigh, belowNested, afterNested⟩ := nested
    have ordered : value.start ≤ value.stop := Nat.le_add_right _ _
    rw [toList, List.mem_cons, List.mem_append] at member
    rcases member with rfl | inBelow | inAfter
    · exact ⟨lowLe, leHigh⟩
    · obtain ⟨startLe, leStop⟩ := belowBounds belowNested inBelow
      exact ⟨Nat.le_trans lowLe startLe, Nat.le_trans leStop leHigh⟩
    · obtain ⟨stopLe, leEnd⟩ := afterBounds afterNested inAfter
      exact ⟨Nat.le_trans lowLe (Nat.le_trans ordered stopLe), leEnd⟩

end Forest

/-- A first child is refused for its place alone; otherwise the others are
looked at. -/
theorem siblingDefect?_cons_eq_none_iff {parent child : Node} {reached : Nat}
    {rest : List Node} :
    siblingDefect? parent reached (child :: rest) = none ↔
      reached ≤ child.start ∧ child.stop ≤ parent.stop ∧
        siblingDefect? parent child.stop rest = none := by
  rw [siblingDefect?]
  by_cases early : child.start < reached
  · simp [early, Nat.not_le.mpr early]
  · by_cases late : parent.stop < child.stop
    · simp [early, late, Nat.not_le.mpr late]
    · simp [early, late, Nat.not_lt.mp early, Nat.not_lt.mp late]

/-- A forest is nested in a parent exactly when validation finds no fault with
its top siblings in that parent and none with the children of its own nodes. -/
theorem Forest.nested_iff {forest : Forest Node} {parent : Node} {low : Nat} :
    forest.Nested low parent.stop ↔
      siblingDefect? parent low forest.roots = none ∧
        ∀ entry ∈ forest.entries, siblingDefect? entry.1 entry.1.start entry.2 = none := by
  induction forest generalizing parent low with
  | nil => simp [Nested, roots, entries, siblingDefect?]
  | node value below after belowIff afterIff =>
    rw [Nested, belowIff, afterIff, roots, entries, siblingDefect?_cons_eq_none_iff]
    simp only [List.mem_cons, List.mem_append]
    constructor
    · rintro ⟨lowLe, leStop, ⟨topBelow, allBelow⟩, topAfter, allAfter⟩
      refine ⟨⟨lowLe, leStop, topAfter⟩, ?_⟩
      rintro entry (rfl | inBelow | inAfter)
      · exact topBelow
      · exact allBelow entry inBelow
      · exact allAfter entry inAfter
    · rintro ⟨⟨lowLe, leStop, topAfter⟩, all⟩
      refine ⟨lowLe, leStop, ⟨all _ (Or.inl rfl), ?_⟩, topAfter, ?_⟩
      · intro entry inBelow
        exact all entry (Or.inr (Or.inl inBelow))
      · intro entry inAfter
        exact all entry (Or.inr (Or.inr inAfter))

namespace Tree

theorem defect?_eq_none_iff {tree : Tree} :
    tree.defect? = none ↔
      tree.root.full = ⟨0, tree.sourceLength⟩ ∧
        tree.below.Nested tree.root.start tree.root.stop := by
  rw [Forest.nested_iff, defect?]
  by_cases spans : tree.root.full = ⟨0, tree.sourceLength⟩
  · simp [spans, entries, forest, Forest.entries]
  · simp [spans]

/-- A tree is accepted exactly when its root spans the source and everything
below is nested in it. -/
theorem validate_eq_ok_iff {tree : Tree} :
    tree.validate = .ok () ↔
      tree.root.full = ⟨0, tree.sourceLength⟩ ∧
        tree.below.Nested tree.root.start tree.root.stop := by
  rw [← defect?_eq_none_iff, validate]
  cases tree.defect? <;> simp

end Tree

end TreeLens
