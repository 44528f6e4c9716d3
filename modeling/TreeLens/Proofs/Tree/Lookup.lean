import TreeLens.Proofs.Tree.Ancestry
import TreeLens.Proofs.Tree.Nesting

/-!
# Lookup by offset

The lookup descends from the root and only ever looks at the children of one
node. On a tree without defects it finds what a scan over all nodes finds: the
nodes that contain an offset form one chain from the root down, the lookup ends
at the last of them, and the path to that node is the chain. No two children of
a node contain the same offset, so the lookup never meets an ambiguity.

The chain is stated as a descent that goes into the first sibling that contains
the offset. Nesting makes the scan, the lookup and the path agree with it.
-/

namespace TreeLens

namespace Forest

/-- The nodes that contain an offset, found by looking at every node. -/
def scan (offset : Nat) (forest : Forest Node) : List Node :=
  forest.toList.filter fun node => offset ∈ node.full

/-- The nodes that contain an offset on the way down: the first sibling that
contains it and then the same below that sibling. -/
def descent (offset : Nat) : Forest Node → List Node
  | nil => []
  | node value below after =>
    if offset ∈ value.full then value :: below.descent offset else after.descent offset

/-- Nothing in a nested forest contains an offset outside its bounds. -/
theorem Nested.not_mem_full {forest : Forest Node} {low high offset : Nat}
    (nested : forest.Nested low high) (outside : offset < low ∨ high ≤ offset) {node : Node}
    (member : node ∈ forest.toList) : offset ∉ node.full := by
  obtain ⟨lowLe, leHigh⟩ := nested.bounds member
  rintro ⟨startLe, ltStop⟩
  rcases outside with before | behind
  · exact Nat.lt_irrefl _ (Nat.lt_of_lt_of_le before (Nat.le_trans lowLe startLe))
  · exact Nat.lt_irrefl _ (Nat.lt_of_lt_of_le ltStop (Nat.le_trans leHigh behind))

theorem Nested.scan_eq_nil {forest : Forest Node} {low high offset : Nat}
    (nested : forest.Nested low high) (outside : offset < low ∨ high ≤ offset) :
    forest.scan offset = [] := by
  apply List.filter_eq_nil_iff.mpr
  intro node member
  rw [decide_eq_true_eq]
  exact nested.not_mem_full outside member

theorem Nested.roots_any_eq_false {forest : Forest Node} {low high offset : Nat}
    (nested : forest.Nested low high) (outside : offset < low ∨ high ≤ offset) :
    (forest.roots.any fun sibling => offset ∈ sibling.full) = false := by
  rw [List.any_eq_false]
  intro sibling top
  rw [decide_eq_true_eq]
  exact nested.not_mem_full outside (mem_toList_of_mem_roots top)

/-- In a nested forest the descent misses no node that contains the offset. -/
theorem Nested.scan_eq_descent {forest : Forest Node} {low high : Nat}
    (nested : forest.Nested low high) (offset : Nat) :
    forest.scan offset = forest.descent offset := by
  induction forest generalizing low high with
  | nil => rfl
  | node value below after belowScan afterScan =>
    obtain ⟨-, -, belowNested, afterNested⟩ := nested
    have divided : (node value below after).scan offset =
        (if offset ∈ value.full then [value] else []) ++ below.scan offset ++
          after.scan offset := by
      rw [scan, toList, List.filter_cons, List.filter_append]
      by_cases inside : offset ∈ value.full <;> simp [inside, scan]
    rw [divided, descent]
    by_cases inside : offset ∈ value.full
    · rw [if_pos inside, if_pos inside, afterNested.scan_eq_nil (Or.inl inside.2),
        belowScan belowNested]
      simp
    · have outside : offset < value.start ∨ value.stop ≤ offset := by
        rw [Span.mem_iff, not_and_or, Nat.not_le, Nat.not_lt] at inside
        exact inside
      rw [if_neg inside, if_neg inside, belowNested.scan_eq_nil outside, afterScan afterNested]
      simp

/-- In a nested forest the lookup ends at the last node of the descent. -/
theorem Nested.hit_eq {forest : Forest Node} {low high : Nat} (nested : forest.Nested low high)
    (offset : Nat) :
    forest.hit offset = match (forest.descent offset).getLast? with
      | none => .outside
      | some deepest => .inside deepest := by
  induction forest generalizing low high with
  | nil => rfl
  | node value below after belowHit afterHit =>
    obtain ⟨-, -, belowNested, afterNested⟩ := nested
    rw [hit, descent]
    by_cases inside : offset ∈ value.full
    · rw [if_pos inside, if_pos inside, afterNested.roots_any_eq_false (Or.inl inside.2),
        if_neg Bool.false_ne_true, belowHit belowNested, List.getLast?_cons]
      cases (below.descent offset).getLast? <;> rfl
    · rw [if_neg inside, if_neg inside, afterHit afterNested]

/-- The end of a descent has the rest of the descent above it. -/
theorem mem_withAncestors_of_descent {forest : Forest Node} {offset : Nat} {node : Node}
    (last : (forest.descent offset).getLast? = some node) (outer : List Node) :
    ∃ above, (node, above ++ outer) ∈ forest.withAncestors outer ∧
      (node :: above).reverse = forest.descent offset := by
  induction forest generalizing outer with
  | nil => contradiction
  | node value below after belowLast afterLast =>
    rw [withAncestors]
    rw [descent] at last ⊢
    by_cases inside : offset ∈ value.full
    · rw [if_pos inside] at last ⊢
      cases deeper : (below.descent offset).getLast? with
      | none =>
        rw [List.getLast?_cons, deeper] at last
        cases last
        refine ⟨[], List.mem_cons_self, ?_⟩
        rw [List.getLast?_eq_none_iff.mp deeper]
        rfl
      | some inner =>
        rw [List.getLast?_cons, deeper] at last
        cases last
        obtain ⟨above, placed, chain⟩ := belowLast deeper (value :: outer)
        refine ⟨above ++ [value], ?_, ?_⟩
        · rw [List.append_assoc]
          exact List.mem_cons_of_mem _ (List.mem_append_left _ placed)
        · rw [← chain]
          simp
    · rw [if_neg inside] at last ⊢
      obtain ⟨above, placed, chain⟩ := afterLast last outer
      exact ⟨above, List.mem_cons_of_mem _ (List.mem_append_right _ placed), chain⟩

/-- At most one of the siblings of a nested forest contains an offset. -/
theorem Nested.countP_roots_le_one {forest : Forest Node} {low high : Nat}
    (nested : forest.Nested low high) (offset : Nat) :
    forest.roots.countP (fun sibling => offset ∈ sibling.full) ≤ 1 := by
  induction forest generalizing low high with
  | nil => exact Nat.zero_le _
  | node value below after _ afterCount =>
    obtain ⟨-, -, -, afterNested⟩ := nested
    rw [roots, List.countP_cons]
    by_cases inside : offset ∈ value.full
    · have none : after.roots.countP (fun sibling => offset ∈ sibling.full) = 0 := by
        rw [List.countP_eq_zero]
        exact List.any_eq_false.mp (afterNested.roots_any_eq_false (Or.inl inside.2))
      simp [inside, none]
    · simp only [inside, decide_false, Bool.false_eq_true, if_false, Nat.add_zero]
      exact afterCount afterNested

/-- The children of every node of a nested forest are nested in their turn. -/
theorem Nested.countP_children_le_one {forest : Forest Node} {low high : Nat}
    (nested : forest.Nested low high) (offset : Nat) {entry : Node × List Node}
    (member : entry ∈ forest.entries) :
    entry.2.countP (fun child => offset ∈ child.full) ≤ 1 := by
  induction forest generalizing low high with
  | nil => contradiction
  | node value below after belowCount afterCount =>
    obtain ⟨-, -, belowNested, afterNested⟩ := nested
    rw [entries, List.mem_cons, List.mem_append] at member
    rcases member with rfl | inBelow | inAfter
    · exact belowNested.countP_roots_le_one offset
    · exact belowCount belowNested inBelow
    · exact afterCount afterNested inAfter

end Forest

namespace Tree

/-- A tree without defects is nested as a forest, from the start of the source
to its end. -/
theorem nested_of_validate {tree : Tree} (valid : tree.validate = .ok ()) :
    tree.forest.Nested 0 tree.sourceLength := by
  obtain ⟨spans, nested⟩ := validate_eq_ok_iff.mp valid
  have stopEq : tree.root.stop = tree.sourceLength := congrArg Span.stop spans
  exact ⟨Nat.zero_le _, Nat.le_of_eq stopEq, nested, trivial⟩

/-- The last of the nodes with some property has the largest index of them. -/
theorem index_le_of_getLast?_filter {tree : Tree} {property : Node → Bool} {last other : Node}
    (isLast : (tree.nodes.filter property).getLast? = some last)
    (member : other ∈ tree.nodes) (holds : property other = true) : other.index ≤ last.index := by
  have found : other ∈ tree.nodes.filter property := List.mem_filter.mpr ⟨member, holds⟩
  have sorted : (tree.nodes.filter property).Pairwise fun first second =>
      first.index < second.index := tree.pairwise_index_nodes.filter _
  obtain ⟨earlier, divided⟩ := List.getLast?_eq_some_iff.mp isLast
  rw [divided] at found sorted
  rcases List.mem_append.mp found with before | same
  · exact Nat.le_of_lt ((List.pairwise_append.mp sorted).2.2 other before last (by simp))
  · exact Nat.le_of_eq (congrArg Node.index (List.mem_singleton.mp same))

/-- The last of the nodes that contain an offset has the largest index. -/
theorem index_le_of_scan {tree : Tree} {offset : Nat} {last other : Node}
    (scanned : (tree.forest.scan offset).getLast? = some last)
    (member : other ∈ tree.nodes) (inside : offset ∈ other.full) : other.index ≤ last.index :=
  index_le_of_getLast?_filter scanned member (decide_eq_true inside)

/-- On a tree without defects the lookup finds the last of the nodes that contain
the offset. -/
theorem locate?_eq_getLast?_scan {tree : Tree} (valid : tree.validate = .ok ()) (offset : Nat) :
    tree.locate? offset = (tree.forest.scan offset).getLast? := by
  have nested := nested_of_validate valid
  rw [locate?, nested.hit_eq, nested.scan_eq_descent]
  cases (tree.forest.descent offset).getLast? <;> rfl

/-- The path to the last of the nodes that contain an offset goes through all of
them. -/
theorem pathTo_eq_scan {tree : Tree} (valid : tree.validate = .ok ()) {offset : Nat}
    {node : Node} (last : (tree.forest.scan offset).getLast? = some node) :
    (Lineage.ofTree tree).pathTo tree node = tree.forest.scan offset := by
  rw [(nested_of_validate valid).scan_eq_descent] at last ⊢
  obtain ⟨above, placed, chain⟩ := Forest.mem_withAncestors_of_descent last []
  rw [List.append_nil] at placed
  rw [Lineage.pathTo_ofTree placed, chain]

/-- On a tree without defects the lookup fails exactly past the end of the
source. Otherwise it finds, of all nodes that contain the offset, the one with
the largest index, and the path to it holds these nodes and no others. The
lookup never finds two children to choose from. -/
theorem locate?_eq_scan {tree : Tree} (valid : tree.validate = .ok ()) (offset : Nat) :
    (tree.locate? offset = none ↔ tree.sourceLength ≤ offset) ∧
      (∀ node, tree.locate? offset = some node →
        node ∈ tree.nodes ∧ offset ∈ node.full ∧
          (∀ other ∈ tree.nodes, offset ∈ other.full → other.index ≤ node.index) ∧
          (Lineage.ofTree tree).pathTo tree node =
            tree.nodes.filter fun other => offset ∈ other.full) ∧
      tree.forest.hit offset ≠ .ambiguous ∧
      ∀ entry ∈ tree.entries, entry.2.countP (fun child => offset ∈ child.full) ≤ 1 := by
  have nested := nested_of_validate valid
  rw [locate?_eq_getLast?_scan valid]
  refine ⟨?_, ?_, ?_, fun entry => nested.countP_children_le_one offset⟩
  · rw [List.getLast?_eq_none_iff]
    constructor
    · intro nothing
      apply Nat.not_lt.mp
      intro inside
      have rootScanned : tree.root ∈ tree.forest.scan offset := by
        apply List.mem_filter.mpr
        rw [decide_eq_true_eq, (validate_eq_ok_iff.mp valid).1]
        exact ⟨List.mem_cons_self, Nat.zero_le _, inside⟩
      rw [nothing] at rootScanned
      contradiction
    · intro past
      exact nested.scan_eq_nil (Or.inr past)
  · intro node last
    have found := List.mem_filter.mp (List.mem_of_getLast? last)
    exact ⟨found.1, of_decide_eq_true found.2, fun other => index_le_of_scan last,
      pathTo_eq_scan valid last⟩
  · rw [nested.hit_eq]
    split <;> simp

/-- A sheet that spans two bytes, a line in it that spans the same two, and in
that an empty name before the two letters. -/
theorem locate?_eq_scan_two_letters :
    let tree := Tree.ofLabels ⟨{ kind := "sheet" }, ⟨0, 0, 2, 0⟩⟩
      (.node ⟨{ kind := "line" }, ⟨0, 0, 2, 0⟩⟩
        (.node ⟨{ kind := "name" }, ⟨0, 0, 0, 0⟩⟩ .nil
          (.node ⟨{ kind := "letter" }, ⟨0, 0, 1, 0⟩⟩ .nil
            (.node ⟨{ kind := "letter" }, ⟨1, 0, 1, 0⟩⟩ .nil .nil))) .nil) 2
    tree.validate = .ok () ∧ (tree.locate? 1).map Node.index = some 4 ∧
      ∀ node, tree.locate? 1 = some node →
        (Lineage.ofTree tree).pathTo tree node =
          tree.nodes.filter fun other => 1 ∈ other.full := by
  intro tree
  have valid : tree.validate = .ok () := by decide
  refine ⟨valid, by decide, ?_⟩
  intro node located
  exact ((locate?_eq_scan valid 1).2.1 node located).2.2.2

end Tree

end TreeLens
