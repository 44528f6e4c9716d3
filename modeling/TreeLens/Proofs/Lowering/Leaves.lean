import Mathlib.Data.List.Pairwise
import TreeLens.Proofs.Lowering.Alignment
import TreeLens.Proofs.Tree.Lookup

/-!
# Leaves of lowered trees

Tiling is a matter of one parent and its children. It carries over to the leaves
of a whole tree, at whatever depths they lie: put next to each other in pre-order
they tile the source, since a node can be replaced by its leaves among its
siblings. Every offset of the source is therefore in exactly one leaf, the lookup
ends there, and it never moves back when the offset moves on. Where no character
is divided, the texts of the leaves make up the source.
-/

namespace TreeLens

namespace Span

/-- Tiles of two neighbouring spans tile both together. -/
theorem TiledBy.append {first middle last : Nat} {left right : List Span}
    (leftTiled : TiledBy ⟨first, middle⟩ left) (rightTiled : TiledBy ⟨middle, last⟩ right)
    (leftNonempty : left ≠ []) (rightNonempty : right ≠ []) :
    TiledBy ⟨first, last⟩ (left ++ right) where
  first := by
    rw [List.head?_append_of_ne_nil _ leftNonempty]
    exact leftTiled.first
  adjacent := by
    refine List.isChain_append.mpr ⟨leftTiled.adjacent, rightTiled.adjacent, ?_⟩
    intro final isLast next isFirst
    exact (leftTiled.last final isLast).trans (rightTiled.first next isFirst).symm
  last := by
    rw [List.getLast?_append_of_ne_nil _ rightNonempty]
    exact rightTiled.last
  ordered := by
    intro tile member
    rcases List.mem_append.mp member with inLeft | inRight
    · exact leftTiled.ordered tile inLeft
    · exact rightTiled.ordered tile inRight

/-- No tile begins before its parent. -/
theorem TiledBy.start_le {parent : Span} {tiles : List Span} (tiled : parent.TiledBy tiles) :
    ∀ tile ∈ tiles, parent.start ≤ tile.start := by
  induction tiles generalizing parent with
  | nil => simp
  | cons first rest ih =>
    have firstStart : first.start = parent.start := tiled.first first rfl
    intro tile member
    rcases List.mem_cons.mp member with rfl | inRest
    · exact Nat.le_of_eq firstStart.symm
    · cases rest with
      | nil => contradiction
      | cons next rest =>
        obtain ⟨-, ordered, later⟩ := tiledBy_cons_cons_iff.mp tiled
        calc parent.start
          _ = first.start := firstStart.symm
          _ ≤ first.stop := ordered
          _ ≤ tile.start := ih later tile inRest

/-- Of two tiles the earlier one ends before the later one begins. -/
theorem TiledBy.pairwise {parent : Span} {tiles : List Span} (tiled : parent.TiledBy tiles) :
    tiles.Pairwise fun left right => left.stop ≤ right.start := by
  induction tiles generalizing parent with
  | nil => exact .nil
  | cons first rest ih =>
    cases rest with
    | nil => exact List.pairwise_singleton _ _
    | cons next rest =>
      obtain ⟨-, -, later⟩ := tiledBy_cons_cons_iff.mp tiled
      exact List.pairwise_cons.mpr ⟨later.start_le, ih later⟩

end Span

/-- The slices of tiles between boundaries make up the slice of their parent. -/
theorem Span.TiledBy.join_slice {text : String} {parent : Span} {tiles : List Span}
    (tiled : parent.TiledBy tiles) (nonempty : tiles ≠ [])
    (aligned : ∀ tile ∈ tiles, tile.Aligned text) (parentAligned : parent.Aligned text) :
    String.join (tiles.map (Text.slice text)) = Text.slice text parent := by
  induction tiles generalizing parent with
  | nil => contradiction
  | cons first rest ih =>
    have firstAligned := aligned first List.mem_cons_self
    rw [List.map_cons, String.join_cons]
    cases rest with
    | nil =>
      obtain ⟨startEq, stopEq, -⟩ := tiledBy_singleton_iff.mp tiled
      have whole : first = parent := Span.ext startEq stopEq
      rw [whole, List.map_nil, String.join_nil, String.append_empty]
    | cons next rest =>
      obtain ⟨startEq, ordered, later⟩ := tiledBy_cons_cons_iff.mp tiled
      have laterAligned : Span.Aligned text ⟨first.stop, parent.stop⟩ :=
        ⟨firstAligned.stop, parentAligned.stop⟩
      rw [ih later (by simp) (fun tile member => aligned tile (List.mem_cons_of_mem _ member))
        laterAligned]
      have joined := Text.slice_append firstAligned.start firstAligned.stop parentAligned.stop
        ordered tiled.stop_le
      rw [startEq] at joined
      rw [← joined, ← startEq]

namespace Forest

/-- The leaves of one node: those below it, or the node itself. -/
def leavesOf {α : Type} (value : α) : Forest α → List α
  | nil => [value]
  | node first below after => (node first below after).leaves

theorem leaves_node {α : Type} (value : α) (below after : Forest α) :
    (node value below after).leaves = leavesOf value below ++ after.leaves := by
  cases below with
  | nil => rfl
  | node first inner next => simp [leaves, leavesOf]

theorem leaves_ne_nil {α : Type} {forest : Forest α} (nonempty : forest ≠ .nil) :
    forest.leaves ≠ [] := by
  induction forest with
  | nil => contradiction
  | node value below after belowLeaves _ =>
    rw [leaves_node]
    cases below with
    | nil => simp [leavesOf]
    | node first inner next => simp [leavesOf, belowLeaves]

/-- The leaves are the values with no values below them. -/
theorem leaves_eq_filter_entries {α : Type} (forest : Forest α) :
    forest.leaves = (forest.entries.filter fun entry => entry.2.isEmpty).map Prod.fst := by
  induction forest with
  | nil => rfl
  | node value below after belowLeaves afterLeaves =>
    rw [leaves_node, entries]
    cases below with
    | nil => simp [leavesOf, entries, roots, afterLeaves]
    | node first inner next =>
      rw [List.filter_cons_of_neg (by simp [roots]), List.filter_append, List.map_append,
        ← belowLeaves, ← afterLeaves, leavesOf]

/-- Siblings tile a span, and every node of their forest is tiled by its
children. -/
structure Tiled (parent : Span) (forest : Forest Node) : Prop where
  siblings : parent.TiledBy (forest.roots.map fun node => node.full)
  children : ∀ entry ∈ forest.entries, entry.1.full.TiledBy (entry.2.map fun child => child.full)

namespace Tiled

theorem below {parent : Span} {value : Node} {below after : Forest Node}
    (tiled : (Forest.node value below after).Tiled parent) : below.Tiled value.full where
  siblings := tiled.children _ List.mem_cons_self
  children := fun entry member =>
    tiled.children entry (List.mem_cons_of_mem _ (List.mem_append_left _ member))

theorem after {parent : Span} {value : Node} {below after : Forest Node}
    (tiled : (Forest.node value below after).Tiled parent) :
    after.Tiled ⟨value.stop, parent.stop⟩ where
  siblings := by
    have siblings := tiled.siblings
    rw [roots, List.map_cons] at siblings
    cases others : after.roots.map (fun node => node.full) with
    | nil => exact Span.tiledBy_nil _
    | cons next rest =>
      rw [others] at siblings
      exact (Span.tiledBy_cons_cons_iff.mp siblings).2.2
  children := fun entry member =>
    tiled.children entry (List.mem_cons_of_mem _ (List.mem_append_right _ member))

/-- A node without later siblings fills what is left. -/
theorem full_eq {parent : Span} {value : Node} {below : Forest Node}
    (tiled : (Forest.node value below .nil).Tiled parent) : value.full = parent := by
  obtain ⟨startEq, stopEq, -⟩ := Span.tiledBy_singleton_iff.mp tiled.siblings
  exact Span.ext startEq stopEq

/-- The leaves of siblings tile what the siblings tile. -/
theorem leaves {parent : Span} {forest : Forest Node} (tiled : forest.Tiled parent)
    (nonempty : forest ≠ .nil) : parent.TiledBy (forest.leaves.map fun leaf => leaf.full) := by
  induction forest generalizing parent with
  | nil => contradiction
  | node value below after belowLeaves afterLeaves =>
    -- The first sibling is replaced by its leaves, which tile what it spans.
    have own : value.full.TiledBy ((leavesOf value below).map fun leaf => leaf.full) := by
      cases below with
      | nil => exact Span.tiledBy_singleton_iff.mpr ⟨rfl, rfl, Nat.le_add_right _ _⟩
      | node first inner next => exact belowLeaves tiled.below (by simp)
    rw [leaves_node, List.map_append]
    cases after with
    | nil =>
      rw [Forest.leaves, List.map_nil, List.append_nil, ← tiled.full_eq]
      exact own
    | node next inner rest =>
      have startEq : value.start = parent.start := tiled.siblings.first _ rfl
      have whole : (⟨value.start, parent.stop⟩ : Span) = parent := Span.ext startEq rfl
      have ownNonempty : leavesOf value below ≠ [] := by
        cases below with
        | nil => simp [leavesOf]
        | node first inner next => exact leaves_ne_nil (by simp)
      rw [← whole]
      exact Span.TiledBy.append own (afterLeaves tiled.after (by simp))
        (by simpa using ownNonempty) (by simpa using leaves_ne_nil (by simp))

/-- On the way down to an offset the last node is a leaf that contains it. -/
theorem exists_leaf {parent : Span} {forest : Forest Node} {offset : Nat}
    (tiled : forest.Tiled parent) (inside : offset ∈ parent) (nonempty : forest ≠ .nil) :
    ∃ leaf ∈ forest.leaves,
      (forest.descent offset).getLast? = some leaf ∧ offset ∈ leaf.full := by
  induction forest generalizing parent with
  | nil => contradiction
  | node value below after belowLeaf afterLeaf =>
    rw [descent, leaves_node]
    by_cases here : offset ∈ value.full
    · rw [if_pos here]
      cases below with
      | nil => exact ⟨value, List.mem_cons_self, rfl, here⟩
      | node first inner next =>
        obtain ⟨leaf, isLeaf, last, inLeaf⟩ := belowLeaf tiled.below here (by simp)
        refine ⟨leaf, List.mem_append_left _ isLeaf, ?_, inLeaf⟩
        rw [List.getLast?_cons, last, Option.getD_some]
    · rw [if_neg here]
      cases after with
      | nil =>
        rw [tiled.full_eq] at here
        exact absurd inside here
      | node next inner rest =>
        have startEq : value.start = parent.start := tiled.siblings.first _ rfl
        have behind : value.stop ≤ offset := by
          apply Nat.not_lt.mp
          intro before
          exact here ⟨Nat.le_trans (Nat.le_of_eq startEq) inside.1, before⟩
        obtain ⟨leaf, isLeaf, last, inLeaf⟩ :=
          afterLeaf tiled.after ⟨behind, inside.2⟩ (by simp)
        exact ⟨leaf, List.mem_append_right _ isLeaf, last, inLeaf⟩

end Tiled

end Forest

namespace Tree

/-- The nodes without children, in pre-order. -/
def leaves (tree : Tree) : List Node :=
  (tree.entries.filter fun entry => entry.2.isEmpty).map Prod.fst

theorem leaves_eq (tree : Tree) : tree.leaves = tree.forest.leaves :=
  (Forest.leaves_eq_filter_entries tree.forest).symm

theorem sublist_leaves (tree : Tree) : tree.leaves.Sublist tree.nodes := by
  rw [nodes, ← Forest.map_fst_entries]
  exact List.filter_sublist.map Prod.fst

variable {tree : Tree}

theorem leaves_ne_nil : tree.leaves ≠ [] := by
  rw [leaves_eq]
  exact Forest.leaves_ne_nil (by simp [forest])

/-- Of two leaves in tiles the one with the smaller index ends before the other
begins. -/
theorem stop_le_start_of_index_lt {parent : Span} (tiled : tree.forest.Tiled parent)
    {first second : Node} (firstLeaf : first ∈ tree.leaves) (secondLeaf : second ∈ tree.leaves)
    (earlier : first.index < second.index) : first.stop ≤ second.start := by
  have byIndex : tree.leaves.Pairwise fun left right => left.index < right.index :=
    tree.pairwise_index_nodes.sublist tree.sublist_leaves
  have bySpan : tree.leaves.Pairwise fun left right => left.stop ≤ right.start := by
    rw [leaves_eq]
    exact List.pairwise_map.mp (tiled.leaves (by simp [forest])).pairwise
  obtain ⟨place, placeLt, rfl⟩ := List.mem_iff_getElem.mp firstLeaf
  obtain ⟨other, otherLt, rfl⟩ := List.mem_iff_getElem.mp secondLeaf
  rcases Nat.lt_trichotomy place other with before | same | behind
  · exact List.pairwise_iff_getElem.mp bySpan place other placeLt otherLt before
  · subst same
    exact absurd earlier (Nat.lt_irrefl _)
  · have later := List.pairwise_iff_getElem.mp byIndex other place otherLt placeLt behind
    exact absurd (Nat.lt_trans earlier later) (Nat.lt_irrefl _)

/-- A leaf in tiles that contains a smaller offset has no larger index. -/
theorem index_le_of_leaves {parent : Span} (tiled : tree.forest.Tiled parent)
    {first second : Node} (firstLeaf : first ∈ tree.leaves) (secondLeaf : second ∈ tree.leaves)
    {low high : Nat} (ordered : low ≤ high) (inFirst : low ∈ first.full)
    (inSecond : high ∈ second.full) : first.index ≤ second.index := by
  apply Nat.not_lt.mp
  intro earlier
  have apart := stop_le_start_of_index_lt tiled secondLeaf firstLeaf earlier
  have lowIn : first.start ≤ low := inFirst.1
  have highIn : high < second.stop := inSecond.2
  omega

/-- In tiles an offset has one leaf. -/
theorem eq_of_mem_leaves {parent : Span} (tiled : tree.forest.Tiled parent)
    {first second : Node} (firstLeaf : first ∈ tree.leaves) (secondLeaf : second ∈ tree.leaves)
    {offset : Nat} (inFirst : offset ∈ first.full) (inSecond : offset ∈ second.full) :
    first = second := by
  have sameIndex : first.index = second.index := Nat.le_antisymm
    (index_le_of_leaves tiled firstLeaf secondLeaf (Nat.le_refl _) inFirst inSecond)
    (index_le_of_leaves tiled secondLeaf firstLeaf (Nat.le_refl _) inSecond inFirst)
  exact eq_of_index_eq (tree.sublist_leaves.subset firstLeaf)
    (tree.sublist_leaves.subset secondLeaf) sameIndex

/-- A tree in tiles from the start of the source to its end is accepted. -/
theorem validate_of_tiled (tiled : tree.forest.Tiled ⟨0, tree.sourceLength⟩) :
    tree.validate = .ok () :=
  validate_eq_ok_of_tiledBy tiled.full_eq tiled.children

/-- The lookup ends at a leaf that contains the offset. -/
theorem exists_locate?_leaf (tiled : tree.forest.Tiled ⟨0, tree.sourceLength⟩) {offset : Nat}
    (inside : offset < tree.sourceLength) :
    ∃ leaf ∈ tree.leaves, tree.locate? offset = some leaf ∧ offset ∈ leaf.full := by
  have valid := validate_of_tiled tiled
  obtain ⟨leaf, isLeaf, last, inLeaf⟩ :=
    tiled.exists_leaf ⟨Nat.zero_le _, inside⟩ (by simp [forest])
  refine ⟨leaf, ?_, ?_, inLeaf⟩
  · rwa [leaves_eq]
  · rw [locate?_eq_getLast?_scan valid, (nested_of_validate valid).scan_eq_descent, last]

end Tree

namespace Outline

/-- A tree that was lowered is in tiles. -/
theorem Layout.tiled {source : String} {outline : Outline} {tree : Tree} {labels : Forest Label}
    (layout : Layout source outline.forest [⟨0, source.utf8ByteSize⟩] labels)
    (unnumbered : tree.forest.map Node.toLabel = labels) :
    tree.forest.Tiled ⟨0, source.utf8ByteSize⟩ where
  siblings := by
    have roots := layout.map_full_roots
    rw [← unnumbered, Forest.roots_map, List.map_map] at roots
    change (tree.forest.roots.map fun node => node.full) = _ at roots
    rw [roots]
    exact Span.tiledBy_singleton_iff.mpr ⟨rfl, rfl, Nat.zero_le _⟩
  children := by
    intro entry member
    have tiled := layout.tiledBy _ (Tree.mem_entries_map_toLabel unnumbered member)
    rwa [List.map_map] at tiled

/-- An outline is lowered to a tree whose leaves, in pre-order, tile the source.
Every offset of the source is in exactly one of them, where the lookup ends, and
for a larger offset the lookup ends no earlier. If all bounds of the outline are
character boundaries, the texts of the leaves make up the source. -/
theorem lower_ok_leaves (source : String) (outline : Outline) :
    ∃ tree,
      (outline.lower source).run = some (.ok tree) ∧
      tree.leaves ≠ [] ∧
      Span.TiledBy ⟨0, source.utf8ByteSize⟩ (tree.leaves.map fun leaf => leaf.full) ∧
      (∀ offset < source.utf8ByteSize, ∃ leaf ∈ tree.leaves,
        tree.locate? offset = some leaf ∧
          ∀ other ∈ tree.leaves, offset ∈ other.full ↔ other = leaf) ∧
      (∀ low high, low ≤ high → high < source.utf8ByteSize → ∀ first second,
        tree.locate? low = some first → tree.locate? high = some second →
          first.index ≤ second.index) ∧
      ((∀ parsed ∈ outline.forest.toList, parsed.content.Aligned source) →
        String.join (tree.leaves.map fun leaf => Text.slice source leaf.full) = source) := by
  obtain ⟨tree, labels, lowered, lengthEq, unnumbered, layout⟩ := exists_lower_eq_ok source outline
  have tiled := layout.tiled unnumbered
  have leavesTiled : Span.TiledBy ⟨0, source.utf8ByteSize⟩
      (tree.leaves.map fun leaf => leaf.full) := by
    rw [Tree.leaves_eq]
    exact tiled.leaves (by simp [Tree.forest])
  have located : ∀ offset < source.utf8ByteSize,
      ∃ leaf ∈ tree.leaves, tree.locate? offset = some leaf ∧ offset ∈ leaf.full := by
    rw [← lengthEq] at tiled ⊢
    exact fun offset => Tree.exists_locate?_leaf tiled
  refine ⟨tree, lowered, Tree.leaves_ne_nil, leavesTiled, ?_, ?_, ?_⟩
  · intro offset inside
    obtain ⟨leaf, isLeaf, found, inLeaf⟩ := located offset inside
    refine ⟨leaf, isLeaf, found, fun other isOther => ⟨?_, ?_⟩⟩
    · intro inOther
      exact Tree.eq_of_mem_leaves tiled isOther isLeaf inOther inLeaf
    · rintro rfl
      exact inLeaf
  · intro low high ordered inside first second foundFirst foundSecond
    obtain ⟨leaf, isLeaf, found, inLeaf⟩ := located low (Nat.lt_of_le_of_lt ordered inside)
    obtain ⟨other, isOther, otherFound, inOther⟩ := located high inside
    obtain rfl := Option.some.inj (found.symm.trans foundFirst)
    obtain rfl := Option.some.inj (otherFound.symm.trans foundSecond)
    exact Tree.index_le_of_leaves tiled isLeaf isOther ordered inLeaf inOther
  · intro contents
    have aligned : ∀ span ∈ tree.leaves.map (fun leaf => leaf.full), span.Aligned source := by
      intro span member
      obtain ⟨leaf, isLeaf, rfl⟩ := List.mem_map.mp member
      refine layout.aligned contents (by simp [Span.aligned_all]) leaf.toLabel ?_
      rw [← unnumbered, Forest.toList_map]
      exact List.mem_map_of_mem (tree.sublist_leaves.subset isLeaf)
    have joined := leavesTiled.join_slice (by simpa using Tree.leaves_ne_nil) aligned
      (Span.aligned_all source)
    rwa [List.map_map, Text.slice_all] at joined

/-- The contents overlap and run backwards, and one of the three leaves is empty. -/
theorem lower_ok_leaves_overlapping :
    let source := "é\nb"
    let outline : Outline := ⟨⟨{ kind := "sheet" }, ⟨3, 0⟩⟩,
      .node ⟨{ kind := "left" }, ⟨4, 2⟩⟩ (.node ⟨{ kind := "inner" }, ⟨0, 2⟩⟩ .nil .nil)
        (.node ⟨{ kind := "right" }, ⟨0, 4⟩⟩ .nil
          (.node ⟨{ kind := "end", missing := true }, ⟨4, 4⟩⟩ .nil .nil))⟩
    (∀ parsed ∈ outline.forest.toList, parsed.content.Aligned source) ∧
      ∃ tree,
        (outline.lower source).run = some (.ok tree) ∧
        tree.leaves.map (fun leaf => (leaf.kind, leaf.full)) =
          [("inner", ⟨0, 2⟩), ("right", ⟨2, 4⟩), ("end", ⟨4, 4⟩)] ∧
        (∃ leaf ∈ tree.leaves, tree.locate? 1 = some leaf ∧
          ∀ other ∈ tree.leaves, 1 ∈ other.full ↔ other = leaf) ∧
        String.join (tree.leaves.map fun leaf => Text.slice source leaf.full) = source := by
  intro source outline
  have aligned : ∀ parsed ∈ outline.forest.toList, parsed.content.Aligned source := by
    simp only [outline, forest, Forest.toList, List.nil_append, List.append_nil, List.cons_append,
      List.forall_mem_cons]
    refine ⟨⟨?_, ?_⟩, ⟨?_, ?_⟩, ⟨?_, ?_⟩, ⟨?_, ?_⟩, ⟨?_, ?_⟩, by simp⟩ <;> decide
  obtain ⟨tree, lowered, -, -, located, -, joined⟩ := lower_ok_leaves source outline
  refine ⟨aligned, tree, lowered, ?_, located 1 (by decide), joined aligned⟩
  have computed : (outline.lower? source).map (fun tree =>
      tree.leaves.map fun leaf => (leaf.kind, leaf.full)) =
        some [("inner", ⟨0, 2⟩), ("right", ⟨2, 4⟩), ("end", ⟨4, 4⟩)] := by
    decide +kernel
  rw [lower?, lowered] at computed
  exact Option.some.inj computed

end Outline

end TreeLens
