import TreeLens.Lowering.Outline
import TreeLens.Proofs.Forest
import TreeLens.Proofs.Lowering.Tiling

/-!
# Layouts

A layout says what lowering makes of an outline without saying in which order:
siblings fill the spans given for them, and what is below a node fills the tiles
of that node. Every forest has a layout in spans that do not run backwards, and
working off the tasks of the forest puts exactly that layout into the builder.
What is known of layouts is therefore known of lowered trees: they keep the
shape and the tags of the outline, and every node is tiled by its children.
-/

namespace TreeLens

/-- A node fills the full span of its draft unless that runs backwards. -/
theorem Draft.full_label {draft : Draft} (ordered : draft.full.Ordered) :
    draft.label.full = draft.full := by
  change (Extent.ofSpans draft.full draft.content).full = draft.full
  rw [Extent.full_ofSpans, Nat.max_eq_right ordered]

namespace Outline

/-- What the siblings of an outline become when they fill the given spans. -/
inductive Layout (source : String) : Forest Parsed → List Span → Forest Label → Prop
  | nil : Layout source .nil [] .nil
  | node {parsed : Parsed} {below after : Forest Parsed} {full : Span} {tiles later : List Span}
      {belowLabels afterLabels : Forest Label}
      (ordered : full.Ordered)
      (tiled : Tiling.tile source full (below.roots.map Parsed.content) = some tiles)
      (belowLayout : Layout source below tiles belowLabels)
      (afterLayout : Layout source after later afterLabels) :
      Layout source (.node parsed below after) (full :: later)
        (.node (Draft.label ⟨parsed, full⟩) belowLabels afterLabels)

/-- There is a layout in as many spans as there are siblings, if none of them
runs backwards: the tiles below a node are such spans again. -/
theorem exists_layout (source : String) (siblings : Forest Parsed) {spans : List Span}
    (enough : spans.length = siblings.roots.length)
    (ordered : ∀ span ∈ spans, span.Ordered) :
    ∃ labels, Layout source siblings spans labels := by
  induction siblings generalizing spans with
  | nil =>
    obtain rfl := List.eq_nil_of_length_eq_zero enough
    exact ⟨.nil, .nil⟩
  | node parsed below after belowLayout afterLayout =>
    cases spans with
    | nil => contradiction
    | cons full later =>
      have fullOrdered := ordered full List.mem_cons_self
      obtain ⟨tiles, tiled, lengthEq, tiling⟩ :=
        Tiling.exists_tile_eq_some source fullOrdered (below.roots.map Parsed.content)
      rw [List.length_map] at lengthEq
      obtain ⟨belowLabels, layBelow⟩ := belowLayout lengthEq tiling.ordered
      obtain ⟨afterLabels, layAfter⟩ := afterLayout (Nat.succ.inj enough) fun span inLater =>
        ordered span (List.mem_cons_of_mem _ inLater)
      exact ⟨_, .node fullOrdered tiled layBelow layAfter⟩

namespace Layout

variable {source : String} {siblings : Forest Parsed} {spans : List Span} {labels : Forest Label}

/-- A layout has the shape and the tags of the outline. -/
theorem map_toTag (layout : Layout source siblings spans labels) :
    labels.map Label.toTag = siblings.map Parsed.toTag := by
  induction layout with
  | nil => rfl
  | node _ _ _ _ belowTags afterTags => simp only [Forest.map, Draft.label, belowTags, afterTags]

theorem map_full_roots (layout : Layout source siblings spans labels) :
    labels.roots.map Label.full = spans := by
  induction layout with
  | nil => rfl
  | node ordered _ _ _ _ afterRoots =>
    rw [Forest.roots, List.map_cons, afterRoots, Draft.full_label ordered]

/-- Every node of a layout is tiled by its children. -/
theorem tiledBy (layout : Layout source siblings spans labels) :
    ∀ entry ∈ labels.entries, entry.1.full.TiledBy (entry.2.map Label.full) := by
  induction layout with
  | nil => simp [Forest.entries]
  | node ordered tiled belowLayout _ belowTiled afterTiled =>
    intro entry inEntries
    rw [Forest.entries, List.mem_cons, List.mem_append] at inEntries
    rcases inEntries with rfl | inBelow | inAfter
    · obtain ⟨tiles, tiledAgain, _, tiling⟩ := Tiling.exists_tile_eq_some source ordered _
      obtain rfl := Option.some.inj (tiled.symm.trans tiledAgain)
      rw [belowLayout.map_full_roots, Draft.full_label ordered]
      exact tiling
    · exact belowTiled entry inBelow
    · exact afterTiled entry inAfter

end Layout

section Work

variable {source : String} {rest : List Task} {builder : Builder}

theorem work_leave {finished : Builder} (finishes : builder.finish = .ok finished) :
    work source (.leave :: rest) builder = work source rest finished := by
  rw [work, finishes]
  rfl

theorem work_enter {parsed : Parsed} {below : Forest Parsed} {full : Span} {tiles : List Span}
    {index : Nat} {started : Builder} (starts : builder.start ⟨parsed, full⟩ = .ok (index, started))
    (tiled : Tiling.tile source full (below.roots.map Parsed.content) = some tiles) :
    work source (.enter parsed below full :: rest) builder =
      work source (Task.enterAll below tiles ++ .leave :: rest) started := by
  rw [work, starts, tiled]
  rfl

end Work

/-- Working off the tasks of siblings adds their layout to the innermost open
node and comes back to the tasks behind them, with the same nodes open. -/
theorem Layout.work_enterAll {source : String} {siblings : Forest Parsed} {spans : List Span}
    {labels : Forest Label} (layout : Layout source siblings spans labels) (rest : List Task)
    (count : Nat) (opened : OpenNode) (outer : List OpenNode) :
    work source (Task.enterAll siblings spans ++ rest) ⟨count, opened :: outer, none⟩ =
      work source rest
        ⟨count + siblings.size,
          ⟨opened.label, labels.branches.reverse ++ opened.done⟩ :: outer, none⟩ := by
  -- The tasks behind and the open nodes are arbitrary, since the siblings below
  -- a node are worked off with one more of each.
  induction layout generalizing rest count opened outer with
  | nil => rfl
  | @node parsed below after full tiles later belowLabels afterLabels _ tiled _ _ belowWork
      afterWork =>
    let label := Draft.label ⟨parsed, full⟩
    let behind := Task.enterAll after later ++ rest
    calc work source (.enter parsed below full :: behind) ⟨count, opened :: outer, none⟩
      _ = work source (Task.enterAll below tiles ++ .leave :: behind)
            ⟨count + 1, ⟨label, []⟩ :: opened :: outer, none⟩ := work_enter rfl tiled
      _ = work source (.leave :: behind)
            ⟨count + 1 + below.size, ⟨label, belowLabels.branches.reverse ++ []⟩ :: opened :: outer,
              none⟩ := belowWork _ _ _ _
      _ = work source behind
            ⟨count + 1 + below.size, opened.add (label, belowLabels) :: outer, none⟩ := by
          apply work_leave
          simp [Builder.finish, OpenNode.close]
      _ = work source rest
            ⟨count + 1 + below.size + after.size,
              ⟨opened.label, afterLabels.branches.reverse ++ (label, belowLabels) :: opened.done⟩ ::
                outer, none⟩ := afterWork _ _ _ _
      _ = _ := by
          rw [Forest.size, Forest.branches, List.reverse_cons, List.append_assoc, Nat.add_assoc,
            Nat.add_assoc, Nat.add_assoc]
          rfl

/-- An outline is lowered to the labels of its layout in the whole source. -/
theorem lower_eq {source : String} {outline : Outline} {root : Label} {labels : Forest Label}
    (layout : Layout source outline.forest [⟨0, source.utf8ByteSize⟩] (.node root labels .nil)) :
    outline.lower source = pure (Tree.ofLabels root labels source.utf8ByteSize) := by
  cases layout with
  | node _ tiled belowLayout _ =>
    have worked :
        work source [.enter outline.root outline.below ⟨0, source.utf8ByteSize⟩] .empty =
          work source [.leave] ⟨1 + outline.below.size,
            [⟨Draft.label ⟨outline.root, ⟨0, source.utf8ByteSize⟩⟩, labels.branches.reverse ++ []⟩],
            none⟩ :=
      (work_enter rfl tiled).trans (belowLayout.work_enterAll [.leave] 1 _ [])
    rw [lower, worked, work_leave rfl, work]
    simp only [OpenNode.close, List.append_nil, List.reverse_reverse, Forest.ofBranches_branches]
    rfl

/-- Every outline is laid out in the whole source, with its own root on top. -/
theorem exists_layout_forest (source : String) (outline : Outline) :
    ∃ root labels,
      Layout source outline.forest [⟨0, source.utf8ByteSize⟩] (.node root labels .nil) := by
  have ordered : ∀ span ∈ [(⟨0, source.utf8ByteSize⟩ : Span)], span.Ordered := by
    simp [Span.Ordered]
  obtain ⟨labels, layout⟩ := exists_layout source outline.forest rfl ordered
  cases layout with
  | node fullOrdered tiled belowLayout afterLayout =>
    cases afterLayout
    exact ⟨_, _, .node fullOrdered tiled belowLayout .nil⟩

/-- Lowering succeeds, and the tree without its numbers is a layout of the outline
in the whole source. -/
theorem exists_lower_eq_ok (source : String) (outline : Outline) :
    ∃ tree labels,
      (outline.lower source).run = some (.ok tree) ∧
      tree.sourceLength = source.utf8ByteSize ∧
      tree.forest.map Node.toLabel = labels ∧
      Layout source outline.forest [⟨0, source.utf8ByteSize⟩] labels := by
  obtain ⟨root, labels, layout⟩ := exists_layout_forest source outline
  refine ⟨Tree.ofLabels root labels source.utf8ByteSize, _, ?_, rfl,
    Tree.map_toLabel_forest_ofLabels root labels _, layout⟩
  rw [lower_eq layout]
  rfl

/-- Lowering succeeds for every outline and every source, wherever the contents
of the outline lie. The tree has the shape and the tags of the outline, its
nodes are numbered in pre-order, its root spans the source, every node is tiled
by its children, and validation accepts it. -/
theorem lower_ok_tiled (source : String) (outline : Outline) :
    ∃ tree,
      (outline.lower source).run = some (.ok tree) ∧
      tree.sourceLength = source.utf8ByteSize ∧
      (tree.forest.map fun node => node.toTag) = outline.forest.map Parsed.toTag ∧
      tree.nodes.map Node.index = List.range outline.forest.size ∧
      tree.root.full = ⟨0, source.utf8ByteSize⟩ ∧
      (∀ entry ∈ tree.entries, entry.1.full.TiledBy (entry.2.map fun child => child.full)) ∧
      tree.validate = .ok () := by
  obtain ⟨root, labels, layout⟩ := exists_layout_forest source outline
  let tree := Tree.ofLabels root labels source.utf8ByteSize
  have unnumbered : tree.forest.map Node.toLabel = .node root labels .nil :=
    Tree.map_toLabel_forest_ofLabels root labels _
  have tags : (tree.forest.map fun node => node.toTag) = outline.forest.map Parsed.toTag := by
    rw [← layout.map_toTag, ← unnumbered, Forest.map_map]
  have sizeEq : tree.size = outline.forest.size := by
    rw [← Forest.size_map Parsed.toTag outline.forest, ← tags, Forest.size_map, Tree.size]
  have spans : tree.root.full = ⟨0, source.utf8ByteSize⟩ :=
    (List.cons.inj layout.map_full_roots).1
  have tiled : ∀ entry ∈ tree.entries,
      entry.1.full.TiledBy (entry.2.map fun child => child.full) := by
    intro entry inEntries
    have inLabels : (entry.1.toLabel, entry.2.map Node.toLabel) ∈
        (Forest.node root labels .nil).entries := by
      rw [← unnumbered, Forest.entries_map]
      exact List.mem_map_of_mem inEntries
    have labelTiled := layout.tiledBy _ inLabels
    rwa [List.map_map] at labelTiled
  refine ⟨tree, ?_, rfl, tags, ?_, spans, tiled, ?_⟩
  · rw [lower_eq layout]
    rfl
  · rw [tree.map_index_nodes, sizeEq]
  · exact Tree.validate_eq_ok_of_tiledBy spans tiled

-- The contents run backwards or past the end, and the line break is still found.
example :
    let outline : Outline := ⟨⟨{ kind := "sheet" }, ⟨7, 3⟩⟩,
      .node ⟨{ kind := "left" }, ⟨2, 1⟩⟩ .nil (.node ⟨{ kind := "right" }, ⟨3, 9⟩⟩ .nil .nil)⟩
    (outline.lower? "a \nb").map (fun tree => tree.nodes.map fun node => node.full) =
      some [⟨0, 4⟩, ⟨0, 2⟩, ⟨2, 4⟩] := by
  cbv

end Outline

end TreeLens
