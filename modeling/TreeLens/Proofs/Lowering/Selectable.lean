import TreeLens.Proofs.Lowering.Alignment
import TreeLens.Proofs.Selection.RoundTrip

/-!
# Lowered trees can be selected

Where the contents of an outline are aligned, so are both spans of every node of
the lowered tree: the full span by its layout, and the content because each of its
bounds is a bound of the full span or one the parser reported. A node whose spans
are aligned shows as a native span in every encoding and under every policy. So no
node of such a tree is out of reach of the tree view: selecting one is never
dropped.
-/

namespace TreeLens

/-- A span between boundaries lies in the source. -/
theorem Span.Aligned.covers {source : String} {span : Span} (aligned : span.Aligned source)
    (ordered : span.Ordered) : Span.Covers ⟨0, source.utf8ByteSize⟩ span :=
  ⟨Nat.zero_le _, ordered, Text.le_utf8ByteSize_of_isBoundary aligned.stop⟩

/-- A node between boundaries shows as a native span, with its trivia or without. -/
theorem Context.exists_nativeSpan?_of_aligned {context : Context} {node : Node}
    (full : node.full.Aligned context.snapshot.source)
    (content : node.content.Aligned context.snapshot.source) :
    ∃ span, context.nativeSpan? node = some span := by
  rw [exists_nativeSpan?_iff, shownBytes]
  split
  · exact ⟨full.start, full.stop⟩
  · exact ⟨content.start, content.stop⟩

namespace Outline

/-- Every node of a tree lowered from aligned contents is aligned, with its trivia and
without. -/
theorem Layout.aligned_nodes {source : String} {outline : Outline} {tree : Tree}
    {labels : Forest Label}
    (layout : Layout source outline.forest [⟨0, source.utf8ByteSize⟩] labels)
    (unnumbered : tree.forest.map Node.toLabel = labels)
    (contents : ∀ parsed ∈ outline.forest.toList, parsed.content.Aligned source) :
    ∀ node ∈ tree.nodes, node.full.Aligned source ∧ node.content.Aligned source := by
  intro node member
  have labelled : node.toLabel ∈ labels.toList := by
    rw [← unnumbered, Forest.toList_map]
    exact List.mem_map_of_mem member
  have given : ∀ span ∈ [(⟨0, source.utf8ByteSize⟩ : Span)], span.Aligned source := by
    simp [Span.aligned_all]
  exact ⟨layout.aligned contents given _ labelled, layout.aligned_content contents given _ labelled⟩

/-- An outline whose bounds are all character boundaries, in whatever order they are, is
lowered to a tree every node of which begins and ends at character boundaries of the
source, with its trivia and without. In every encoding and under every policy each node
has a native span, and selecting the node by its name selects that span, whatever was
selected before. -/
theorem lower_ok_selectable {source : String} {outline : Outline}
    (contents : ∀ parsed ∈ outline.forest.toList, parsed.content.Aligned source) :
    ∃ tree,
      (outline.lower source).run = some (.ok tree) ∧
      ∀ node ∈ tree.nodes,
        (node.full.Aligned source ∧ Span.Covers ⟨0, source.utf8ByteSize⟩ node.full) ∧
        (node.content.Aligned source ∧ Span.Covers ⟨0, source.utf8ByteSize⟩ node.content) ∧
        ∀ (generation : Generation) (encoding : Encoding) (policy : Policy),
          let context : Context := ⟨Snapshot.ofTree generation source tree, encoding, policy⟩
          ∃ span, context.nativeSpan? node = some span ∧
            ∀ state : SelectionState, state.phase = .idle →
              let step := state.transition context (.tree (some (context.snapshot.id node)))
              (step.outcome = .propagated ∨ step.outcome = .consistent) ∧
                step.state.settle = ⟨.idle, .single span, some (context.snapshot.id node)⟩ := by
  obtain ⟨tree, labels, lowered, -, unnumbered, layout⟩ := exists_lower_eq_ok source outline
  refine ⟨tree, lowered, ?_⟩
  intro node member
  obtain ⟨full, content⟩ := layout.aligned_nodes unnumbered contents node member
  refine ⟨⟨full, full.covers node.extent.full_ordered⟩,
    ⟨content, content.covers node.extent.content_ordered⟩, ?_⟩
  intro generation encoding policy context
  have shown : ∃ span, context.nativeSpan? node = some span :=
    Context.exists_nativeSpan?_of_aligned full content
  obtain ⟨span, mapped⟩ := shown
  have resolved : context.snapshot.resolve? (context.snapshot.id node) = some node :=
    Snapshot.resolve?_id member
  refine ⟨span, mapped, ?_⟩
  intro state idle
  exact ⟨SelectionState.outcome_transition_tree idle resolved mapped,
    SelectionState.settle_transition_tree idle resolved mapped⟩

/-- The content of the sheet runs backwards and a line break lies between the two
letters, of which the first takes two bytes. The last letter shows as one unit behind
the other three. -/
theorem lower_ok_selectable_across_break :
    let source := "é\r\nb"
    let outline : Outline := ⟨⟨{ kind := "sheet" }, ⟨5, 0⟩⟩,
      .node ⟨{ kind := "letter" }, ⟨0, 2⟩⟩ .nil (.node ⟨{ kind := "letter" }, ⟨4, 5⟩⟩ .nil .nil)⟩
    let state : SelectionState := { text := .caret 9, tree := some ⟨⟨0⟩, 7⟩ }
    (∀ parsed ∈ outline.forest.toList, parsed.content.Aligned source) ∧
      ∃ tree last, (outline.lower source).run = some (.ok tree) ∧ tree.node? 2 = some last ∧
        last.full = ⟨2, 5⟩ ∧ last.content = ⟨4, 5⟩ ∧
        let context : Context := ⟨Snapshot.ofTree ⟨1⟩ source tree, .utf16, default⟩
        let step := state.transition context (.tree (some ⟨⟨1⟩, 2⟩))
        (step.outcome = .propagated ∨ step.outcome = .consistent) ∧
          step.state.settle = ⟨.idle, .single ⟨3, 4⟩, some ⟨⟨1⟩, 2⟩⟩ := by
  intro source outline state
  have contents : ∀ parsed ∈ outline.forest.toList, parsed.content.Aligned source := by
    simp only [outline, forest, Forest.toList, List.nil_append, List.append_nil,
      List.forall_mem_cons]
    refine ⟨⟨?_, ?_⟩, ⟨?_, ?_⟩, ⟨?_, ?_⟩, by simp⟩ <;> decide
  obtain ⟨tree, lowered, selectable⟩ := lower_ok_selectable contents
  have computed : (outline.lower? source).bind (fun tree => tree.node? 2) =
      some ⟨⟨{ kind := "letter" }, ⟨2, 2, 1, 0⟩⟩, 2⟩ := by
    decide +kernel
  have found : tree.node? 2 = some ⟨⟨{ kind := "letter" }, ⟨2, 2, 1, 0⟩⟩, 2⟩ := by
    rw [lower?, lowered] at computed
    exact computed
  refine ⟨contents, tree, _, lowered, found, rfl, rfl, ?_⟩
  obtain ⟨-, -, shows⟩ := selectable _ (Tree.mem_nodes_of_node? found)
  obtain ⟨span, mapped, selects⟩ := shows ⟨1⟩ .utf16 default
  have shown : Text.spanToNative .utf16 source ⟨4, 5⟩ = some ⟨3, 4⟩ := by decide
  obtain rfl := Option.some.inj (shown.symm.trans mapped)
  exact selects state rfl

end Outline

end TreeLens
