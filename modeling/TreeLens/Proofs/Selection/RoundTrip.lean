import TreeLens.Proofs.Selection.Settling
import TreeLens.Proofs.Text.Inverse

/-!
# From a node to its text and back

A node can be shown exactly when the bytes it shows as begin and end at
character boundaries. Selecting such a node in the tree view leaves its native
span as the only selected text, and when the text view reports that span back,
nothing changes: the state, not the lookup by offset, decides which node is
meant. This holds of nodes without any bytes, of nodes that begin where a deeper
one begins, and of several nodes that show as the same span.
-/

namespace TreeLens

namespace Context

/-- The bytes a node shows as. -/
def shownBytes (context : Context) (node : Node) : Span :=
  if context.policy.includeTrivia then node.full else node.content

theorem nativeSpan?_eq (context : Context) (node : Node) :
    context.nativeSpan? node =
      Text.spanToNative context.encoding context.snapshot.source (context.shownBytes node) :=
  rfl

/-- A node can be shown exactly when no bound of its bytes cuts a character or
lies past the end. -/
theorem exists_nativeSpan?_iff {context : Context} {node : Node} :
    (∃ span, context.nativeSpan? node = some span) ↔
      Text.isBoundary context.snapshot.source (context.shownBytes node).start ∧
        Text.isBoundary context.snapshot.source (context.shownBytes node).stop := by
  rw [nativeSpan?_eq, ← Option.isSome_iff_exists, Text.isSome_spanToNative, Bool.and_eq_true]

end Context

namespace SelectionState

/-- Selecting a node that can be shown selects its text, whether or not the text
view has to be told. -/
theorem settle_transition_tree {state : SelectionState} {context : Context} {id : NodeId}
    {node : Node} {span : Span} (idle : state.phase = .idle)
    (resolved : context.snapshot.resolve? id = some node)
    (mapped : context.nativeSpan? node = some span) :
    (state.transition context (.tree (some id))).state.settle = ⟨.idle, .single span, some id⟩ := by
  rw [transition_tree_of_shown idle resolved mapped]
  split
  · rfl
  · rfl

/-- Selecting a node that can be shown is not dropped. -/
theorem outcome_transition_tree {state : SelectionState} {context : Context} {id : NodeId}
    {node : Node} {span : Span} (idle : state.phase = .idle)
    (resolved : context.snapshot.resolve? id = some node)
    (mapped : context.nativeSpan? node = some span) :
    (state.transition context (.tree (some id))).outcome = .propagated ∨
      (state.transition context (.tree (some id))).outcome = .consistent := by
  rw [transition_tree_of_shown idle resolved mapped]
  split
  · exact Or.inr rfl
  · exact Or.inl rfl

/-- A node whose bytes lie on character boundaries has a native span. Once the
node is selected, that span is the selected text, and reporting it back is
consistent, tells nobody and changes nothing. -/
theorem exists_consistent_echo (context : Context) (state : SelectionState) (node : Node)
    (idle : state.phase = .idle) (member : node ∈ context.snapshot.tree.nodes)
    (startAligned : Text.isBoundary context.snapshot.source (context.shownBytes node).start)
    (stopAligned : Text.isBoundary context.snapshot.source (context.shownBytes node).stop) :
    ∃ span settled, context.nativeSpan? node = some span ∧
      (state.transition context (.tree (some (context.snapshot.id node)))).state.settle = settled ∧
      settled.text = .single span ∧ settled.tree = some (context.snapshot.id node) ∧
      settled.transition context (.text settled.text) = ⟨settled, none, .consistent⟩ := by
  obtain ⟨span, mapped⟩ := Context.exists_nativeSpan?_iff.mpr ⟨startAligned, stopAligned⟩
  have resolved := Snapshot.resolve?_id member
  refine ⟨span, ⟨.idle, .single span, some (context.snapshot.id node)⟩, mapped, ?_, rfl, rfl, ?_⟩
  · exact settle_transition_tree idle resolved mapped
  · exact transition_of_shown rfl rfl resolved mapped

/-- Two nodes show as the same two-byte letter, and the lookup finds the inner
one; the outer one stays selected all the same. -/
theorem consistent_echo_of_outer_node :
    let tree := Tree.ofLabels ⟨{ kind := "file" }, ⟨0, 0, 2, 0⟩⟩
      (.node ⟨{ kind := "name" }, ⟨0, 0, 2, 0⟩⟩ .nil .nil) 2
    let context : Context := ⟨Snapshot.ofTree ⟨1⟩ "é" tree, .utf16, ⟨.enclosing, true⟩⟩
    let settled : SelectionState := ⟨.idle, .single ⟨0, 1⟩, some ⟨⟨1⟩, 0⟩⟩
    (context.snapshot.locate? 0).map Node.index = some 1 ∧
      (({} : SelectionState).transition context (.tree (some ⟨⟨1⟩, 0⟩))).state.settle = settled ∧
      settled.transition context (.text (.single ⟨0, 1⟩)) = ⟨settled, none, .consistent⟩ := by
  intro tree context settled
  refine ⟨by decide, ?_⟩
  obtain ⟨span, reached, mapped, selected, text, -, echoed⟩ :=
    exists_consistent_echo context {} tree.root rfl (by decide) (by decide) (by decide)
  have spanEq : span = ⟨0, 1⟩ := Option.some.inj (mapped.symm.trans (by decide))
  have reachedEq : reached = settled := selected.symm.trans (by decide)
  subst spanEq reachedEq
  exact ⟨selected, echoed⟩

end SelectionState

end TreeLens
