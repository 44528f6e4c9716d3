import TreeLens.Proofs.Selection.Canonical
import TreeLens.Proofs.Selection.Step
import TreeLens.Proofs.Text.Slices
import TreeLens.Proofs.Tree.Covering

/-!
# Enclosing selections

Under the enclosing policy a text selection stands for the span from its smallest start
to its largest stop. Only the first byte of that span is looked up; the node is then
found by climbing. On a tree without defects it is the deepest node of all that cover
the span. A caret is covered by whatever holds its byte, so it selects the same node
under either policy.

A wider selection is covered by fewer nodes, and its node is that of the narrower one or
above it. This needs the narrower one to begin before the wider one ends: a caret at the
end of a selection belongs to the byte behind it, and that may be another node's.
-/

namespace TreeLens

namespace Text

variable {encoding : Encoding} {source : String} {inner outer innerBytes outerBytes : Span}

theorem spanToBytes_le_utf8ByteSize {span bytes : Span}
    (mapped : spanToBytes encoding source span = some bytes) :
    bytes.start ≤ source.utf8ByteSize ∧ bytes.stop ≤ source.utf8ByteSize := by
  obtain ⟨startMapped, stopMapped⟩ := spanToBytes_eq_some_iff.mp mapped
  exact ⟨le_utf8ByteSize_of_toByte startMapped, le_utf8ByteSize_of_toByte stopMapped⟩

/-- Spans inside each other have bytes inside each other. -/
theorem inside_of_spanToBytes
    (innerMapped : spanToBytes encoding source inner = some innerBytes)
    (outerMapped : spanToBytes encoding source outer = some outerBytes)
    (inside : inner.Inside outer) : innerBytes.Inside outerBytes := by
  simp only [spanToBytes_eq_some_iff, toByte_eq_some_iff] at innerMapped outerMapped
  exact ⟨(toNative_le_iff outerMapped.1 innerMapped.1).mp inside.1,
    (toNative_le_iff innerMapped.2 outerMapped.2).mp inside.2⟩

theorem begins_of_spanToBytes
    (innerMapped : spanToBytes encoding source inner = some innerBytes)
    (outerMapped : spanToBytes encoding source outer = some outerBytes)
    (begins : inner.start < outer.stop ∨ inner = outer) :
    innerBytes.start < outerBytes.stop ∨ innerBytes = outerBytes := by
  rcases begins with before | rfl
  · left
    simp only [spanToBytes_eq_some_iff, toByte_eq_some_iff] at innerMapped outerMapped
    rw [← Nat.not_le, ← toNative_le_iff outerMapped.2 innerMapped.1, Nat.not_le]
    exact before
  · right
    exact Option.some.inj (innerMapped.symm.trans outerMapped)

end Text

namespace TextSelection

/-- The smallest start and the largest stop of the spans of a selection. -/
structure Bounds (selection : TextSelection) (span : Span) : Prop where
  least : (selection.ranges.map Span.start).min? = some span.start
  greatest : (selection.ranges.map Span.stop).max? = some span.stop

variable {selection : TextSelection} {span : Span}

theorem Normal.ordered_of_bounds (normal : selection.Normal) (bounds : selection.Bounds span) :
    span.Ordered := by
  obtain ⟨startMem, -⟩ := List.min?_eq_some_iff.mp bounds.least
  obtain ⟨-, stopLe⟩ := List.max?_eq_some_iff.mp bounds.greatest
  obtain ⟨range, rangeMem, startEq⟩ := List.mem_map.mp startMem
  calc
    span.start = range.start := startEq.symm
    _ ≤ range.stop := normal.ordered range rangeMem
    _ ≤ span.stop := stopLe range.stop (List.mem_map_of_mem rangeMem)

/-- The hull of a normal selection lies between its bounds. -/
theorem Normal.hull?_eq_some (normal : selection.Normal) (bounds : selection.Bounds span) :
    selection.hull? = some span := by
  have stopMax : max span.start span.stop = span.stop :=
    Nat.max_eq_right (normal.ordered_of_bounds bounds)
  simp [hull?, bounds.least, bounds.greatest, stopMax]

end TextSelection

/-- What covers a span covers the spans inside it that begin before it ends. -/
theorem Node.Covers.of_inside {node : Node} {inner outer : Span} (covers : node.Covers outer)
    (inside : inner.Inside outer) (begins : inner.start < outer.stop ∨ inner = outer) :
    node.Covers inner := by
  obtain ⟨⟨startLe, ltStop⟩, stopLe⟩ := covers
  rcases begins with before | rfl
  · refine ⟨⟨Nat.le_trans startLe inside.1, Nat.lt_of_lt_of_le before stopLe⟩, ?_⟩
    exact Nat.le_trans inside.2 stopLe
  · exact ⟨⟨startLe, ltStop⟩, stopLe⟩

namespace Context

/-- Reported in any idle state in which no node is selected, the text selection is taken
over and this node is selected with it. -/
def Selects (context : Context) (selection : TextSelection) (picked : Option Node) : Prop :=
  ∀ state : SelectionState, state.phase = .idle → state.tree = none →
    (state.transition context (.text selection)).state.settle =
      ⟨.idle, selection, picked.map context.snapshot.id⟩

theorem selects_of_pick? {context : Context} {selection : TextSelection} {target : Span}
    {picked : Option Node} (reduced : context.target? selection = some target)
    (mapped : context.pick? target = some picked) : context.Selects selection picked := by
  intro state idle unselected
  have notShown : state.current? context target = none := by
    simp [SelectionState.current?, unselected]
  rw [SelectionState.transition_text context selection idle]
  have way := state.textStep context selection
  generalize state.textChanged context selection = next at way ⊢
  cases way with
  | cleared noTarget =>
    rw [reduced] at noTarget
    contradiction
  | kept other node otherReduced shown =>
    cases reduced.symm.trans otherReduced
    rw [notShown] at shown
    contradiction
  | unmappable other otherReduced _ unmapped =>
    cases reduced.symm.trans otherReduced
    rw [mapped] at unmapped
    contradiction
  | agreed other otherPicked otherReduced _ otherMapped
  | passedOn other otherPicked otherReduced _ otherMapped =>
    cases reduced.symm.trans otherReduced
    cases mapped.symm.trans otherMapped
    rfl

theorem Selects.unique {context : Context} {selection : TextSelection} {first second : Option Node}
    (one : context.Selects selection first) (other : context.Selects selection second) :
    first.map context.snapshot.id = second.map context.snapshot.id :=
  congrArg SelectionState.tree ((one {} rfl rfl).symm.trans (other {} rfl rfl))

variable {generation : Generation} {source : String} {tree : Tree} {encoding : Encoding}
  {includeTrivia : Bool}

/-- A span stands for the last of the nodes that cover its bytes. -/
theorem pick?_enclosing (valid : tree.validate = .ok ())
    (built : tree.sourceLength = source.utf8ByteSize) {target bytes : Span}
    (mapped : Text.spanToBytes encoding source target = some bytes) :
    pick? ⟨Snapshot.ofTree generation source tree, encoding, ⟨.enclosing, includeTrivia⟩⟩ target =
      some (tree.covering bytes).getLast? := by
  obtain ⟨startMapped, stopMapped⟩ := Text.spanToBytes_eq_some_iff.mp mapped
  obtain ⟨-, stopLe⟩ := Text.spanToBytes_le_utf8ByteSize mapped
  rw [← built] at stopLe
  cases located : tree.locate? bytes.start with
  | none =>
    have uncovered : tree.covering bytes = [] := by
      rw [Tree.locate?_eq_getLast?_scan valid, List.getLast?_eq_none_iff] at located
      rw [Tree.covering_eq_filter_scan, located, List.filter_nil]
    simp [pick?, Snapshot.ofTree, Snapshot.locate?, startMapped, located, uncovered]
  | some node =>
    have inside := Tree.lt_sourceLength_of_mem_full valid (Tree.mem_nodes_of_locate? located)
      (Tree.mem_full_of_locate? valid located)
    obtain ⟨deepest, last⟩ := Tree.exists_getLast?_covering valid inside stopLe
    have climbed := Tree.find?_reverse_pathTo valid located
    rw [last] at climbed ⊢
    simp [pick?, Snapshot.ofTree, Snapshot.locate?, Snapshot.pathTo, startMapped, stopMapped,
      located, climbed]

/-- A normalised selection selects the last of the nodes that cover its bytes. -/
theorem selects_getLast?_covering (valid : tree.validate = .ok ())
    (built : tree.sourceLength = source.utf8ByteSize) {spans : List Span} {span bytes : Span}
    (bounds : (TextSelection.ofSpans spans).Bounds span)
    (mapped : Text.spanToBytes encoding source span = some bytes) :
    Selects ⟨Snapshot.ofTree generation source tree, encoding, ⟨.enclosing, includeTrivia⟩⟩
      (.ofSpans spans) (tree.covering bytes).getLast? := by
  apply selects_of_pick?
  · exact (TextSelection.normal_ofSpans spans).hull?_eq_some bounds
  · exact pick?_enclosing valid built mapped

/-- The node that a normalised selection selects is the deepest that covers its bytes. -/
theorem Selects.deepestCover (valid : tree.validate = .ok ())
    (built : tree.sourceLength = source.utf8ByteSize) {spans : List Span} {span bytes : Span}
    (bounds : (TextSelection.ofSpans spans).Bounds span)
    (mapped : Text.spanToBytes encoding source span = some bytes) {node : Node}
    (member : node ∈ tree.nodes)
    (selected : Selects
      ⟨Snapshot.ofTree generation source tree, encoding, ⟨.enclosing, includeTrivia⟩⟩
      (.ofSpans spans) (some node)) :
    tree.DeepestCover bytes node := by
  have same := (selects_getLast?_covering valid built bounds mapped).unique selected
  obtain ⟨last, isLast, sameId⟩ := Option.map_eq_some_iff.mp same
  have cover := Tree.deepestCover_of_getLast? valid isLast
  have sameNode : last = node :=
    Tree.eq_of_index_eq cover.member member (congrArg NodeId.index sameId)
  rwa [← sameNode]

/-- A caret stands for the node that its byte is located in, under either policy. -/
theorem pick?_point (valid : tree.validate = .ok ()) (offset : Nat) :
    pick? ⟨Snapshot.ofTree generation source tree, encoding, ⟨.enclosing, includeTrivia⟩⟩
        (.point offset) =
      pick? ⟨Snapshot.ofTree generation source tree, encoding, ⟨.first, includeTrivia⟩⟩
        (.point offset) := by
  cases mapped : Text.toByte encoding source offset with
  | none => simp [pick?, Snapshot.ofTree, Span.point, mapped]
  | some byte =>
    cases located : tree.locate? byte with
    | none => simp [pick?, Snapshot.ofTree, Snapshot.locate?, Span.point, mapped, located]
    | some node =>
      -- The located node is the first that the climb looks at.
      have reaches : byte ≤ node.stop := Nat.le_of_lt (Tree.mem_full_of_locate? valid located).2
      simp [pick?, Snapshot.ofTree, Snapshot.locate?, Snapshot.pathTo, Lineage.pathTo, Span.point,
        mapped, located, reaches]

end Context

/-- A caret is judged alike under both policies, in every state. -/
theorem SelectionState.transition_caret {generation : Generation} {source : String} {tree : Tree}
    {encoding : Encoding} {includeTrivia : Bool} (valid : tree.validate = .ok ())
    (state : SelectionState) (offset : Nat) :
    state.transition
        ⟨Snapshot.ofTree generation source tree, encoding, ⟨.enclosing, includeTrivia⟩⟩
        (.text (.caret offset)) =
      state.transition
        ⟨Snapshot.ofTree generation source tree, encoding, ⟨.first, includeTrivia⟩⟩
        (.text (.caret offset)) := by
  have ordered : (Span.point offset).Ordered := Nat.le_refl offset
  cases phase : state.phase with
  | propagating => rw [transition_of_propagating _ _ phase, transition_of_propagating _ _ phase]
  | idle =>
    rw [transition_text _ _ phase, transition_text _ _ phase]
    simp only [textChanged, TextSelection.caret, Context.target?_single _ ordered,
      Context.pick?_point valid]
    rfl

namespace Context

/-- On a tree without defects the enclosing policy selects the deepest of all nodes that
cover the selected bytes, and none exactly when they begin at the end of the source. The
nodes that cover the bytes are on one path, and the climb along it never ends without a
node. A wider selection selects the same node or one above it if the narrower one begins
before it ends, and a caret is judged as it is under the other policy. -/
theorem selects_deepest_cover (generation : Generation) (source : String) (tree : Tree)
    (encoding : Encoding) (includeTrivia : Bool) (valid : tree.validate = .ok ())
    (built : tree.sourceLength = source.utf8ByteSize) :
    let context (choice : MultiRange) : Context :=
      ⟨Snapshot.ofTree generation source tree, encoding, ⟨choice, includeTrivia⟩⟩
    (∀ spans span bytes, (TextSelection.ofSpans spans).Bounds span →
      Text.spanToBytes encoding source span = some bytes →
      (bytes.start = source.utf8ByteSize →
        (context .enclosing).Selects (.ofSpans spans) none) ∧
      (bytes.start ≠ source.utf8ByteSize →
        (∃ node, tree.DeepestCover bytes node ∧
          (context .enclosing).Selects (.ofSpans spans) (some node)) ∧
        tree.root.Covers bytes ∧
        (∀ first ∈ tree.nodes, ∀ second ∈ tree.nodes,
          first.Covers bytes → second.Covers bytes →
            Relation.ReflTransGen tree.IsChild first.index second.index ∨
              Relation.ReflTransGen tree.IsChild second.index first.index) ∧
        ∃ located found, (context .enclosing).snapshot.locate? bytes.start = some located ∧
          ((context .enclosing).snapshot.pathTo located).reverse.find?
            (fun candidate => decide (bytes.stop ≤ candidate.stop)) = some found)) ∧
    (∀ inner outer innerSpan outerSpan innerBytes outerBytes,
      (TextSelection.ofSpans inner).Bounds innerSpan →
      Text.spanToBytes encoding source innerSpan = some innerBytes →
      (TextSelection.ofSpans outer).Bounds outerSpan →
      Text.spanToBytes encoding source outerSpan = some outerBytes →
      innerSpan.Inside outerSpan → innerSpan.start < outerSpan.stop ∨ innerSpan = outerSpan →
      ∀ node ∈ tree.nodes, (context .enclosing).Selects (.ofSpans inner) (some node) →
        ∃ upper ∈ tree.nodes, (context .enclosing).Selects (.ofSpans outer) (some upper) ∧
          Relation.ReflTransGen tree.IsChild upper.index node.index) ∧
    ∀ (state : SelectionState) offset,
      state.transition (context .enclosing) (.text (.caret offset)) =
        state.transition (context .first) (.text (.caret offset)) := by
  intro context
  refine ⟨?_, ?_, fun state offset => state.transition_caret valid offset⟩
  · intro spans span bytes bounds mapped
    have selects : (context .enclosing).Selects (.ofSpans spans) (tree.covering bytes).getLast? :=
      selects_getLast?_covering valid built bounds mapped
    obtain ⟨startLe, stopLe⟩ := Text.spanToBytes_le_utf8ByteSize mapped
    rw [← built] at startLe stopLe ⊢
    constructor
    · intro atEnd
      rwa [Tree.covering_eq_nil valid (Nat.le_of_eq atEnd.symm)] at selects
    · intro notAtEnd
      have inside : bytes.start < tree.sourceLength := Nat.lt_of_le_of_ne startLe notAtEnd
      obtain ⟨node, last⟩ := Tree.exists_getLast?_covering valid inside stopLe
      rw [last] at selects
      refine ⟨⟨node, Tree.deepestCover_of_getLast? valid last, selects⟩,
        Tree.root_covers valid inside stopLe, ?_,
        Tree.exists_find?_reverse_pathTo valid inside stopLe⟩
      intro first firstMember second secondMember firstCovers secondCovers
      exact Tree.isChild_chain_of_mem_full valid firstMember secondMember firstCovers.1
        secondCovers.1
  · intro inner outer innerSpan outerSpan innerBytes outerBytes innerBounds innerMapped
      outerBounds outerMapped inside begins node member selected
    have cover := selected.deepestCover valid built innerBounds innerMapped member
    have bytesInside := Text.inside_of_spanToBytes innerMapped outerMapped inside
    have bytesBegin := Text.begins_of_spanToBytes innerMapped outerMapped begins
    obtain ⟨-, stopLe⟩ := Text.spanToBytes_le_utf8ByteSize outerMapped
    -- The wider bytes begin no later than the narrower ones, and those are covered.
    have startLt : outerBytes.start < tree.sourceLength :=
      Nat.lt_of_le_of_lt bytesInside.1
        (Tree.lt_sourceLength_of_mem_full valid cover.member cover.covers.1)
    rw [← built] at stopLe
    obtain ⟨upper, last⟩ := Tree.exists_getLast?_covering valid startLt stopLe
    have upperCover := Tree.deepestCover_of_getLast? valid last
    refine ⟨upper, upperCover.member, ?_, ?_⟩
    · rw [← last]
      exact selects_getLast?_covering valid built outerBounds outerMapped
    · exact cover.above upper upperCover.member
        (upperCover.covers.of_inside bytesInside bytesBegin)

/-- Two carets, reported from right to left, stand for the bytes from the letter to the end
of the emoji, and these are the pair's. -/
theorem selects_deepest_cover_pair :
    let tree := Tree.ofLabels ⟨{ kind := "file" }, ⟨0, 0, 6, 0⟩⟩
      (.node ⟨{ kind := "pair" }, ⟨0, 0, 5, 0⟩⟩
        (.node ⟨{ kind := "letter" }, ⟨0, 0, 1, 0⟩⟩ .nil
          (.node ⟨{ kind := "emoji" }, ⟨1, 0, 4, 0⟩⟩ .nil .nil))
        (.node ⟨{ kind := "letter" }, ⟨5, 0, 1, 0⟩⟩ .nil .nil)) 6
    let context : Context :=
      ⟨Snapshot.ofTree ⟨1⟩ "a😀b" tree, .utf16, ⟨.enclosing, false⟩⟩
    tree.validate = .ok () ∧ (tree.covering ⟨0, 5⟩).map Node.index = [0, 1] ∧
      ∃ node, tree.DeepestCover ⟨0, 5⟩ node ∧
        context.Selects (.ofSpans [⟨3, 3⟩, ⟨0, 0⟩]) (some node) := by
  intro tree context
  have valid : tree.validate = .ok () := by decide
  have normalised : TextSelection.ofSpans [⟨3, 3⟩, ⟨0, 0⟩] = ⟨[⟨0, 0⟩, ⟨3, 3⟩]⟩ := by
    simp [TextSelection.ofSpans, TextSelection.join, TextSelection.joinFrom, Span.flip,
      List.mergeSort, Span.precedes]
  have bounds : (TextSelection.ofSpans [⟨3, 3⟩, ⟨0, 0⟩]).Bounds ⟨0, 3⟩ := by
    rw [normalised]
    exact ⟨by decide, by decide⟩
  refine ⟨valid, by decide, ?_⟩
  exact (((selects_deepest_cover ⟨1⟩ "a😀b" tree .utf16 false valid (by decide)).1
    _ ⟨0, 3⟩ ⟨0, 5⟩ bounds (by decide)).2 (by decide)).1

/-- A caret at the end of a selection is inside its span, but the node at the caret is not
below the one that is selected with the wider span. -/
theorem selects_behind_the_end :
    let left : Node := ⟨⟨{ kind := "left" }, ⟨0, 0, 1, 0⟩⟩, 1⟩
    let right : Node := ⟨⟨{ kind := "right" }, ⟨1, 0, 1, 0⟩⟩, 2⟩
    let tree := Tree.ofLabels ⟨{ kind := "file" }, ⟨0, 0, 2, 0⟩⟩
      (.node left.toLabel .nil (.node right.toLabel .nil .nil)) 2
    let context : Context := ⟨Snapshot.ofTree ⟨1⟩ "ab" tree, .utf16, ⟨.enclosing, false⟩⟩
    (tree.validate = .ok () ∧ tree.sourceLength = "ab".utf8ByteSize) ∧
      ((TextSelection.ofSpans [⟨1, 1⟩]).Bounds ⟨1, 1⟩ ∧
        Text.spanToBytes .utf16 "ab" ⟨1, 1⟩ = some ⟨1, 1⟩) ∧
      ((TextSelection.ofSpans [⟨0, 1⟩]).Bounds ⟨0, 1⟩ ∧
        Text.spanToBytes .utf16 "ab" ⟨0, 1⟩ = some ⟨0, 1⟩) ∧
      Span.Inside ⟨1, 1⟩ ⟨0, 1⟩ ∧
      (right ∈ tree.nodes ∧ context.Selects (.ofSpans [⟨1, 1⟩]) (some right)) ∧
      (left ∈ tree.nodes ∧ context.Selects (.ofSpans [⟨0, 1⟩]) (some left)) ∧
      ¬ Relation.ReflTransGen tree.IsChild left.index right.index := by
  intro left right tree context
  have valid : tree.validate = .ok () := by decide
  have built : tree.sourceLength = "ab".utf8ByteSize := by decide
  have caretBounds : (TextSelection.ofSpans [⟨1, 1⟩]).Bounds ⟨1, 1⟩ :=
    ⟨by decide +kernel, by decide +kernel⟩
  have caretMapped : Text.spanToBytes .utf16 "ab" ⟨1, 1⟩ = some ⟨1, 1⟩ := by decide
  have wideBounds : (TextSelection.ofSpans [⟨0, 1⟩]).Bounds ⟨0, 1⟩ :=
    ⟨by decide +kernel, by decide +kernel⟩
  have wideMapped : Text.spanToBytes .utf16 "ab" ⟨0, 1⟩ = some ⟨0, 1⟩ := by decide
  have rightPlaced : (right, [tree.root]) ∈ tree.withAncestors := by decide
  refine ⟨⟨valid, built⟩, ⟨caretBounds, caretMapped⟩, ⟨wideBounds, wideMapped⟩,
    ⟨Nat.zero_le 1, Nat.le_refl 1⟩, ⟨by decide, ?_⟩, ⟨by decide, ?_⟩, ?_⟩
  · exact selects_getLast?_covering valid built caretBounds caretMapped
  · exact selects_getLast?_covering valid built wideBounds wideMapped
  · rw [Tree.reflTransGen_isChild_iff rightPlaced]
    simp [Forest.OnPath, left, right, tree, Tree.ofLabels]

end Context

end TreeLens
