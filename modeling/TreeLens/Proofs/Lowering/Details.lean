import TreeLens.Details
import TreeLens.Proofs.Lowering.Selectable
import TreeLens.Proofs.Text.Places

/-!
# Details of lowered nodes

The details of a node are looked up by where its content starts, in a table of lines that
knows no place inside a character or past the end. Where an outline is aligned so is the
lowered tree, and in a source that is short enough no position is reduced; so every node
has details. They are exact: the place is that of the content, and the three texts of
a node, its leading trivia, its content and its trailing trivia, lie one behind the other.
-/

namespace TreeLens

/-- A text is cut into the three parts of an extent. -/
structure Extent.PartedIn (source : String) (extent : Extent) : Prop where
  leading_eq : (Text.slice source extent.leadingSpan).utf8ByteSize = extent.leading
  body_eq : (Text.slice source extent.content).utf8ByteSize = extent.body
  trailing_eq : (Text.slice source extent.trailingSpan).utf8ByteSize = extent.trailing
  text_eq : Text.slice source extent.leadingSpan ++ Text.slice source extent.content ++
    Text.slice source extent.trailingSpan = Text.slice source extent.full

/-- Between boundaries the parts of an extent are whole and lie one behind the other. -/
theorem Extent.partedIn {source : String} {extent : Extent} (full : extent.full.Aligned source)
    (content : extent.content.Aligned source) : extent.PartedIn source := by
  have leadingLe : extent.start ≤ extent.content.start := Nat.le_add_right _ _
  have bodyLe : extent.content.start ≤ extent.content.stop := Nat.le_add_right _ _
  have stopEq : extent.stop = extent.content.stop + extent.trailing := by
    simp only [Extent.content, Extent.stop, Extent.length, Nat.add_assoc]
  have trailingLe : extent.content.stop ≤ extent.stop := by
    rw [stopEq]
    exact Nat.le_add_right _ _
  constructor
  case leading_eq =>
    have size := Text.utf8ByteSize_slice full.start content.start leadingLe
    exact size.trans (Nat.add_sub_cancel_left _ _)
  case body_eq =>
    have size := Text.utf8ByteSize_slice content.start content.stop bodyLe
    exact size.trans (Nat.add_sub_cancel_left _ _)
  case trailing_eq =>
    have size := Text.utf8ByteSize_slice content.stop full.stop trailingLe
    exact size.trans (Nat.sub_eq_of_eq_add' stopEq)
  case text_eq =>
    have front := Text.slice_append full.start content.start content.stop leadingLe bodyLe
    have whole := Text.slice_append full.start content.stop full.stop
      (Nat.le_trans leadingLe bodyLe) trailingLe
    exact (congrArg (· ++ Text.slice source extent.trailingSpan) front).trans whole

namespace Details

variable {source : String} {node : Node} {details : Details}

theorem of?_eq_some_iff {lines : Text.LineIndex} :
    of? source lines node = some details ↔
      ∃ place, lines.place? (node.content.start % positionLimit) = some place ∧
        details =
          { tag := node.toTag
            index := node.index
            position := node.start
            length := node.content.length
            totalLength := node.extent.length
            content := node.content
            place := place
            leading := Text.slice source node.extent.leadingSpan
            trailing := Text.slice source node.extent.trailingSpan } := by
  rw [of?, Option.bind_eq_bind, Option.bind_eq_some_iff]
  simp only [Option.pure_def, Option.some.injEq, eq_comm]

/-- In a short source no boundary is reduced to another position. -/
theorem mod_positionLimit_of_isBoundary (short : source.utf8ByteSize < positionLimit - 1)
    {offset : Nat} (boundary : Text.isBoundary source offset = true) :
    offset % positionLimit = offset := by
  have inside := Text.le_utf8ByteSize_of_isBoundary boundary
  exact Nat.mod_eq_of_lt (by omega)

theorem exists_of? (short : source.utf8ByteSize < positionLimit - 1)
    (content : node.content.Aligned source) :
    ∃ details, of? source ⟨source⟩ node = some details := by
  obtain ⟨place, placed⟩ := Text.exists_place?_of_isBoundary content.start
  rw [← mod_positionLimit_of_isBoundary short content.start] at placed
  exact ⟨_, of?_eq_some_iff.mpr ⟨place, placed, rfl⟩⟩

/-- The place in the details is found where the content starts. -/
theorem place?_of_of? (short : source.utf8ByteSize < positionLimit - 1)
    (content : node.content.Aligned source) (found : of? source ⟨source⟩ node = some details) :
    Text.LineIndex.place? ⟨source⟩ details.content.start = some details.place := by
  obtain ⟨place, placed, rfl⟩ := of?_eq_some_iff.mp found
  rwa [mod_positionLimit_of_isBoundary short content.start] at placed

/-- A detail record tells exactly where a node lies in the source. -/
structure Locates (details : Details) (source : String) (node : Node) : Prop where
  content_eq : details.content = node.content
  /-- Line and column are those of the first byte of the content. -/
  isPlace : Text.IsPlace source details.content.start details.place
  /-- Line and column are numbers of the same width as positions. -/
  place_lt : details.place.line < positionLimit ∧ details.place.column < positionLimit
  start_eq : details.position + details.leading.utf8ByteSize = details.content.start
  length_eq : details.length = (Text.slice source details.content).utf8ByteSize
  total_eq : details.leading.utf8ByteSize + details.length + details.trailing.utf8ByteSize =
    details.totalLength
  text_eq : details.leading ++ Text.slice source details.content ++ details.trailing =
    Text.slice source node.full

/-- In a short source the details of a node between boundaries are exact. -/
theorem locates_of_of? (short : source.utf8ByteSize < positionLimit - 1)
    (full : node.full.Aligned source) (content : node.content.Aligned source)
    (found : of? source ⟨source⟩ node = some details) : details.Locates source node := by
  have isPlace := Text.isPlace_of_place? (place?_of_of? short content found)
  have bounds := isPlace.le_succ
  obtain ⟨place, -, rfl⟩ := of?_eq_some_iff.mp found
  have parts := Extent.partedIn full content
  constructor
  case content_eq => rfl
  case isPlace => exact isPlace
  case place_lt =>
    have inside := Text.le_utf8ByteSize_of_isBoundary content.start
    dsimp only at bounds ⊢
    omega
  case start_eq =>
    dsimp only
    rw [parts.leading_eq]
    rfl
  case length_eq =>
    dsimp only
    rw [Label.content, parts.body_eq]
    exact Nat.add_sub_cancel_left _ _
  case total_eq =>
    have bodyEq : node.content.length = node.extent.body := Nat.add_sub_cancel_left _ _
    dsimp only
    rw [parts.leading_eq, parts.trailing_eq, bodyEq]
    rfl
  case text_eq => exact parts.text_eq

end Details

namespace Outline

/-- An outline whose bounds are all character boundaries of a source shorter than the last
position is lowered to a tree every node of which has details, and these tell exactly where
the node lies. Nodes come in the same order by line and column as by the start of their
contents. -/
theorem lower_ok_details {source : String} {outline : Outline}
    (short : source.utf8ByteSize < Details.positionLimit - 1)
    (contents : ∀ parsed ∈ outline.forest.toList, parsed.content.Aligned source) :
    ∃ tree,
      (outline.lower source).run = some (.ok tree) ∧
      (∀ node ∈ tree.nodes, ∃ details, Details.of? source ⟨source⟩ node = some details ∧
        details.Locates source node) ∧
      ∀ first ∈ tree.nodes, ∀ second ∈ tree.nodes, ∀ firstDetails secondDetails,
        Details.of? source ⟨source⟩ first = some firstDetails →
        Details.of? source ⟨source⟩ second = some secondDetails →
          (firstDetails.place.Precedes secondDetails.place ↔
            firstDetails.content.start < secondDetails.content.start) := by
  obtain ⟨tree, labels, lowered, -, unnumbered, layout⟩ := exists_lower_eq_ok source outline
  have aligned := layout.aligned_nodes unnumbered contents
  refine ⟨tree, lowered, ?_, ?_⟩
  · intro node member
    obtain ⟨full, content⟩ := aligned node member
    obtain ⟨details, found⟩ := Details.exists_of? short content
    exact ⟨details, found, Details.locates_of_of? short full content found⟩
  · intro first firstMember second secondMember firstDetails secondDetails firstFound secondFound
    exact Text.precedes_iff_lt
      (Details.place?_of_of? short (aligned first firstMember).2 firstFound)
      (Details.place?_of_of? short (aligned second secondMember).2 secondFound)

/-- Three lines, the last of which begins with a letter of two bytes. The second child is
reported backwards across that letter: it is empty, and what lies around it is trivia. -/
theorem lower_ok_details_third_line :
    let source := "a\r\n\né b"
    let outline : Outline := ⟨⟨{ kind := "sheet" }, ⟨0, 8⟩⟩,
      .node ⟨{ kind := "letter" }, ⟨0, 1⟩⟩ .nil
        (.node ⟨{ kind := "letter" }, ⟨6, 4⟩⟩ .nil
          (.node ⟨{ kind := "letter" }, ⟨7, 8⟩⟩ .nil .nil))⟩
    source.utf8ByteSize < Details.positionLimit - 1 ∧
      (∀ parsed ∈ outline.forest.toList, parsed.content.Aligned source) ∧
      ∃ tree empty details, (outline.lower source).run = some (.ok tree) ∧
        tree.node? 2 = some empty ∧ Details.of? source ⟨source⟩ empty = some details ∧
        details.Locates source empty ∧ details.place = ⟨3, 3⟩ ∧
        details.leading = "\r\n\né" ∧ details.trailing = " " := by
  intro source outline
  have short : source.utf8ByteSize < Details.positionLimit - 1 := by decide +kernel
  have contents : ∀ parsed ∈ outline.forest.toList, parsed.content.Aligned source := by
    simp only [outline, forest, Forest.toList, List.nil_append, List.append_nil,
      List.forall_mem_cons]
    refine ⟨⟨?_, ?_⟩, ⟨?_, ?_⟩, ⟨?_, ?_⟩, ⟨?_, ?_⟩, by simp⟩ <;> decide
  obtain ⟨tree, lowered, detailed, -⟩ := lower_ok_details short contents
  have computed : (outline.lower? source).bind (fun tree => tree.node? 2) =
      some ⟨⟨{ kind := "letter" }, ⟨1, 5, 0, 1⟩⟩, 2⟩ := by
    decide +kernel
  have found : tree.node? 2 = some ⟨⟨{ kind := "letter" }, ⟨1, 5, 0, 1⟩⟩, 2⟩ := by
    rw [lower?, lowered] at computed
    exact computed
  obtain ⟨details, described, locates⟩ := detailed _ (Tree.mem_nodes_of_node? found)
  refine ⟨short, contents, tree, _, details, lowered, found, described, locates, ?_⟩
  have shown : (Details.of? source ⟨source⟩ ⟨⟨{ kind := "letter" }, ⟨1, 5, 0, 1⟩⟩, 2⟩).map
      (fun details => (details.place, details.leading, details.trailing)) =
        some (⟨3, 3⟩, "\r\n\né", " ") := by
    decide +kernel
  rw [described, Option.map_some, Option.some.injEq, Prod.mk.injEq, Prod.mk.injEq] at shown
  exact shown

end Outline

end TreeLens
