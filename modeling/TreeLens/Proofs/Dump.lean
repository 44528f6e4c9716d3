import TreeLens.Dump
import TreeLens.Proofs.Tree.Indentation

/-!
# What a dump shows

A row embeds trivia, which may hold anything, and stays on one line all the same, because
trivia is quoted and a quoted text has no line feed. So the lines of a dump are the rows of
the nodes in pre-order, each behind two blanks for every ancestor. Where no row begins with
a blank itself, the indentation of a line shows the depth of its node; with the rows
and the depths everything is there to read the tree back.
-/

namespace TreeLens

namespace Text

/-! ## Texts on one line -/

/-- The lines of a text, which line feeds keep apart. -/
def lines (text : String) : List String :=
  (text.toList.splitOn '\n').map String.ofList

/-- A text without a line feed. -/
def OneLine (text : String) : Prop :=
  '\n' ∉ text.toList

instance (text : String) : Decidable (OneLine text) :=
  inferInstanceAs (Decidable ('\n' ∉ text.toList))

theorem OneLine.append {first second : String} (before : OneLine first) (after : OneLine second) :
    OneLine (first ++ second) := by
  rw [OneLine, String.toList_append, List.mem_append, not_or]
  exact ⟨before, after⟩

/-- Texts on one line each are the lines of the text that line feeds join them to. -/
theorem lines_intercalate {parts : List String} (notEmpty : parts ≠ [])
    (oneLine : ∀ part ∈ parts, OneLine part) :
    lines (String.intercalate "\n" parts) = parts := by
  have apart : ∀ chars ∈ parts.map String.toList, '\n' ∉ chars := by
    intro chars member
    rcases List.mem_map.mp member with ⟨part, isPart, rfl⟩
    exact oneLine part isPart
  have joined : (String.intercalate "\n" parts).toList =
      ['\n'].intercalate (parts.map String.toList) := String.toList_intercalate
  rw [lines, joined, List.splitOn_intercalate '\n' apart (by simpa using notEmpty), List.map_map]
  simp [Function.comp_def]

/-- No digit is a line feed. -/
theorem lineFeed_notMem_toDigits {base : Nat} (least : 1 < base) (most : base ≤ 16)
    (value : Nat) : '\n' ∉ Nat.toDigits base value := by
  have notDigit : ∀ digit < 16, '\n' ≠ Nat.digitChar digit := by decide
  induction value using Nat.strongRecOn with
  | ind value higher =>
    rw [Nat.toDigits_eq_if least]
    split
    case isTrue single =>
      rw [List.mem_singleton]
      exact notDigit value (Nat.lt_of_lt_of_le single most)
    case isFalse several =>
      have positive : 0 < value := by omega
      have last := Nat.lt_of_lt_of_le (Nat.mod_lt value (Nat.lt_of_succ_lt least)) most
      rw [List.mem_append, List.mem_singleton, not_or]
      exact ⟨higher _ (Nat.div_lt_self positive least), notDigit _ last⟩

theorem oneLine_toString (value : Nat) : OneLine (toString value) := by
  rw [OneLine, Nat.toString_eq_ofList_toDigits, String.toList_ofList]
  exact lineFeed_notMem_toDigits (by decide) (by decide) value

/-- The one character that could break the line has an escape of its own. -/
theorem lineFeed_notMem_quoteChar (char : Char) : '\n' ∉ quoteChar char := by
  rw [quoteChar]
  split_ifs with nul tab carriage feed quotes backslash printable
  iterate 6 decide
  · rw [List.mem_singleton]
    exact Ne.symm feed
  · have digits := lineFeed_notMem_toDigits (by decide) (Nat.le_refl 16) char.toNat
    simp [digits]

/-- Whatever a text holds, it is on one line once it is quoted. -/
theorem oneLine_quote (text : String) : OneLine (quote text) := by
  simp [OneLine, quote, lineFeed_notMem_quoteChar]

/-! ## Indentation -/

/-- The depth that the indentation of a line shows: one for every two blanks. -/
def depthOfLine (line : String) : Nat :=
  (line.toList.takeWhile (· = ' ')).length / 2

/-- A line without its indentation. -/
def unindented (line : String) : String :=
  String.ofList (line.toList.dropWhile (· = ' '))

section Indented

variable {row : String} (notBlank : row.toList.head? ≠ some ' ')

include notBlank

theorem takeWhile_blank_eq_nil : row.toList.takeWhile (· = ' ') = [] := by
  cases chars : row.toList with
  | nil => rfl
  | cons first rest =>
    rw [chars, List.head?_cons, ne_eq, Option.some.injEq] at notBlank
    simp [notBlank]

theorem depthOfLine_indent (depth : Nat) : depthOfLine (Snapshot.indent depth ++ row) = depth := by
  have blanks : ∀ char ∈ List.replicate (2 * depth) ' ', decide (char = ' ') = true := by simp
  rw [depthOfLine, Snapshot.indent, String.toList_append, String.toList_ofList,
    List.takeWhile_append_of_pos blanks, takeWhile_blank_eq_nil notBlank]
  simp

theorem unindented_indent (depth : Nat) : unindented (Snapshot.indent depth ++ row) = row := by
  have blanks : ∀ char ∈ List.replicate (2 * depth) ' ', decide (char = ' ') = true := by simp
  have whole := List.takeWhile_append_dropWhile (p := (· = ' ')) (l := row.toList)
  rw [takeWhile_blank_eq_nil notBlank, List.nil_append] at whole
  rw [unindented, Snapshot.indent, String.toList_append, String.toList_ofList,
    List.dropWhile_append_of_pos blanks, whole, String.ofList_toList]

end Indented

end Text

/-! ## Rows -/

namespace Node

theorem oneLine_triviaNote {heading : String} (oneLine : Text.OneLine heading) (text : String) :
    Text.OneLine (triviaNote heading text) := by
  have blank : Text.OneLine " " := by decide
  have equals : Text.OneLine "=" := by decide
  rw [triviaNote]
  split
  case isTrue => decide
  case isFalse => exact ((blank.append oneLine).append equals).append (Text.oneLine_quote text)

/-- A row is on one line if the kind and the field of its node are. -/
theorem oneLine_row {node : Node} (kind : Text.OneLine node.kind)
    (field : ∀ name ∈ node.field, Text.OneLine name) (source : String) :
    Text.OneLine (node.row source) := by
  have caption : Text.OneLine node.caption := by
    have quotes : Text.OneLine "\"" := by decide
    rw [Label.caption]
    split
    case isTrue => exact kind
    case isFalse => exact (quotes.append kind).append quotes
  have blank : Text.OneLine " " := by decide
  have bytes : Text.OneLine node.full.render := by
    have dots : Text.OneLine ".." := by decide
    exact ((Text.oneLine_toString _).append dots).append (Text.oneLine_toString _)
  have leading := oneLine_triviaNote (by decide : Text.OneLine "leading")
    (Text.slice source node.extent.leadingSpan)
  have trailing := oneLine_triviaNote (by decide : Text.OneLine "trailing")
    (Text.slice source node.extent.trailingSpan)
  have error : Text.OneLine (if node.error then " (error)" else "") := by split <;> decide
  have missing : Text.OneLine (if node.missing then " (missing)" else "") := by split <;> decide
  have behindField {front : String} (oneLine : Text.OneLine front) :=
    oneLine.append caption |>.append blank |>.append bytes |>.append leading |>.append trailing
      |>.append error |>.append missing
  cases found : node.field with
  | none =>
    rw [row, found]
    exact behindField (by decide)
  | some name =>
    rw [row, found]
    exact behindField ((field name found).append (by decide))

end Node

/-- A tree whose dump can be read back: no kind and no field breaks a line, and no row begins
with a blank. -/
structure Tree.Legible (source : String) (tree : Tree) : Prop where
  kind : ∀ node ∈ tree.nodes, Text.OneLine node.kind
  field : ∀ node ∈ tree.nodes, ∀ name ∈ node.field, Text.OneLine name
  row : ∀ node ∈ tree.nodes, (node.row source).toList.head? ≠ some ' '

namespace Snapshot

variable {source : String} {tree : Tree} (generation : Generation)

/-- The lines of a dump are the indented rows of the nodes. -/
theorem lines_dump (legible : tree.Legible source) :
    Text.lines (ofTree generation source tree).dump =
      tree.nodes.map fun node =>
        indent ((Lineage.ofTree tree).depth node.index) ++ node.row source := by
  apply Text.lines_intercalate
  · rw [dumpLines, ne_eq, List.map_eq_nil_iff]
    change tree.nodes ≠ []
    rw [tree.nodes_eq]
    exact List.cons_ne_nil _ _
  · intro line isLine
    rcases List.mem_map.mp isLine with ⟨node, member, rfl⟩
    have blanks : ∀ depth, Text.OneLine (indent depth) := by
      intro depth
      simp [indent, Text.OneLine]
    have row := Node.oneLine_row (legible.kind node member) (legible.field node member) source
    exact (blanks _).append row

/-- The indentation of a line shows how deep its node is. -/
theorem map_depthOfLine_lines_dump (legible : tree.Legible source) :
    (Text.lines (ofTree generation source tree).dump).map Text.depthOfLine = tree.depths := by
  rw [lines_dump generation legible, List.map_map]
  apply List.map_congr_left
  intro node member
  exact Text.depthOfLine_indent (legible.row node member) _

/-- Depths and rows, read line by line, are the rows of the forest of the tree's rows. -/
theorem ofRows_lines_dump (legible : tree.Legible source) :
    Forest.ofRows ((Text.lines (ofTree generation source tree).dump).map fun line =>
        (Text.depthOfLine line, Text.unindented line)) =
      tree.forest.map (Node.row source) := by
  have rows : (Text.lines (ofTree generation source tree).dump).map (fun line =>
        (Text.depthOfLine line, Text.unindented line)) =
      (tree.forest.map (Node.row source)).toRows 0 := by
    rw [lines_dump generation legible, Forest.toRows_map, ← tree.map_depth_nodes, List.map_map,
      List.map_map]
    apply List.map_congr_left
    intro node member
    have notBlank := legible.row node member
    simp only [Function.comp_apply, Text.depthOfLine_indent notBlank,
      Text.unindented_indent notBlank]
  rw [rows, Forest.ofRows_toRows]

end Snapshot

/-- The shape of a tree, whatever its nodes are. -/
def Tree.shape (tree : Tree) : Forest Unit :=
  tree.forest.map fun _ => ()

namespace Snapshot

/-- A dump has one line for every node, in pre-order, with two blanks for every ancestor
before the row. Read back by its indentation it gives the children of every node and the
tree of the rows, so trees with the same dump have the same shape. -/
theorem dump_shows_shape (generation : Generation) (source : String) (tree : Tree)
    (legible : tree.Legible source) :
    let snapshot := ofTree generation source tree
    let lines := Text.lines snapshot.dump
    lines.length = tree.size ∧
      (∀ node ∈ tree.nodes, lines[node.index]? = some (
        String.ofList (List.replicate (2 * (snapshot.lineage.ancestors node.index).length) ' ') ++
          node.row source)) ∧
      (∀ index, Depths.children (lines.map Text.depthOfLine) index =
        (tree.children index).map Node.index) ∧
      Forest.ofRows (lines.map fun line => (Text.depthOfLine line, Text.unindented line)) =
        tree.forest.map (Node.row source) ∧
      ∀ (otherGeneration : Generation) (otherSource : String) (other : Tree),
        other.Legible otherSource →
        (ofTree otherGeneration otherSource other).dump = snapshot.dump →
          other.shape = tree.shape := by
  intro snapshot lines
  have shown : lines = tree.nodes.map fun node =>
      indent ((Lineage.ofTree tree).depth node.index) ++ node.row source :=
    lines_dump generation legible
  constructor
  · rw [shown, List.length_map, tree.length_nodes]
  constructor
  · intro node member
    have found : tree.nodes[node.index]? = some node := Tree.mem_nodes_iff.mp member
    rw [shown, List.getElem?_map, found, Option.map_some, Lineage.depth_ofTree_eq_length]
    rfl
  constructor
  · intro index
    rw [map_depthOfLine_lines_dump generation legible, tree.children_depths]
  constructor
  · exact ofRows_lines_dump generation legible
  · intro otherGeneration otherSource other otherLegible same
    have read := ofRows_lines_dump otherGeneration otherLegible
    rw [same, ofRows_lines_dump generation legible] at read
    have shapes := congrArg (Forest.map fun _ => ()) read
    rw [Forest.map_map, Forest.map_map] at shapes
    exact shapes.symm

/-- Two trees with the same dump: what is a field in one is part of the kind in the other.
The trivia of their nodes holds a line feed and a quote. -/
theorem dump_shows_shape_ambiguous_row :
    let source := "a\n\"b"
    let whole (kind : String) : Label := ⟨{ kind := kind }, ⟨0, 0, 4, 0⟩⟩
    let name : Label := ⟨{ kind := "name" }, ⟨0, 0, 1, 1⟩⟩
    let token : Label := ⟨{ kind := "b", field := some "value", named := false }, ⟨2, 1, 1, 0⟩⟩
    let twin : Label := ⟨{ kind := "value: \"b\"" }, ⟨2, 1, 1, 0⟩⟩
    let stop : Label := ⟨{ kind := "end", missing := true }, ⟨4, 0, 0, 0⟩⟩
    let treeOf (last : Label) := Tree.ofLabels (whole "file")
      (.node (whole "pair") (.node name .nil (.node last .nil .nil)) (.node stop .nil .nil)) 4
    let lines := Text.lines (ofTree ⟨1⟩ source (treeOf token)).dump
    (treeOf token).Legible source ∧ (treeOf twin).Legible source ∧ lines.length = 5 ∧
      lines[2]? = some "    name 0..2 trailing=\"\\n\"" ∧
      lines[3]? = some "    value: \"b\" 2..4 leading=\"\\\"\"" ∧
      Depths.children (lines.map Text.depthOfLine) 0 = [1, 4] ∧
      (ofTree ⟨2⟩ source (treeOf twin)).dump = (ofTree ⟨1⟩ source (treeOf token)).dump ∧
      (treeOf twin).shape = (treeOf token).shape := by
  intro source whole name token twin stop treeOf lines
  have legible : (treeOf token).Legible source := ⟨by decide, by decide, by decide⟩
  have twinLegible : (treeOf twin).Legible source := ⟨by decide, by decide, by decide⟩
  have same : (ofTree ⟨2⟩ source (treeOf twin)).dump = (ofTree ⟨1⟩ source (treeOf token)).dump := by
    decide
  rcases dump_shows_shape ⟨1⟩ source (treeOf token) legible with ⟨count, shown, children, -, shapes⟩
  -- The ancestors are counted by the depth, since climbing does not unfold.
  have rowOf : ∀ node ∈ (treeOf token).nodes, (Lineage.ofTree (treeOf token)).depth node.index = 2 →
      lines[node.index]? = some (String.ofList (List.replicate 4 ' ') ++ node.row source) := by
    intro node member depth
    rw [Lineage.depth_ofTree_eq_length] at depth
    have line := shown node member
    change lines[node.index]? = some (String.ofList (List.replicate
      (2 * ((Lineage.ofTree (treeOf token)).ancestors node.index).length) ' ') ++ _) at line
    rwa [depth] at line
  refine ⟨legible, twinLegible, count, ?_, ?_, ?_, same, ?_⟩
  · exact (rowOf ⟨name, 2⟩ (by decide) (by decide)).trans (by decide)
  · exact (rowOf ⟨token, 3⟩ (by decide) (by decide)).trans (by decide)
  · exact (children 0).trans (by decide)
  · exact shapes ⟨2⟩ source (treeOf twin) twinLegible same

end Snapshot

end TreeLens
