import TreeLens.Snapshot
import TreeLens.Text.Index
import TreeLens.Text.Quoted

/-!
# Rows and dumps

A row shows a node on one line: its field, its caption, its bytes, and the
trivia around it. A dump shows every node of a snapshot on a row of its own,
indented by two blanks for every ancestor.
-/

namespace TreeLens

namespace Node

/-- Trivia on a row, under a heading. Nothing is shown for empty trivia. -/
def triviaNote (heading text : String) : String :=
  if text.isEmpty then "" else " " ++ heading ++ "=" ++ Text.quote text

/-- The row of a node, with its trivia taken from the given source. -/
def row (source : String) (node : Node) : String :=
  (match node.field with
    | some field => field ++ ": "
    | none => "")
  ++ node.caption ++ " " ++ node.full.render
  ++ triviaNote "leading" (Text.slice source node.extent.leadingSpan)
  ++ triviaNote "trailing" (Text.slice source node.extent.trailingSpan)
  ++ (if node.error then " (error)" else "")
  ++ (if node.missing then " (missing)" else "")

end Node

namespace Snapshot

/-- Indentation of a node with the given number of ancestors. -/
def indent (depth : Nat) : String :=
  String.ofList (List.replicate (2 * depth) ' ')

/-- The lines of a dump in pre-order. -/
def dumpLines (snapshot : Snapshot) : List String :=
  snapshot.tree.nodes.map fun node =>
    indent (snapshot.lineage.depth node.index) ++ node.row snapshot.source

/-- The dump of a snapshot. -/
def dump (snapshot : Snapshot) : String :=
  String.intercalate "\n" snapshot.dumpLines

end Snapshot

end TreeLens
