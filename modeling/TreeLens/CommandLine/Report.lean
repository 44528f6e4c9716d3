import TreeLens.Details
import TreeLens.Json

/-!
# Reports

The records that commands write as JSON.
-/

namespace TreeLens

/-- A span as a report shows it. -/
def Span.toJson (span : Span) : Json :=
  .object [("start", .number span.start), ("end", .number span.stop)]

namespace Details

/-- The fields of a detail record, in order. -/
def fields (details : Details) : List (String × Json) :=
  [("index", .number details.index),
    ("kind", .string details.tag.kind),
    ("named", .boolean details.tag.named),
    ("field", match details.tag.field with
      | some field => .string field
      | none => .null),
    ("position", .number details.position),
    ("length", .number details.length),
    ("total_length", .number details.totalLength),
    ("content_range", details.content.toJson),
    ("line", .number details.place.line),
    ("column", .number details.place.column),
    ("leading_trivia", .string details.leading),
    ("trailing_trivia", .string details.trailing),
    ("error", .boolean details.tag.error),
    ("missing", .boolean details.tag.missing)]

/-- A detail record as a report shows it. -/
def toJson (details : Details) : Json :=
  .object details.fields

end Details

namespace CommandLine

/-- One row of a tree report. -/
def treeRow (depth : Nat) (details : Details) : Json :=
  .object (("depth", .number depth) :: details.fields)

/-- A path of captions. -/
def pathJson (path : List String) : Json :=
  .array (path.map .string)

/-- The report of a located node. -/
def locateReport (details : Details) (path : List String) : Json :=
  .object [("node", details.toJson), ("path", pathJson path)]

/-- The report of a selection. -/
def selectReport (ranges : List Span) (details : Option Details) (path : List String) : Json :=
  .object [("text", .array (ranges.map Span.toJson)),
    ("node", match details with
      | some found => found.toJson
      | none => .null),
    ("path", pathJson path)]

end CommandLine

end TreeLens
