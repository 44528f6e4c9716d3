import TreeLens.Snapshot
import TreeLens.Text.Line

/-!
# Details of a node

Everything a detail pane shows about one node.
-/

namespace TreeLens

/-- The detail record of a node. -/
structure Details where
  tag : Tag
  index : Nat
  /-- First byte, trivia included. -/
  position : Nat
  /-- Length without trivia. -/
  length : Nat
  /-- Length with trivia. -/
  totalLength : Nat
  content : Span
  /-- Where the content starts. -/
  place : Text.Place
  leading : String
  trailing : String
deriving DecidableEq, Repr

namespace Details

/-- Offsets are looked up in a line table whose positions are 32 bits wide. -/
def positionLimit : Nat := 0x100000000

/-- The details of a node, with its texts taken from the given source. There
are none when the start of the content, reduced to a position, is not a
character boundary of the text whose lines are given. -/
def of? (source : String) (lines : Text.LineIndex) (node : Node) : Option Details := do
  let place ← lines.place? (node.content.start % positionLimit)
  return {
    tag := node.toTag
    index := node.index
    position := node.start
    length := node.content.length
    totalLength := node.extent.length
    content := node.content
    place := place
    leading := Text.slice source node.extent.leadingSpan
    trailing := Text.slice source node.extent.trailingSpan }

end Details

end TreeLens
