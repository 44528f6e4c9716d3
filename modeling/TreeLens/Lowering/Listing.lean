import TreeLens.Lowering.Outline
import TreeLens.Text.Decimal

/-!
# Outline listings

The plain form in which a parser hands over its answer: a line for every node
in pre-order, with its depth, start, stop, flags, field and kind, divided by
tabs. The flags are letters: `a` for a literal token, `e` for an error, `m` for
a missing node. A node without a field leaves that column empty.
-/

namespace TreeLens.Outline

/-- Read one line of a listing. -/
def readLine? (line : String) : Option (Nat × Parsed) :=
  match line.splitOn "\t" with
  | depthText :: startText :: stopText :: flags :: field :: kind => do
    let number? := fun text : String => (Text.readUnsigned 0xFFFFFFFFFFFFFFFF text.toList).toOption
    let depth ← number? depthText
    let start ← number? startText
    let stop ← number? stopText
    let tag : Tag :=
      { kind := String.intercalate "\t" kind
        field := if field.isEmpty then none else some field
        named := !flags.toList.contains 'a'
        error := flags.toList.contains 'e'
        missing := flags.toList.contains 'm' }
    return (depth, ⟨tag, ⟨start, stop⟩⟩)
  | _ => none

/-- Read a whole listing. Empty lines do not count. -/
def ofListing? (listing : String) : Option Outline := do
  let lines := (listing.splitOn "\n").filter (· ≠ "")
  ofRows? (← lines.mapM readLine?)

end TreeLens.Outline
