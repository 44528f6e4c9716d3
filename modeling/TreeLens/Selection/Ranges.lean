import TreeLens.Span

/-!
# Text selections

A text selection is a list of native spans. Selections reported by a view are
normalised: spans that run backwards are flipped, all are put in order, and
spans that share a unit are joined, while spans that only touch stay apart. A
selection derived from a node is one span and is stored as it is.
-/

namespace TreeLens

/-- The spans selected in a text view. -/
@[ext]
structure TextSelection where
  ranges : List Span
deriving DecidableEq, Repr, Inhabited

namespace TextSelection

/-- Join `last` with the spans after it that repeat it or begin before it ends.
The spans are expected in order. -/
def joinFrom (last : Span) : List Span → List Span
  | [] => [last]
  | next :: rest =>
    if last = next ∨ next.start < last.stop then
      joinFrom ⟨last.start, max last.stop next.stop⟩ rest
    else
      last :: joinFrom next rest

/-- Join neighbouring spans of an ordered list. -/
def join : List Span → List Span
  | [] => []
  | first :: rest => joinFrom first rest

/-- The normalised selection of the given spans. -/
def ofSpans (spans : List Span) : TextSelection where
  ranges := join ((spans.map Span.flip).mergeSort Span.precedes)

/-- Nothing is selected. -/
def empty : TextSelection where
  ranges := []

/-- Exactly one span, as given. -/
def single (span : Span) : TextSelection where
  ranges := [span]

/-- A zero-width selection. -/
def caret (offset : Nat) : TextSelection :=
  single (Span.point offset)

/-- The first selected span. -/
def first? (selection : TextSelection) : Option Span :=
  selection.ranges.head?

/-- Whether nothing at all is selected. A caret is not nothing. -/
def isEmpty (selection : TextSelection) : Bool :=
  selection.ranges.isEmpty

/-- Cut every span down to a text of `limit` units and normalise again. -/
def clamp (limit : Nat) (selection : TextSelection) : TextSelection :=
  ofSpans (selection.ranges.map (Span.cut limit))

/-- The span from the smallest start to the largest stop. -/
def hull? (selection : TextSelection) : Option Span := do
  let start ← (selection.ranges.map Span.start).min?
  let stop ← (selection.ranges.map Span.stop).max?
  return ⟨start, max start stop⟩

end TextSelection

end TreeLens
