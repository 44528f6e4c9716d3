import TreeLens.Text.Index

/-!
# Tiling a parent with its children

A parser leaves the blanks between neighbouring children to nobody. Tiling
hands every such gap out, so that the children of a node cover it without
overlap: the part of a gap before its first line break goes to the child on the
left, the rest to the child on the right, and whatever lies before the first or
after the last child goes to that child.
-/

namespace TreeLens.Tiling

/-- The number nearest to `value` between `low` and `high`. There is none when
the bounds are the wrong way round. -/
def clamp? (low high value : Nat) : Option Nat :=
  if low ≤ high then some (max low (min value high)) else none

/-- Position of the first line feed. A carriage return directly before it
belongs to the same line break. -/
def lineBreak? : List UInt8 → Option Nat
  | [] => none
  | byte :: rest =>
    if byte = 10 then
      some 0
    else if byte = 13 ∧ rest.head? = some 10 then
      some 0
    else
      (lineBreak? rest).map (· + 1)

/-- Where the gap between two children is divided: at its first line break, or
at its end if it has none or does not lie in the source. -/
def divide (source : String) (gap : Span) : Nat :=
  if gap.start ≤ gap.stop ∧ gap.stop ≤ source.utf8ByteSize then
    match lineBreak? (((Text.bytes source).drop gap.start).take gap.length) with
    | some position => gap.start + position
    | none => gap.stop
  else
    gap.stop

/-- Where a child that begins at `start` ends, given its own content, the
content of the child after it and the end of the parent. -/
def boundary? (source : String) (start parentStop : Nat) (content next : Span) : Option Nat := do
  let gapStart ← clamp? start parentStop content.stop
  let gapStop ← clamp? gapStart parentStop next.start
  return divide source ⟨gapStart, gapStop⟩

/-- The full spans of children with the given contents, the first of which
begins at `start`. -/
def tileFrom (source : String) (parentStop : Nat) : Nat → List Span → Option (List Span)
  | _, [] => some []
  | start, [_] => some [⟨start, parentStop⟩]
  | start, content :: next :: rest => do
    let stop ← boundary? source start parentStop content next
    let later ← tileFrom source parentStop stop (next :: rest)
    return ⟨start, stop⟩ :: later

/-- The full spans of all children of a parent. -/
def tile (source : String) (parent : Span) (contents : List Span) : Option (List Span) :=
  tileFrom source parent.stop parent.start contents

end TreeLens.Tiling
