import TreeLens.Span

/-!
# Extents

The extent of a node is cut into three consecutive parts: leading trivia, the
content, and trailing trivia. An extent stores where it starts and how long
each part is, so every extent is in order by construction.
-/

namespace TreeLens

/-- Where a node lies in the source, in bytes. -/
@[ext]
structure Extent where
  start : Nat
  leading : Nat
  body : Nat
  trailing : Nat
deriving DecidableEq, Repr, Inhabited

namespace Extent

/-- Length of all three parts. -/
def length (extent : Extent) : Nat :=
  extent.leading + extent.body + extent.trailing

/-- First offset after the extent. -/
def stop (extent : Extent) : Nat :=
  extent.start + extent.length

/-- The whole extent, trivia included. -/
def full (extent : Extent) : Span :=
  ⟨extent.start, extent.stop⟩

/-- The part without trivia. -/
def content (extent : Extent) : Span :=
  ⟨extent.start + extent.leading, extent.start + extent.leading + extent.body⟩

/-- The span of the leading trivia. -/
def leadingSpan (extent : Extent) : Span :=
  ⟨extent.start, extent.content.start⟩

/-- The span of the trailing trivia. -/
def trailingSpan (extent : Extent) : Span :=
  ⟨extent.content.stop, extent.stop⟩

/-- The extent that fills `full`, with as much of `content` as lies in it. A
full span that runs backwards is taken to be empty at its start, and content
that runs backwards is taken to be empty at its own start. -/
def ofSpans (full content : Span) : Extent :=
  let stop := max full.start full.stop
  let contentStart := max full.start (min content.start stop)
  let contentStop := max contentStart (min content.stop stop)
  { start := full.start
    leading := contentStart - full.start
    body := contentStop - contentStart
    trailing := stop - contentStop }

/-- An extent made from spans fills the full one, once that is not reversed. -/
theorem full_ofSpans (full content : Span) :
    (ofSpans full content).full = ⟨full.start, max full.start full.stop⟩ := by
  simp only [Extent.full, stop, length, ofSpans, Span.mk.injEq, true_and]
  omega

/-- The content of an extent made from spans is the given one, each bound moved
into the full span and the stop not before the start. -/
theorem content_ofSpans (full content : Span) :
    (ofSpans full content).content =
      ⟨max full.start (min content.start (max full.start full.stop)),
        max (max full.start (min content.start (max full.start full.stop)))
          (min content.stop (max full.start full.stop))⟩ := by
  simp only [Extent.content, ofSpans, Span.mk.injEq]
  omega

/-- An extent is determined by its full span and its content. -/
theorem ofSpans_full_content (extent : Extent) :
    ofSpans extent.full extent.content = extent := by
  ext <;> simp only [ofSpans, Extent.full, Extent.content, stop, length] <;> omega

end Extent

end TreeLens
