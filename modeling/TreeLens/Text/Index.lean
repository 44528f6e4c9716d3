import TreeLens.Span
import TreeLens.Text.Encoding

/-!
# Byte offsets and native indices

Trees are addressed in UTF-8 bytes, text views in units of some encoding. The
two index spaces meet at character boundaries only: an index that falls inside
a character or past the end of the text has no counterpart.

Texts are walked as lists of characters. A native index is found by counting
units down to zero; a byte offset is converted by adding up the units of the
characters before it.
-/

namespace TreeLens.Text

/-- The UTF-8 bytes of a text. -/
def bytes (text : String) : List UInt8 :=
  text.toList.flatMap String.utf8EncodeChar

/-- The characters before byte `offset` and those from it on. There is no such
division when the offset is inside a character or past the end. -/
def splitAt? : Nat → List Char → Option (List Char × List Char)
  | 0, chars => some ([], chars)
  | _ + 1, [] => none
  | offset + 1, char :: chars =>
    if char.utf8Size ≤ offset + 1 then
      (splitAt? (offset + 1 - char.utf8Size) chars).map fun (before, after) =>
        (char :: before, after)
    else
      none

/-- Whether a byte offset is a character boundary of the text. -/
def isBoundary (text : String) (offset : Nat) : Bool :=
  (splitAt? offset text.toList).isSome

/-- Byte offset reached after `native` units, counted from the first character. -/
def byteAfter (encoding : Encoding) : Nat → List Char → Option Nat
  | 0, _ => some 0
  | _ + 1, [] => none
  | native + 1, char :: chars =>
    if encoding.unitLength char ≤ native + 1 then
      (byteAfter encoding (native + 1 - encoding.unitLength char) chars).map
        (char.utf8Size + ·)
    else
      none

/-- The byte offset of a native index. UTF-8 indices are byte offsets already
and only need to be boundaries. -/
def toByte (encoding : Encoding) (text : String) (native : Nat) : Option Nat :=
  match encoding with
  | .utf8 => if isBoundary text native then some native else none
  | _ => byteAfter encoding native text.toList

/-- The native index of a byte offset: the units of all characters before it. -/
def toNative (encoding : Encoding) (text : String) (offset : Nat) : Option Nat :=
  match encoding with
  | .utf8 => if isBoundary text offset then some offset else none
  | _ => (splitAt? offset text.toList).map fun (before, _) => encoding.runLength before

/-- Convert both bounds of a native span to bytes. -/
def spanToBytes (encoding : Encoding) (text : String) (span : Span) : Option Span := do
  let start ← toByte encoding text span.start
  let stop ← toByte encoding text span.stop
  return ⟨start, stop⟩

/-- Convert both bounds of a byte span to native indices. -/
def spanToNative (encoding : Encoding) (text : String) (span : Span) : Option Span := do
  let start ← toNative encoding text span.start
  let stop ← toNative encoding text span.stop
  return ⟨start, stop⟩

/-- The part of the text in a byte span. There is none when the span runs
backwards or a bound is not a character boundary of the text. -/
def slice? (text : String) (span : Span) : Option String := do
  if span.start ≤ span.stop then
    let (_, rest) ← splitAt? span.start text.toList
    let (inside, _) ← splitAt? (span.stop - span.start) rest
    return String.ofList inside
  else
    none

/-- The part of the text in a byte span, empty when there is none. -/
def slice (text : String) (span : Span) : String :=
  (slice? text span).getD ""

end TreeLens.Text
