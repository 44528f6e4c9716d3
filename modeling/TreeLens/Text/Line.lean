import TreeLens.Text.Index

/-!
# Lines and columns

Lines end at line feeds and nothing else. The column of an offset is its
distance in bytes from the start of its line. Both are counted from one.
-/

namespace TreeLens.Text

/-- A place in a text as readers count it. -/
structure Place where
  line : Nat
  column : Nat
deriving DecidableEq, Repr, Inhabited

namespace Place

/-- The first place of every text. -/
def origin : Place := ⟨1, 1⟩

/-- The place after a character. -/
def advance (place : Place) (char : Char) : Place :=
  if char = '\n' then ⟨place.line + 1, 1⟩ else ⟨place.line, place.column + char.utf8Size⟩

end Place

/-- The lines of a text, kept beside a parse of it. -/
structure LineIndex where
  text : String
deriving DecidableEq, Repr, Inhabited

/-- The place of a byte offset. An offset inside a character or past the end
has none. -/
def LineIndex.place? (lines : LineIndex) (offset : Nat) : Option Place :=
  (splitAt? offset lines.text.toList).map fun (before, _) =>
    before.foldl Place.advance Place.origin

end TreeLens.Text
