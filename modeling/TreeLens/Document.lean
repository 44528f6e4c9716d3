/-!
# Documents

A document is a text with a count of how often it was changed.
-/

namespace TreeLens

/-- Number of changes a text has seen. -/
structure Revision where
  number : Nat
deriving DecidableEq, Repr, Inhabited

/-- The revision in words. -/
def Revision.render (revision : Revision) : String :=
  "r" ++ toString revision.number

/-- The revision after one more change. -/
def Revision.next (revision : Revision) : Revision :=
  ⟨revision.number + 1⟩

/-- A text that is being edited. -/
structure Document where
  /-- The file it came from, if any. -/
  path : Option String := none
  text : String
  revision : Revision := ⟨0⟩
deriving DecidableEq, Repr

namespace Document

/-- Replace the text. That is a change even if the new text equals the old. -/
def update (text : String) (document : Document) : Document :=
  { document with text := text, revision := document.revision.next }

/-- Length of the text in bytes. -/
def length (document : Document) : Nat :=
  document.text.utf8ByteSize

/-- Whether there is no text. -/
def isEmpty (document : Document) : Bool :=
  document.text.isEmpty

end Document

end TreeLens
