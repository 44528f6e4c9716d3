/-!
# Data

The values a settings file or a settings object is made of. Numbers are told
apart from the rest and not from each other, since no setting takes one. Tables
remember how they came about, because that decides whether a later part of the
same file may add to them.
-/

namespace TreeLens

/-- How a table came about. -/
inductive Origin where
  /-- Written out in braces, and complete. -/
  | inline
  /-- Opened by a header of its own. -/
  | header
  /-- Named on the way to the table of a longer header. -/
  | implied
  /-- Named on the way to the last part of a dotted key. -/
  | dotted
deriving DecidableEq, Repr

/-- A value in a settings file. -/
inductive Datum where
  | null
  | boolean (value : Bool)
  | string (value : String)
  | number
  /-- A date, a time or both, in the usual form. -/
  | moment (text : String)
  /-- A list; `headed` marks one that grows by a header for every element. -/
  | array (headed : Bool) (items : List Datum)
  | table (origin : Origin) (entries : List (String × Datum))
deriving Inhabited, Repr

end TreeLens
