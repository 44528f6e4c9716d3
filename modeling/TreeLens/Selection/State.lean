import TreeLens.Identity
import TreeLens.Selection.Ranges

/-!
# Selection state

The text view and the tree view each have a selection. The state holds both,
and whether a change of one is just being passed on to the other.
-/

namespace TreeLens

/-- How a selection of several spans picks its node. -/
inductive MultiRange where
  /-- By its first span alone. -/
  | first
  /-- By the deepest node that covers all spans. -/
  | enclosing
deriving DecidableEq, Repr

namespace MultiRange

instance : Inhabited MultiRange where
  default := .first

/-- The name of the choice in settings and reports. -/
def name : MultiRange → String
  | first => "first"
  | enclosing => "enclosing"

/-- The choice of the given name. -/
def ofName? (text : String) : Option MultiRange :=
  if text = "first" then some first
  else if text = "enclosing" then some enclosing
  else none

theorem ofName?_name (choice : MultiRange) : ofName? choice.name = some choice := by
  cases choice <;> decide

end MultiRange

/-- How selections are mapped between the views. -/
structure Policy where
  multiRange : MultiRange := .first
  /-- Whether a selected node shows with its trivia. -/
  includeTrivia : Bool := false
deriving DecidableEq, Repr, Inhabited

/-- Whether a notification is under way. -/
inductive Phase where
  | idle
  | propagating
deriving DecidableEq, Repr, Inhabited

/-- A change of selection, reported by a view or passed on to one. -/
inductive Event where
  | text (selection : TextSelection)
  | tree (selection : Option NodeId)
deriving DecidableEq, Repr

/-- Both selections and the phase. -/
@[ext]
structure SelectionState where
  phase : Phase := .idle
  text : TextSelection := .empty
  tree : Option NodeId := none
deriving DecidableEq, Repr, Inhabited

end TreeLens
