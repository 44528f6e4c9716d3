import TreeLens.Fault
import TreeLens.Lowering.Outline

/-!
# The language registry

Languages are registered under an identifier. A grammar is known by what it
does: it answers the outline of a text, or nothing at all. Registering an
identifier again replaces what was there.
-/

namespace TreeLens

/-- What a grammar does with a text. -/
structure Grammar where
  parse? : String → Option Outline

/-- The registered languages. -/
structure Registry where
  languages : List (String × Grammar)

namespace Registry

/-- The identifier of the language that is always at hand. -/
def builtinLanguage : String := "rust"

/-- No language is registered. -/
def empty : Registry := ⟨[]⟩

/-- Register a language in place of an earlier one of the same name. -/
def register (id : String) (grammar : Grammar) (registry : Registry) : Registry :=
  ⟨(id, grammar) :: registry.languages.filter fun entry => entry.1 != id⟩

/-- The registry that holds the built-in language alone. -/
def builtin (grammar : Grammar) : Registry :=
  empty.register builtinLanguage grammar

/-- The grammar registered under an identifier. -/
def get? (registry : Registry) (id : String) : Option Grammar :=
  registry.languages.lookup id

/-- Whether an identifier is registered. -/
def contains (registry : Registry) (id : String) : Bool :=
  (registry.get? id).isSome

/-- The grammar registered under an identifier, or a fault. -/
def require (registry : Registry) (id : String) : Except Fault Grammar :=
  match registry.get? id with
  | some grammar => .ok grammar
  | none => .error (.languageNotFound id)

/-- All identifiers in alphabetical order. -/
def ids (registry : Registry) : List String :=
  (registry.languages.map Prod.fst).mergeSort fun first second => !decide (second < first)

end Registry

end TreeLens
