import TreeLens.Language.Registry
import TreeLens.PathName

/-!
# File types

The language of a file is found by the extension of its name. Extensions are
given to the table without their leading dots.
-/

namespace TreeLens

/-- Languages by file extension. A later entry hides earlier ones. -/
structure Filetypes where
  /-- Extensions and languages, the latest first. -/
  entries : List (String × String)
deriving DecidableEq, Repr

namespace Filetypes

/-- The mapping that is always there. -/
def builtin : Filetypes :=
  ⟨[("rs", Registry.builtinLanguage)]⟩

/-- Map an extension to a language. -/
def add (extension language : String) (filetypes : Filetypes) : Filetypes :=
  ⟨(extension, language) :: filetypes.entries⟩

/-- A text without its leading dots. -/
def stripDots (extension : String) : String :=
  String.ofList (extension.toList.dropWhile (· = '.'))

/-- The built-in mapping, extended and overridden in order. -/
def withMappings (mappings : List (String × String)) : Filetypes :=
  mappings.foldl (fun filetypes (extension, language) =>
    filetypes.add (stripDots extension) language) builtin

/-- The language of an extension. -/
def language? (filetypes : Filetypes) (extension : String) : Option String :=
  filetypes.entries.lookup extension

/-- The language of a file. -/
def languageOf? (filetypes : Filetypes) (path : String) : Option String :=
  (PathName.extension? path).bind filetypes.language?

end Filetypes

end TreeLens
