import TreeLens.Identity
import TreeLens.Tree.Defect

/-!
# Faults

Every way in which an operation can fail, with the text shown for it. Lookups
that may find nothing are not faults; they answer with an option.
-/

namespace TreeLens

/-- Why a file could not be read. -/
inductive ReadFault where
  | notFound
  | notDirectory
  | isDirectory
  | nameTooLong
  /-- The path holds a NUL character, which no path may. -/
  | nulInPath
  /-- The file was to be read as text and is not UTF-8. -/
  | notText
deriving DecidableEq, Repr

/-- The read fault in words. -/
def ReadFault.describe : ReadFault → String
  | notFound => "No such file or directory (os error 2)"
  | notDirectory => "Not a directory (os error 20)"
  | isDirectory => "Is a directory (os error 21)"
  | nameTooLong => "File name too long (os error 36)"
  | nulInPath => "file name contained an unexpected NUL byte"
  | notText => "stream did not contain valid UTF-8"

/-- Why an operation failed. -/
inductive Fault where
  /-- No such language is registered. -/
  | languageNotFound (language : String)
  /-- The parser gave no tree at all. -/
  | parse (language detail : String)
  /-- A source file is not UTF-8. -/
  | corruptFile (path : String)
  /-- A settings file does not hold settings. -/
  | config (detail : String)
  /-- A parse was started for a text that has changed since. -/
  | staleParse (parsed current : Nat)
  /-- A node was named that belongs to another parse. -/
  | staleNode (node current : Generation)
  /-- A tree is malformed. -/
  | malformedTree (detail : String)
  /-- A file could not be read. -/
  | io (cause : ReadFault)
  /-- Something that should not happen. -/
  | internal (detail : String)
deriving DecidableEq, Repr

namespace Fault

/-- The fault of a defective tree. -/
def ofDefect (defect : Defect) : Fault :=
  .malformedTree defect.describe

/-- The text shown for a fault. -/
def message : Fault → String
  | languageNotFound language => "Language not found: " ++ language
  | parse language detail => "Parse failed for language " ++ language ++ ": " ++ detail
  | corruptFile path => "Corrupt file (not valid UTF-8): " ++ path
  | config detail => "Invalid configuration: " ++ detail
  | staleParse parsed current =>
    "Stale parse for revision " ++ toString parsed ++ ", current revision is " ++ toString current
  | staleNode node current =>
    "Node id belongs to generation " ++ node.render ++ ", current generation is " ++ current.render
  | malformedTree detail => "Malformed syntax tree: " ++ detail
  | io cause => "IO error: " ++ cause.describe
  | internal detail => "Internal error: " ++ detail

end Fault

end TreeLens
