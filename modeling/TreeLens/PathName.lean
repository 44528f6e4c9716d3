/-!
# Path names

Paths are texts whose parts are divided by slashes. Empty parts and single dots
do not count as parts.
-/

namespace TreeLens.PathName

/-- The parts of a path, empty ones and single dots left out. -/
def parts (path : String) : List String :=
  (path.splitOn "/").filter fun part => part != "" && part != "."

/-- The name of the file a path leads to. A path that ends with a step upwards
names no file. -/
def fileName? (path : String) : Option String :=
  match (parts path).getLast? with
  | some name => if name = ".." then none else some name
  | none => none

/-- What follows the last dot of a file name, given in reverse. -/
def extensionOfReversed? (reversed : List Char) : Option String :=
  let extension := reversed.takeWhile (· ≠ '.')
  match reversed.dropWhile (· ≠ '.') with
  | _ :: _ :: _ => if extension.isEmpty then none else some (String.ofList extension.reverse)
  | _ => none

/-- The extension of a path: what follows the last dot of the file name. A dot
at the very start or end of the name makes no extension. -/
def extension? (path : String) : Option String :=
  (fileName? path).bind fun name => extensionOfReversed? name.toList.reverse

/-- Append a relative path, with a slash between the two unless there is one
already or nothing to divide. -/
def join (base path : String) : String :=
  if base.isEmpty || base.endsWith "/" then base ++ path else base ++ "/" ++ path

end TreeLens.PathName
