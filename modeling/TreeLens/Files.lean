import TreeLens.Fault

/-!
# Files

A file system answers what a path leads to. One such system is a tree of files
below a working directory; outside that directory there are directories, and no
files.
-/

namespace TreeLens

/-- What stands in a directory under a name. -/
inductive FileEntry where
  | file (bytes : ByteArray)
  | directory

/-- What every path leads to. -/
structure FileSystem where
  resolve : String → Except ReadFault FileEntry

namespace FileSystem

/-- The bytes of the file at a path. -/
def read (system : FileSystem) (path : String) : Except ReadFault ByteArray := do
  match ← system.resolve path with
  | .file bytes => return bytes
  | .directory => throw .isDirectory

/-- The text of the file at a path. -/
def readText (system : FileSystem) (path : String) : Except ReadFault String := do
  match String.fromUTF8? (← system.read path) with
  | some text => return text
  | none => throw .notText

/-- Whether a path leads to a file. -/
def isFile (system : FileSystem) (path : String) : Bool :=
  match system.resolve path with
  | .ok (.file _) => true
  | _ => false

end FileSystem

/-- The files below the working directory. -/
structure Files where
  /-- What was put at which path. Directories on the way are there as well. -/
  entries : List (List String × FileEntry)

/-- Where a path has led so far. -/
inductive Location where
  /-- The directory or file that the given names lead to. -/
  | inside (names : List String)
  /-- A directory outside the working directory. -/
  | outside
deriving DecidableEq, Repr

namespace Files

/-- No files. -/
def empty : Files := ⟨[]⟩

/-- The names in a path, empty ones left out. -/
def names (path : String) : List String :=
  (path.splitOn "/").filter (· ≠ "")

/-- Put a file at a path. A path that ends in a slash is a directory. -/
def put (path : String) (bytes : ByteArray) (files : Files) : Files :=
  let place := (names path).filter (· ≠ ".")
  ⟨(place, if path.endsWith "/" then .directory else .file bytes) :: files.entries⟩

/-- What names lead to. -/
def entry? (files : Files) (names : List String) : Option FileEntry :=
  match files.entries.find? fun entry => entry.1 == names with
  | some entry => some entry.2
  | none =>
    if names.isEmpty || files.entries.any fun entry => names.isPrefixOf entry.1 then
      some .directory
    else none

/-- Go on from a location by one name. -/
def follow (files : Files) (location : Location) (name : String) : Except ReadFault Location :=
  match location with
  | .outside =>
    if name = "." ∨ name = ".." then .ok .outside
    else if 255 < name.utf8ByteSize then .error .nameTooLong
    else .error .notFound
  | .inside names =>
    match files.entry? names with
    | some .directory =>
      if name = "." then .ok location
      else if name = ".." then
        if names.isEmpty then .ok .outside else .ok (.inside names.dropLast)
      else if 255 < name.utf8ByteSize then .error .nameTooLong
      else if (files.entry? (names ++ [name])).isSome then .ok (.inside (names ++ [name]))
      else .error .notFound
    | some (.file _) => .error .notDirectory
    | none => .error .notFound

/-- What a path leads to. A path that ends in a slash has to lead to a
directory. -/
def resolve (files : Files) (path : String) : Except ReadFault FileEntry := do
  if path.toList.contains '\x00' then throw .nulInPath
  if path.isEmpty then throw .notFound
  if 4095 < path.utf8ByteSize then throw .nameTooLong
  let begin := if path.startsWith "/" then Location.outside else .inside []
  match ← (names path).foldlM files.follow begin with
  | .outside => return .directory
  | .inside place =>
    match files.entry? place with
    | none => throw .notFound
    | some (.file bytes) => if path.endsWith "/" then throw .notDirectory else return .file bytes
    | some .directory => return .directory

/-- The file system of these files. -/
def system (files : Files) : FileSystem :=
  ⟨files.resolve⟩

end Files

end TreeLens
