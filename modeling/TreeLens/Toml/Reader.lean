import TreeLens.Toml.Lexeme
import TreeLens.Toml.Moment
import TreeLens.Toml.Number
import TreeLens.Toml.Table

/-!
# Reading settings files

A file is a sequence of lines: headers, keys with values, comments. The result
is the table of everything that was said, or nothing if the file breaks a rule
of the notation.
-/

namespace TreeLens.Toml

/-- A character that ends a value written without quotes or brackets. -/
def endsAtom (char : Char) : Bool :=
  isBlank char || char = '\n' || char = '\r' || char = ',' || char = '=' || char = '#'
    || char = '[' || char = ']' || char = '\x7b' || char = '\x7d'

/-- A character that begins a value written without quotes or brackets, or goes
on with one after a blank. -/
def beginsAtom (char : Char) : Bool :=
  !endsAtom char && char != '"' && char != '\''

/-- The characters of a value written without quotes or brackets, and what
follows them. Words with nothing but blanks between them are one value. -/
def atomChars : Rest → List Char × Rest
  | [] => ([], [])
  | char :: rest =>
    let goesOn := if isBlank char then (skipBlanks rest).head?.any beginsAtom else !endsAtom char
    if goesOn then
      let (more, after) := atomChars rest
      (char :: more, after)
    else ([], char :: rest)

/-- What characters stand for: a truth value, a number, a date or a time. -/
def atomValue? (chars : List Char) : Option Datum :=
  if chars = ['t', 'r', 'u', 'e'] then some (.boolean true)
  else if chars = ['f', 'a', 'l', 's', 'e'] then some (.boolean false)
  else if isNumber chars then some .number
  else (moment? chars).map fun moment => .moment moment.render

/-- Read a value written without quotes or brackets. -/
def atom? (rest : Rest) : Option (Datum × Rest) :=
  let (chars, after) := atomChars rest
  (atomValue? chars).map fun value => (value, after)

/-- A key has at most this many parts, and lists and tables in braces are
nested at most this deep. -/
def depthLimit : Nat := 80

/-- Split a key into the tables on its way and its last part. -/
def splitKey? (parts : List String) : Option (List String × String) :=
  if depthLimit < parts.length then none
  else parts.getLast?.map fun last => (parts.dropLast, last)

mutual

/-- Read a value inside `depth` lists and tables in braces. The first argument
bounds the nesting and the number of elements. -/
def value? : Nat → Nat → Rest → Option (Datum × Rest)
  | 0, _, _ => none
  | bound + 1, depth, rest =>
    match rest with
    | '"' :: _ => (string? rest).map fun (text, after) => (.string text, after)
    | '\'' :: _ => (string? rest).map fun (text, after) => (.string text, after)
    | '[' :: inside =>
      if depth < depthLimit then
        (items? bound (depth + 1) inside).map fun (items, after) => (.array false items, after)
      else none
    | '\x7b' :: inside =>
      if depth < depthLimit then
        (fields? bound (depth + 1) [] inside).map fun (entries, after) =>
          (.table .inline entries, after)
      else none
    | _ => atom? rest

/-- Read the elements of a list up to its closing bracket. -/
def items? : Nat → Nat → Rest → Option (List Datum × Rest)
  | 0, _, _ => none
  | bound + 1, depth, rest => do
    match ← skipGaps false rest with
    | ']' :: after => return ([], after)
    | inside =>
      let (item, after) ← value? bound depth inside
      match ← skipGaps false after with
      | ',' :: more =>
        let (items, last) ← items? bound depth more
        return (item :: items, last)
      | ']' :: last => return ([item], last)
      | _ => none

/-- Read the entries of a table in braces up to its closing brace, and add them
to those read before. Lines may end before and after the equals sign. -/
def fields? : Nat → Nat → Entries → Rest → Option (Entries × Rest)
  | 0, _, _, _ => none
  | bound + 1, depth, entries, rest => do
    match ← skipGaps false rest with
    | '\x7d' :: after => return (entries, after)
    | inside =>
      let (parts, afterKey) ← key? (inside.length + 1) inside
      let (path, key) ← splitKey? parts
      match ← skipGaps false afterKey with
      | '=' :: written =>
        let (value, after) ← value? bound depth (← skipGaps false written)
        let extended ← addValue path key value .inline entries
        match ← skipGaps false after with
        | ',' :: more => fields? bound depth extended more
        | '\x7d' :: last => return (extended, last)
        | _ => none
      | _ => none

end

/-- What has been read so far: all entries, and the header whose table the next
keys belong to. -/
structure Progress where
  entries : Entries := []
  header : List String := []

/-- Read a header from behind its opening bracket. -/
def headerLine? (progress : Progress) (rest : Rest) : Option (Progress × Rest) := do
  match rest with
  | '[' :: inside =>
    let (parts, after) ← key? (inside.length + 1) (skipBlanks inside)
    let (path, key) ← splitKey? parts
    match after with
    | ']' :: ']' :: last =>
      let entries ← openElement path key progress.entries
      return (⟨entries, parts⟩, ← endLine? last)
    | _ => none
  | inside =>
    let (parts, after) ← key? (inside.length + 1) (skipBlanks inside)
    let (path, key) ← splitKey? parts
    match after with
    | ']' :: last =>
      let entries ← openTable path key progress.entries
      return (⟨entries, parts⟩, ← endLine? last)
    | _ => none

/-- Read a key with its value. -/
def valueLine? (progress : Progress) (rest : Rest) : Option (Progress × Rest) := do
  let (parts, afterKey) ← key? (rest.length + 1) rest
  let (path, key) ← splitKey? parts
  match afterKey with
  | '=' :: written =>
    let (value, after) ← value? (written.length + 1) 0 (skipBlanks written)
    let entries ← addUnder progress.header path key value progress.entries
    return ({ progress with entries := entries }, ← endLine? after)
  | _ => none

/-- Read all lines. The first argument bounds their number. -/
def lines? : Nat → Progress → Rest → Option Entries
  | 0, _, _ => none
  | bound + 1, progress, rest => do
    match ← skipGaps false rest with
    | [] => return progress.entries
    | '[' :: inside =>
      let (next, last) ← headerLine? progress inside
      lines? bound next last
    | other =>
      let (next, last) ← valueLine? progress other
      lines? bound next last

/-- A byte order mark at the start of a file does not count. -/
def skipByteOrderMark : Rest → Rest
  | char :: rest => if char.toNat = 0xFEFF then rest else char :: rest
  | [] => []

/-- Read a whole file. -/
def read? (text : String) : Option Datum :=
  (lines? (text.length + 1) {} (skipByteOrderMark text.toList)).map (.table .header)

end TreeLens.Toml
