/-!
# Report format

Reports are written as JSON on several lines, with two blanks for every level
of nesting. Fields keep the order in which they are given.
-/

namespace TreeLens

/-- A value of a report. -/
inductive Json where
  | null
  | boolean (value : Bool)
  | number (value : Nat)
  | string (value : String)
  | array (items : List Json)
  | object (fields : List (String × Json))

namespace Json

/-- How one character of a text is written. -/
def escapeChar (char : Char) : List Char :=
  if char = '"' then ['\\', '"']
  else if char = '\\' then ['\\', '\\']
  else if char = '\n' then ['\\', 'n']
  else if char = '\r' then ['\\', 'r']
  else if char = '\t' then ['\\', 't']
  else if char.toNat = 0x08 then ['\\', 'b']
  else if char.toNat = 0x0C then ['\\', 'f']
  else if char.toNat < 0x10 then ['\\', 'u', '0', '0', '0'] ++ Nat.toDigits 16 char.toNat
  else if char.toNat < 0x20 then ['\\', 'u', '0', '0'] ++ Nat.toDigits 16 char.toNat
  else [char]

/-- A text in quotes. -/
def quote (text : String) : String :=
  String.ofList ('"' :: (text.toList.flatMap escapeChar ++ ['"']))

/-- A line break and the indentation of the next line. -/
def lineBreak (level : Nat) : String :=
  String.ofList ('\n' :: List.replicate (2 * level) ' ')

mutual

/-- A value as text, where lines inside it are indented below `level`. -/
def pretty (level : Nat) : Json → String
  | null => "null"
  | boolean value => if value then "true" else "false"
  | number value => toString value
  | string value => quote value
  | array [] => "[]"
  | array (item :: items) =>
    "[" ++ lineBreak (level + 1) ++ pretty (level + 1) item ++ prettyItems (level + 1) items
      ++ lineBreak level ++ "]"
  | object [] => "\x7b\x7d"
  | object ((name, value) :: fields) =>
    "\x7b" ++ lineBreak (level + 1) ++ quote name ++ ": " ++ pretty (level + 1) value
      ++ prettyFields (level + 1) fields ++ lineBreak level ++ "\x7d"

/-- The items of a list after the first. -/
def prettyItems (level : Nat) : List Json → String
  | [] => ""
  | item :: items => "," ++ lineBreak level ++ pretty level item ++ prettyItems level items

/-- The fields of an object after the first. -/
def prettyFields (level : Nat) : List (String × Json) → String
  | [] => ""
  | (name, value) :: fields =>
    "," ++ lineBreak level ++ quote name ++ ": " ++ pretty level value
      ++ prettyFields level fields

end

/-- A whole report. -/
def render (value : Json) : String :=
  pretty 0 value

end Json

end TreeLens
