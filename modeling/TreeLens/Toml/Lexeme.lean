/-!
# Lexemes of settings files

Blanks, comments, strings and keys of the TOML notation. Each reader takes the
characters that are left and answers with what it read and what is left then,
or with nothing if the notation is broken.
-/

namespace TreeLens.Toml

/-- The characters that are left. -/
abbrev Rest := List Char

/-- A space or a tab. -/
def isBlank (char : Char) : Bool :=
  char = ' ' || char = '\t'

/-- A control character other than the tab. These may not stand in a file at
all, except for line breaks. -/
def isControl (char : Char) : Bool :=
  (char.toNat < 0x20 && char != '\t') || char.toNat = 0x7F

/-- Skip spaces and tabs. -/
def skipBlanks (rest : Rest) : Rest :=
  rest.dropWhile isBlank

/-- Read a line break: a line feed, with or without a carriage return before it. -/
def newline? : Rest → Option Rest
  | '\n' :: rest => some rest
  | '\r' :: '\n' :: rest => some rest
  | _ => none

/-- Skip to the end of the line. Control characters are refused. -/
def skipComment : Rest → Option Rest
  | [] => some []
  | '\n' :: rest => some ('\n' :: rest)
  | '\r' :: '\n' :: rest => some ('\r' :: '\n' :: rest)
  | char :: rest => if isControl char then none else skipComment rest

/-- Skip blanks, comments and line breaks. The flag says whether a comment is
being skipped. -/
def skipGaps (comment : Bool) : Rest → Option Rest
  | [] => some []
  | '\n' :: rest => skipGaps false rest
  | '\r' :: '\n' :: rest => skipGaps false rest
  | char :: rest =>
    if comment then
      if isControl char then none else skipGaps true rest
    else if isBlank char then
      skipGaps false rest
    else if char = '#' then
      skipGaps true rest
    else
      some (char :: rest)

/-- Read what may follow at the end of a line: blanks, a comment, and then a
line break or the end of the file. -/
def endLine? (rest : Rest) : Option Rest :=
  let after := match skipBlanks rest with
    | '#' :: comment => skipComment comment
    | other => some other
  match after with
  | none => none
  | some [] => some []
  | some other => newline? other

/-- Value of a hexadecimal digit. -/
def hexDigit? (char : Char) : Option Nat :=
  if '0' ≤ char ∧ char ≤ '9' then some (char.toNat - 48)
  else if 'a' ≤ char ∧ char ≤ 'f' then some (char.toNat - 87)
  else if 'A' ≤ char ∧ char ≤ 'F' then some (char.toNat - 55)
  else none

/-- Read the given number of hexadecimal digits. -/
def hexDigits? (value : Nat) : Nat → Rest → Option (Nat × Rest)
  | 0, rest => some (value, rest)
  | _ + 1, [] => none
  | count + 1, char :: rest =>
    (hexDigit? char).bind fun digit => hexDigits? (16 * value + digit) count rest

/-- Read a character given by its code point in hexadecimal. -/
def codePoint? (digits : Nat) (rest : Rest) : Option (Char × Rest) :=
  match hexDigits? 0 digits rest with
  | some (code, after) =>
    if code < 0xD800 ∨ 0xDFFF < code ∧ code < 0x110000 then some (Char.ofNat code, after) else none
  | none => none

/-- Read what follows a backslash. -/
def escape? : Rest → Option (Char × Rest)
  | 'b' :: rest => some ('\x08', rest)
  | 't' :: rest => some ('\t', rest)
  | 'n' :: rest => some ('\n', rest)
  | 'f' :: rest => some ('\x0c', rest)
  | 'r' :: rest => some ('\r', rest)
  | 'e' :: rest => some ('\x1b', rest)
  | '"' :: rest => some ('"', rest)
  | '\\' :: rest => some ('\\', rest)
  | 'x' :: rest => codePoint? 2 rest
  | 'u' :: rest => codePoint? 4 rest
  | 'U' :: rest => codePoint? 8 rest
  | _ => none

/-- Read the rest of a string in double quotes. The first argument bounds the
number of characters. -/
def basicBody? : Nat → Rest → Option (List Char × Rest)
  | 0, _ => none
  | _ + 1, [] => none
  | _ + 1, '"' :: rest => some ([], rest)
  | bound + 1, '\\' :: rest => do
    let (char, after) ← escape? rest
    let (chars, last) ← basicBody? bound after
    return (char :: chars, last)
  | bound + 1, char :: rest =>
    if isControl char then none
    else do
      let (chars, last) ← basicBody? bound rest
      return (char :: chars, last)

/-- Read the rest of a string in single quotes. -/
def literalBody? : Rest → Option (List Char × Rest)
  | [] => none
  | char :: rest =>
    if char = '\'' then some ([], rest)
    else if isControl char then none
    else (literalBody? rest).map fun (chars, last) => (char :: chars, last)

/-- A line break directly after three opening quotes does not count. -/
def skipFirstBreak (rest : Rest) : Rest :=
  (newline? rest).getD rest

/-- Skip blanks and line breaks, after a backslash at the end of a line. -/
def skipFold : Rest → Rest
  | '\r' :: '\n' :: rest => skipFold rest
  | char :: rest => if isBlank char || char = '\n' then skipFold rest else char :: rest
  | [] => []

/-- The quotes a string of several lines ends with: three that close it, and up
to two before them that belong to it. -/
def closingQuotes? (quote : Char) (rest : Rest) : Option (List Char × Rest) :=
  let run := (rest.takeWhile (· = quote)).length
  if run < 3 then none
  else if run ≤ 5 then some (List.replicate (run - 3) quote, rest.drop run)
  else some (List.replicate 2 quote, rest.drop 5)

/-- Read the rest of a string of several lines in double quotes. -/
def longBasicBody? : Nat → Rest → Option (List Char × Rest)
  | 0, _ => none
  | _ + 1, [] => none
  | bound + 1, '"' :: rest =>
    match closingQuotes? '"' ('"' :: rest) with
    | some closed => some closed
    | none => (longBasicBody? bound rest).map fun (chars, last) => ('"' :: chars, last)
  | bound + 1, '\\' :: rest =>
    match newline? (skipBlanks rest) with
    | some after => longBasicBody? bound (skipFold after)
    | none => do
      let (char, after) ← escape? rest
      let (chars, last) ← longBasicBody? bound after
      return (char :: chars, last)
  | bound + 1, '\r' :: '\n' :: rest =>
    (longBasicBody? bound rest).map fun (chars, last) => ('\r' :: '\n' :: chars, last)
  | bound + 1, char :: rest =>
    if isControl char && char != '\n' then none
    else (longBasicBody? bound rest).map fun (chars, last) => (char :: chars, last)

/-- Read the rest of a string of several lines in single quotes. -/
def longLiteralBody? : Nat → Rest → Option (List Char × Rest)
  | 0, _ => none
  | _ + 1, [] => none
  | bound + 1, '\'' :: rest =>
    match closingQuotes? '\'' ('\'' :: rest) with
    | some closed => some closed
    | none => (longLiteralBody? bound rest).map fun (chars, last) => ('\'' :: chars, last)
  | bound + 1, '\r' :: '\n' :: rest =>
    (longLiteralBody? bound rest).map fun (chars, last) => ('\r' :: '\n' :: chars, last)
  | bound + 1, char :: rest =>
    if isControl char && char != '\n' then none
    else (longLiteralBody? bound rest).map fun (chars, last) => (char :: chars, last)

/-- Read a string of either kind on one line, from its opening quote. -/
def shortString? : Rest → Option (String × Rest)
  | '"' :: rest =>
    (basicBody? (rest.length + 1) rest).map fun (chars, last) => (String.ofList chars, last)
  | '\'' :: rest => (literalBody? rest).map fun (chars, last) => (String.ofList chars, last)
  | _ => none

/-- Read a string of any kind, from its opening quote. -/
def string? : Rest → Option (String × Rest)
  | '"' :: '"' :: '"' :: rest =>
    (longBasicBody? (rest.length + 1) (skipFirstBreak rest)).map fun (chars, last) =>
      (String.ofList chars, last)
  | '\'' :: '\'' :: '\'' :: rest =>
    (longLiteralBody? (rest.length + 1) (skipFirstBreak rest)).map fun (chars, last) =>
      (String.ofList chars, last)
  | rest => shortString? rest

/-- A character that needs no quotes in a key. -/
def isBare (char : Char) : Bool :=
  char.isAlphanum || char = '_' || char = '-'

/-- Read one part of a key. -/
def keyPart? (rest : Rest) : Option (String × Rest) :=
  match rest with
  | '"' :: _ => shortString? rest
  | '\'' :: _ => shortString? rest
  | _ =>
    let name := rest.takeWhile isBare
    if name.isEmpty then none else some (String.ofList name, rest.dropWhile isBare)

/-- Read the parts of a key, divided by dots, and the blanks after it. -/
def key? : Nat → Rest → Option (List String × Rest)
  | 0, _ => none
  | bound + 1, rest => do
    let (part, after) ← keyPart? rest
    match skipBlanks after with
    | '.' :: more =>
      let (parts, last) ← key? bound (skipBlanks more)
      return (part :: parts, last)
    | last => return ([part], last)

end TreeLens.Toml
