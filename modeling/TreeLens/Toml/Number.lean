import TreeLens.Toml.Digits

/-!
# Numbers of settings files

No setting is a number, so numbers are recognised and never worked out. Their
size does not matter, and nothing is asked of the characters of an integer
beyond its first underscore but that underscores stand between digits and that
there is no space.
-/

namespace TreeLens.Toml

/-- Whether every underscore stands between digits. The characters that are
not next to an underscore do not matter. -/
def underscoresFit (digit : Char → Bool) (chars : List Char) : Bool :=
  let groups := divideAt '_' chars
  (groups.drop 1).all (fun group => group.head?.any digit) &&
    groups.dropLast.all fun group => group.getLast?.any digit

/-- Whether characters are digits, with single underscores between them. -/
def isGrouped (digit : Char → Bool) (chars : List Char) : Bool :=
  (divideAt '_' chars).all fun group => !group.isEmpty && group.all digit

/-- The characters after the mark of a base: its digits, or none at all. -/
def isBased (base : Nat) (chars : List Char) : Bool :=
  chars.isEmpty || isGrouped (isDigitIn base) chars

/-- A digit or an underscore. -/
def inRun (char : Char) : Bool :=
  char.isDigit || char = '_'

/-- The number of digits in the run that characters begin with. -/
def runDigits (chars : List Char) : Nat :=
  ((chars.takeWhile inRun).filter Char.isDigit).length

/-- Whether characters are nothing, or an exponent: its mark, a sign or none,
and a run with a digit. -/
def isExponent : List Char → Bool
  | [] => true
  | mark :: power =>
    let run := match power with
      | '+' :: digits => digits
      | '-' :: digits => digits
      | digits => digits
    (mark = 'e' || mark = 'E') && 0 < runDigits run && (run.dropWhile inRun).isEmpty

/-- Whether characters are a whole part, which has no needless zero, and a
fraction, an exponent or both. -/
def isFractional (chars : List Char) : Bool :=
  let count := runDigits chars
  let wholeFits := count = 1 || 1 < count && chars.head? != some '0'
  wholeFits && match chars.dropWhile inRun with
    | '.' :: fraction => 0 < runDigits fraction && isExponent (fraction.dropWhile inRun)
    | rest => isExponent rest

/-- Whether the characters after the sign make a decimal number. All
characters, with the sign, are given as well. -/
def isDecimal (all digits : List Char) : Bool :=
  let rest := digits.dropWhile Char.isDigit
  if rest.isEmpty then digits.length = 1 || digits.head? != some '0'
  else if rest.any fun char => char = '.' || char = 'e' || char = 'E' then
    isFractional digits && underscoresFit Char.isDigit all
  else
    rest.head? = some '_' && !rest.contains ' ' && digits.head? != some '0' &&
      underscoresFit (isDigitIn 16) all

/-- Whether the characters after the sign make a decimal number or one of the
special numbers. -/
def isSigned (all digits : List Char) : Bool :=
  digits = ['i', 'n', 'f'] || digits = ['n', 'a', 'n'] ||
    digits.head?.any inRun && isDecimal all digits

/-- Whether characters are a number. -/
def isNumber (chars : List Char) : Bool :=
  match chars with
  | '0' :: 'x' :: digits => isBased 16 digits
  | '0' :: 'o' :: digits => isBased 8 digits
  | '0' :: 'b' :: digits => isBased 2 digits
  | '+' :: digits => isSigned chars digits
  | '-' :: digits => isSigned chars digits
  | _ => isSigned chars chars

end TreeLens.Toml
