/-!
# Digits

Numbers, dates and times of settings files are made of runs of digits with
signs between them.
-/

namespace TreeLens.Toml

/-- Divide characters at every occurrence of one of them. -/
def divideAt (separator : Char) : List Char → List (List Char)
  | [] => [[]]
  | char :: rest =>
    if char = separator then [] :: divideAt separator rest
    else match divideAt separator rest with
      | first :: others => (char :: first) :: others
      | [] => [[char]]

/-- A digit in a given base. -/
def isDigitIn (base : Nat) (char : Char) : Bool :=
  if char.isDigit then char.toNat - 48 < base
  else base = 16 && (('a' ≤ char && char ≤ 'f') || ('A' ≤ char && char ≤ 'F'))

/-- Value of decimal digits. -/
def digitsValue (chars : List Char) : Nat :=
  chars.foldl (fun value char => 10 * value + (char.toNat - 48)) 0

/-- The value of exactly `count` digits. -/
def fixedNumber? (count : Nat) (chars : List Char) : Option Nat :=
  if chars.length = count && chars.all Char.isDigit then some (digitsValue chars) else none

/-- A number with zeros before it, so that it has at least `count` digits. -/
def padded (count value : Nat) : String :=
  let digits := Nat.toDigits 10 value
  String.ofList (List.replicate (count - digits.length) '0' ++ digits)

end TreeLens.Toml
