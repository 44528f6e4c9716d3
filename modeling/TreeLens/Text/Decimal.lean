/-!
# Decimal numbers of limited size

Whole numbers are read digit by digit, and reading stops at the first thing
that is wrong: a character that is no digit, or a digit that takes the number
past its limit. Blanks around a number are no part of it. They are the characters
with the Unicode property `White_Space`.
-/

namespace TreeLens.Text

/-- What is wrong with a number. -/
inductive DecimalFault where
  | empty
  | invalidDigit
  | tooLarge
  | tooSmall
deriving DecidableEq, Repr

/-- The fault in words. -/
def DecimalFault.describe : DecimalFault → String
  | empty => "cannot parse integer from empty string"
  | invalidDigit => "invalid digit found in string"
  | tooLarge => "number too large to fit in target type"
  | tooSmall => "number too small to fit in target type"

/-- Value of a decimal digit. -/
def decimalDigit? (char : Char) : Option Nat :=
  if '0' ≤ char ∧ char ≤ '9' then some (char.toNat - 48) else none

/-- Append digits to a number. Going past `limit` is the given fault. -/
def readDigits (limit : Nat) (overflow : DecimalFault) (value : Nat) :
    List Char → Except DecimalFault Nat
  | [] => .ok value
  | char :: rest =>
    match decimalDigit? char with
    | none => .error .invalidDigit
    | some digit =>
      if 10 * value + digit ≤ limit then readDigits limit overflow (10 * value + digit) rest
      else .error overflow

/-- Read digits, of which there has to be at least one. -/
def readSome (limit : Nat) (overflow : DecimalFault) : List Char → Except DecimalFault Nat
  | [] => .error .invalidDigit
  | digits => readDigits limit overflow 0 digits

/-- Read a number without a minus sign of at most `limit`. A plus sign may stand
before it. -/
def readUnsigned (limit : Nat) : List Char → Except DecimalFault Nat
  | [] => .error .empty
  | '+' :: digits => readSome limit .tooLarge digits
  | digits => readSome limit .tooLarge digits

/-- Read a number of at most `limit` that is at least minus `limit` and one
more. A sign may stand before it. -/
def readSigned (limit : Nat) : List Char → Except DecimalFault Int
  | [] => .error .empty
  | '+' :: digits => (readSome limit .tooLarge digits).map Int.ofNat
  | '-' :: digits => (readSome (limit + 1) .tooSmall digits).map fun value => -Int.ofNat value
  | digits => (readSome limit .tooLarge digits).map Int.ofNat

/-! ## Blanks around a number -/

/-- Whether a character is white space. -/
def isBlank (char : Char) : Bool :=
  let code := char.toNat
  (0x09 ≤ code && code ≤ 0x0D) || code = 0x20 || code = 0x85 || code = 0xA0 || code = 0x1680
    || (0x2000 ≤ code && code ≤ 0x200A) || code = 0x2028 || code = 0x2029 || code = 0x202F
    || code = 0x205F || code = 0x3000

/-- Characters without the blanks at either end. -/
def trim (chars : List Char) : List Char :=
  ((chars.dropWhile isBlank).reverse.dropWhile isBlank).reverse

end TreeLens.Text
