/-!
# Index encodings

A text view counts positions in one of three units: bytes of UTF-8, code units
of UTF-16, or whole characters. An encoding is described by the code units it
writes for a character; how many units a character takes is stated separately
and agrees with that.
-/

namespace TreeLens

/-- The unit in which a text view counts positions. -/
inductive Encoding where
  | utf8
  | utf16
  | utf32
deriving DecidableEq, Repr

namespace Encoding

/-- Views that say nothing count UTF-16 code units. -/
instance : Inhabited Encoding where
  default := .utf16

/-- The name an encoding has in settings files and reports. -/
def name : Encoding → String
  | utf8 => "utf-8"
  | utf16 => "utf-16"
  | utf32 => "utf-32"

/-- The encoding of the given name. -/
def ofName? (text : String) : Option Encoding :=
  if text = "utf-8" then some utf8
  else if text = "utf-16" then some utf16
  else if text = "utf-32" then some utf32
  else none

theorem ofName?_name (encoding : Encoding) : ofName? encoding.name = some encoding := by
  cases encoding <;> decide

/-- Number of units one character takes. -/
def unitLength : Encoding → Char → Nat
  | utf8, char => char.utf8Size
  | utf16, char => if char.toNat < 0x10000 then 1 else 2
  | utf32, _ => 1

/-- The UTF-16 code units of a character: the character itself inside the basic
plane, a surrogate pair outside it. -/
def utf16Units (char : Char) : List Nat :=
  if char.toNat < 0x10000 then
    [char.toNat]
  else
    [0xD800 + (char.toNat - 0x10000) / 0x400, 0xDC00 + (char.toNat - 0x10000) % 0x400]

theorem length_utf16Units (char : Char) :
    (utf16Units char).length = utf16.unitLength char := by
  simp only [utf16Units, unitLength]
  split <;> rfl

/-- Every character takes at least one unit. -/
theorem unitLength_pos (encoding : Encoding) (char : Char) : 0 < encoding.unitLength char := by
  cases encoding with
  | utf8 => exact Char.utf8Size_pos char
  | utf16 =>
    simp only [unitLength]
    split <;> decide
  | utf32 => exact Nat.one_pos

/-- Number of units a run of characters takes. -/
def runLength (encoding : Encoding) : List Char → Nat
  | [] => 0
  | char :: chars => encoding.unitLength char + encoding.runLength chars

/-- Number of units a whole text takes: its bytes, its UTF-16 code units, or
its characters. -/
def textLength (encoding : Encoding) (text : String) : Nat :=
  match encoding with
  | utf8 => text.utf8ByteSize
  | utf16 => (text.toList.flatMap utf16Units).length
  | utf32 => text.length

end Encoding

end TreeLens
