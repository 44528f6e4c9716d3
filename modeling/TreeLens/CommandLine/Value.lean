import TreeLens.Selection.State
import TreeLens.Text.Decimal
import TreeLens.Text.Encoding

/-!
# Values on the command line

How the values of options and arguments are read from words, and what is said
of a word that cannot be read.
-/

namespace TreeLens.CommandLine

open Text (DecimalFault)

/-- Offsets and range bounds take 64 bits. -/
def offsetLimit : Nat := 0xFFFFFFFFFFFFFFFF

/-- Node indices take 32 bits. -/
def indexLimit : Nat := 0xFFFFFFFF

/-- Numbers with a sign take 64 bits. -/
def signedLimit : Nat := 0x7FFFFFFFFFFFFFFF

/-- What is wrong with a range. -/
inductive RangeFault where
  | noDots (text : String)
  | badStart (fault : DecimalFault)
  | badStop (fault : DecimalFault)
  | reversed (start stop : Nat)
deriving DecidableEq, Repr

/-- The fault in words. -/
def RangeFault.describe : RangeFault → String
  | noDots text => "expected START..END, got '" ++ text ++ "'"
  | badStart fault => "bad start: " ++ fault.describe
  | badStop fault => "bad end: " ++ fault.describe
  | reversed start stop =>
    "range end " ++ toString stop ++ " is before start " ++ toString start

/-- The characters before and after the first two dots in a row. -/
def splitDots? : List Char → Option (List Char × List Char)
  | [] => none
  | [_] => none
  | first :: second :: rest =>
    if first = '.' ∧ second = '.' then some ([], rest)
    else (splitDots? (second :: rest)).map fun (before, after) => (first :: before, after)

/-- Read a range: two offsets in order, with two dots between them. Blanks may
stand around either. -/
def readRange (text : String) : Except RangeFault Span :=
  match splitDots? text.toList with
  | none => .error (.noDots text)
  | some (before, after) =>
    match Text.readUnsigned offsetLimit (Text.trim before) with
    | .error fault => .error (.badStart fault)
    | .ok start =>
      match Text.readUnsigned offsetLimit (Text.trim after) with
      | .error fault => .error (.badStop fault)
      | .ok stop => if stop < start then .error (.reversed start stop) else .ok ⟨start, stop⟩

/-- Read an offset. -/
def readOffset (text : String) : Except DecimalFault Nat :=
  Text.readUnsigned offsetLimit text.toList

/-- What is wrong with a node index. -/
inductive IndexFault where
  | notNumber (fault : DecimalFault)
  | outOfRange (value : Int)
deriving DecidableEq, Repr

/-- The fault in words. -/
def IndexFault.describe : IndexFault → String
  | notNumber fault => fault.describe
  | outOfRange value => toString value ++ " is not in 0..=" ++ toString indexLimit

/-- Read a node index. It is read as a number with a sign first, and has to be
in range then. -/
def readIndex (text : String) : Except IndexFault Nat :=
  match Text.readSigned signedLimit text.toList with
  | .error fault => .error (.notNumber fault)
  | .ok value =>
    if 0 ≤ value ∧ value ≤ indexLimit then .ok value.toNat else .error (.outOfRange value)

/-- Read an encoding. The hyphen of its name may be left out. -/
def readEncoding? (text : String) : Option Encoding :=
  if text = "utf8" then some .utf8
  else if text = "utf16" then some .utf16
  else if text = "utf32" then some .utf32
  else Encoding.ofName? text

end TreeLens.CommandLine
