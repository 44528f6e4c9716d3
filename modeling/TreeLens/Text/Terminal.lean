/-!
# Text on a terminal

A text that is written to a terminal holds control sequences beside what there
is to read. They begin with an escape character and set colours and the like.
The plain text is what is left without them and without all other controls
but those that lay out lines.

A sequence ends in one of three ways: a command with the first letter after its
parameters, a string for the terminal with the next escape character or with a
mark of its own, any other sequence with the first character that is no sign.
Two controls break off a sequence wherever it stands, and so does, outside of
strings, a control that lays out lines. All other characters of a sequence
are lost with it.
-/

namespace TreeLens.Text

/-- Where a character stands with respect to control sequences. -/
inductive SequencePlace where
  | outside
  /-- Directly after the escape character. -/
  | begun
  /-- After the escape character and signs that are part of the sequence. -/
  | marked
  /-- In the parameters of a command. -/
  | command
  /-- Before the first parameter of a string for the terminal. -/
  | heading
  /-- After a parameter of a string for the terminal. -/
  | headingParameters
  /-- After the signs that follow the parameters of a string. -/
  | headingSigns
  /-- In a string for the terminal. -/
  | string
  /-- In a string for the terminal that only a bell ends. -/
  | title
deriving DecidableEq, Repr

namespace SequencePlace

/-- The place after the first character of a sequence, which is a letter or a
sign. -/
def ofFirst (char : Char) : SequencePlace :=
  if char = '[' then command
  else if char = ']' then title
  else if char = 'P' then heading
  else if char = 'X' ∨ char = '^' ∨ char = '_' then string
  else if char < '0' then marked
  else outside

/-- The place after a letter or a sign. -/
def afterSign (char : Char) : SequencePlace → SequencePlace
  | outside => outside
  | begun => ofFirst char
  | marked => if char < '0' then marked else outside
  | command => if char < '@' then command else outside
  | heading =>
    if char < '0' then headingSigns else if char < '@' then headingParameters else string
  | headingParameters =>
    if char < '0' then headingSigns else if char < '<' then headingParameters else string
  | headingSigns => if char < '0' then headingSigns else string
  | string => string
  | title => title

/-- The place after a character outside of ASCII. Only a string for the
terminal looks at its bytes, one of which may be the mark that ends strings. -/
def afterWide (char : Char) : SequencePlace → SequencePlace
  | string => if (String.utf8EncodeChar char).contains 0x9C then outside else string
  | place => place

/-- Whether controls that lay out lines break off a sequence here. -/
def breaksAtLayout : SequencePlace → Bool
  | outside => true
  | begun => true
  | marked => true
  | command => true
  | _ => false

end SequencePlace

/-- A control that lays out lines. -/
def isLayout (char : Char) : Bool :=
  char = '\t' || char = '\n' || char = '\x0c' || char = '\r'

/-- A control that breaks off a sequence. -/
def isBreakOff (char : Char) : Bool :=
  char = '\x18' || char = '\x1a'

/-- The place after a character, and what of the character is plain text. -/
def terminalStep (place : SequencePlace) (char : Char) : SequencePlace × List Char :=
  let shown := if place = .outside then [char] else []
  if char = '\x1b' then (.begun, [])
  else if isBreakOff char then (.outside, [])
  else if 0x80 ≤ char.toNat then (place.afterWide char, shown)
  else if isLayout char then
    if place.breaksAtLayout then (.outside, [char]) else (place, [])
  else if char.toNat < 0x20 ∨ char.toNat = 0x7F then
    (if place = .title ∧ char = '\x07' then .outside else place, [])
  else (place.afterSign char, shown)

/-- The plain text of characters of which the first stands at `place`. -/
def plainChars (place : SequencePlace) : List Char → List Char
  | [] => []
  | char :: rest =>
    let (next, shown) := terminalStep place char
    shown ++ plainChars next rest

/-- The plain text of a text for a terminal. -/
def plain (text : String) : String :=
  String.ofList (plainChars .outside text.toList)

/-- A text set off from the text around it by control sequences. -/
def emphasise (text : String) : String :=
  "\x1b[1m" ++ text ++ "\x1b[0m"

end TreeLens.Text
