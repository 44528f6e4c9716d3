import TreeLens.Toml.Digits

/-!
# Dates and times of settings files

A moment is a day, a time of day, or both, and in the last case it may have an
offset from universal time. It can be written in several ways and has one usual
form.
-/

namespace TreeLens.Toml

/-- A day that exists. -/
structure Day where
  year : Nat
  month : Nat
  day : Nat
deriving DecidableEq, Repr

/-- A time of day. -/
structure Clock where
  hour : Nat
  minute : Nat
  /-- Up to 60, since there are leap seconds. -/
  second : Nat := 0
  /-- The digits of the fraction of a second, of which the last is not zero. -/
  fraction : List Char := []
deriving DecidableEq, Repr

/-- An offset from universal time. -/
inductive Zone where
  | universal
  | shifted (minutes : Int)
deriving DecidableEq, Repr

/-- A day, a time of day, or both. -/
structure Moment where
  day : Option Day := none
  clock : Option Clock := none
  zone : Option Zone := none
deriving DecidableEq, Repr

/-- Number of days of a month. -/
def monthDays (year month : Nat) : Nat :=
  if month = 2 then
    if year % 4 = 0 && (year % 100 != 0 || year % 400 = 0) then 29 else 28
  else if month = 4 || month = 6 || month = 9 || month = 11 then 30
  else 31

/-- Read a day. -/
def day? (chars : List Char) : Option Day :=
  match divideAt '-' chars with
  | [yearText, monthText, dayText] => do
    let year ← fixedNumber? 4 yearText
    let month ← fixedNumber? 2 monthText
    let day ← fixedNumber? 2 dayText
    if 1 ≤ month && month ≤ 12 && 1 ≤ day && day ≤ monthDays year month then
      some ⟨year, month, day⟩
    else none
  | _ => none

/-- Read hours and minutes. -/
def hourMinute? (hourText minuteText : List Char) : Option (Nat × Nat) := do
  let hour ← fixedNumber? 2 hourText
  let minute ← fixedNumber? 2 minuteText
  if hour ≤ 23 && minute ≤ 59 then some (hour, minute) else none

/-- The digits of a fraction that count: nine at most, without zeros at the
end. -/
def significant (digits : List Char) : List Char :=
  ((digits.take 9).reverse.dropWhile (· = '0')).reverse

/-- Read seconds, with or without a fraction. -/
def second? (chars : List Char) : Option (Nat × List Char) := do
  let (wholeText, fraction) ← match divideAt '.' chars with
    | [whole] => some (whole, [])
    | [whole, digits] =>
      if digits.isEmpty || !digits.all Char.isDigit then none else some (whole, significant digits)
    | _ => none
  let whole ← fixedNumber? 2 wholeText
  if whole ≤ 60 then some (whole, fraction) else none

/-- Read a time of day. The seconds may be left out. -/
def clock? (chars : List Char) : Option Clock :=
  match divideAt ':' chars with
  | [hourText, minuteText] => do
    let (hour, minute) ← hourMinute? hourText minuteText
    return { hour := hour, minute := minute }
  | [hourText, minuteText, secondText] => do
    let (hour, minute) ← hourMinute? hourText minuteText
    let (second, fraction) ← second? secondText
    return ⟨hour, minute, second, fraction⟩
  | _ => none

/-- Read an offset from universal time, which begins with a sign or is a
letter. Nothing at all is no offset. -/
def zone? : List Char → Option (Option Zone)
  | [] => some none
  | ['Z'] => some (some .universal)
  | ['z'] => some (some .universal)
  | sign :: chars =>
    match divideAt ':' chars with
    | [hourText, minuteText] => do
      let (hour, minute) ← hourMinute? hourText minuteText
      let minutes : Int := 60 * hour + minute
      if sign = '+' then some (some (.shifted minutes))
      else if sign = '-' then some (some (.shifted (-minutes)))
      else none
    | _ => none

/-- A character that begins an offset from universal time. -/
def beginsZone (char : Char) : Bool :=
  char = '+' || char = '-' || char = 'Z' || char = 'z'

/-- A character that stands between a day and a time of day. -/
def dividesMoment (char : Char) : Bool :=
  char = 'T' || char = 't' || char = ' '

/-- Read a day, a time of day, or both. -/
def moment? (chars : List Char) : Option Moment :=
  match day? (chars.take 10), chars.drop 10 with
  | some day, [] => some { day := some day }
  | some day, mark :: rest => do
    let clock ← clock? (rest.takeWhile fun char => !beginsZone char)
    let zone ← zone? (rest.dropWhile fun char => !beginsZone char)
    if dividesMoment mark then some ⟨some day, some clock, zone⟩ else none
  | none, _ => (clock? chars).map fun clock => { clock := some clock }

/-- The usual form of a day. -/
def Day.render (day : Day) : String :=
  padded 4 day.year ++ "-" ++ padded 2 day.month ++ "-" ++ padded 2 day.day

/-- The usual form of a time of day, with seconds and without a fraction that
is zero. -/
def Clock.render (clock : Clock) : String :=
  padded 2 clock.hour ++ ":" ++ padded 2 clock.minute ++ ":" ++ padded 2 clock.second
    ++ (if clock.fraction.isEmpty then "" else "." ++ String.ofList clock.fraction)

/-- The usual form of an offset from universal time. -/
def Zone.render : Zone → String
  | universal => "Z"
  | shifted minutes =>
    (if minutes < 0 then "-" else "+") ++ padded 2 (minutes.natAbs / 60) ++ ":"
      ++ padded 2 (minutes.natAbs % 60)

/-- The usual form of a moment. -/
def Moment.render (moment : Moment) : String :=
  let day := (moment.day.map Day.render).getD ""
  let clock := (moment.clock.map Clock.render).getD ""
  let zone := (moment.zone.map Zone.render).getD ""
  day ++ (if moment.day.isSome && moment.clock.isSome then "T" else "") ++ clock ++ zone

end TreeLens.Toml
