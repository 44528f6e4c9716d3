import Mathlib.Data.List.DropRight
import TreeLens.CommandLine.Value

/-!
# How ranges are written

A range is two bounds with two dots between them, and a bound is a numeral with blanks
around it. The reader goes the other way about it: it divides the text at the first two dots
in a row, takes the blanks off either part and reads what is left digit by digit, as long as
the number fits. Both come to the same, since neither a blank nor a numeral holds a dot, so
there is only one place to divide at, and since no digit makes a number smaller, so what
fits in the end has fitted all along.
-/

namespace TreeLens

namespace Text

/-! ## Numerals -/

/-- Decimal digits, at least one, that say a number. -/
structure DigitsOf (value : Nat) (digits : List Char) : Prop where
  ne_nil : digits ≠ []
  isDigit : ∀ digit ∈ digits, digit.isDigit = true
  value_eq : Nat.ofDigitChars 10 digits 0 = value

instance (value : Nat) (digits : List Char) : Decidable (DigitsOf value digits) :=
  decidable_of_iff (digits ≠ [] ∧ digits.all Char.isDigit = true ∧
      Nat.ofDigitChars 10 digits 0 = value) <| by
    rw [List.all_eq_true]
    constructor
    · rintro ⟨notEmpty, isDigit, equal⟩
      exact ⟨notEmpty, isDigit, equal⟩
    · rintro ⟨notEmpty, isDigit, equal⟩
      exact ⟨notEmpty, isDigit, equal⟩

/-- A number in digits. A plus sign may stand before them. -/
inductive Numeral (value : Nat) : List Char → Prop where
  | bare {digits : List Char} (number : DigitsOf value digits) : Numeral value digits
  | plus {digits : List Char} (number : DigitsOf value digits) : Numeral value ('+' :: digits)

variable {limit value result : Nat} {chars : List Char}

theorem decimalDigit?_eq_some_iff {char : Char} {digit : Nat} :
    decimalDigit? char = some digit ↔ char.isDigit = true ∧ digit = char.toNat - '0'.toNat := by
  have isDigit_iff : ('0' ≤ char ∧ char ≤ '9') ↔ char.isDigit = true := by
    rw [Char.isDigit_iff_toNat]
    exact Iff.rfl
  rw [decimalDigit?, ← isDigit_iff]
  split
  case isTrue inRange => simp [inRange, eq_comm]
  case isFalse outside => simp [outside]

theorem le_ofDigitChars (digits : List Char) (value : Nat) :
    value ≤ Nat.ofDigitChars 10 digits value := by
  rw [Nat.ofDigitChars_eq_ofDigitChars_zero]
  exact Nat.le_trans (Nat.le_mul_of_pos_left value (Nat.pow_pos (by decide))) (Nat.le_add_right _ _)

/-- Digits are read if the number they say with what was read before fits. -/
theorem readDigits_eq_ok_iff {overflow : DecimalFault} (fits : value ≤ limit) :
    readDigits limit overflow value chars = .ok result ↔
      (∀ char ∈ chars, char.isDigit = true) ∧ Nat.ofDigitChars 10 chars value = result ∧
        result ≤ limit := by
  induction chars generalizing value with
  | nil =>
    rw [readDigits, Nat.ofDigitChars_nil, Except.ok.injEq]
    constructor
    · rintro rfl
      exact ⟨by simp, rfl, fits⟩
    · rintro ⟨-, equal, -⟩
      exact equal
  | cons char rest readRest =>
    rw [readDigits, Nat.ofDigitChars_cons, List.forall_mem_cons]
    cases read : decimalDigit? char with
    | none =>
      have notDigit : ¬char.isDigit = true := by
        intro isDigit
        rw [decimalDigit?_eq_some_iff.mpr ⟨isDigit, rfl⟩] at read
        contradiction
      simp [notDigit]
    | some digit =>
      rcases decimalDigit?_eq_some_iff.mp read with ⟨isDigit, rfl⟩
      dsimp only
      split
      case isTrue stillFits =>
        rw [readRest stillFits]
        simp [isDigit]
      case isFalse tooLarge =>
        simp only [reduceCtorEq, false_iff]
        rintro ⟨-, rfl, resultFits⟩
        exact tooLarge (Nat.le_trans (le_ofDigitChars rest _) resultFits)

theorem readSome_eq_ok_iff {overflow : DecimalFault} :
    readSome limit overflow chars = .ok value ↔ DigitsOf value chars ∧ value ≤ limit := by
  cases chars with
  | nil =>
    simp only [readSome, reduceCtorEq, false_iff]
    rintro ⟨number, -⟩
    exact number.ne_nil rfl
  | cons first rest =>
    rw [readSome, readDigits_eq_ok_iff (Nat.zero_le limit)]
    · constructor
      · rintro ⟨isDigit, valueEq, fits⟩
        exact ⟨⟨List.cons_ne_nil _ _, isDigit, valueEq⟩, fits⟩
      · rintro ⟨number, fits⟩
        exact ⟨number.isDigit, number.value_eq, fits⟩
    · exact List.cons_ne_nil _ _

/-- A plus sign is no digit, so what stands behind it is the number. -/
theorem numeral_plus_iff : Numeral value ('+' :: chars) ↔ DigitsOf value chars := by
  constructor
  · rintro (⟨number⟩ | ⟨number⟩)
    · exact absurd (number.isDigit '+' List.mem_cons_self) (by decide)
    · exact number
  · exact .plus

theorem numeral_iff_of_not_plus (notPlus : ∀ digits, chars ≠ '+' :: digits) :
    Numeral value chars ↔ DigitsOf value chars := by
  constructor
  · rintro (⟨number⟩ | ⟨number⟩)
    · exact number
    · exact absurd rfl (notPlus _)
  · exact .bare

/-- What is read as a number is a numeral whose number fits. -/
theorem readUnsigned_eq_ok_iff :
    readUnsigned limit chars = .ok value ↔ Numeral value chars ∧ value ≤ limit := by
  fun_cases readUnsigned limit chars with
  | case1 =>
    rw [numeral_iff_of_not_plus (by simp)]
    simp only [reduceCtorEq, false_iff]
    rintro ⟨number, -⟩
    exact number.ne_nil rfl
  | case2 digits => rw [readSome_eq_ok_iff, numeral_plus_iff]
  | case3 digits notEmpty notPlus => rw [readSome_eq_ok_iff, numeral_iff_of_not_plus notPlus]

theorem Numeral.eq_plus_or_isDigit (numeral : Numeral value chars) {char : Char}
    (member : char ∈ chars) : char = '+' ∨ char.isDigit = true := by
  cases numeral with
  | bare number => exact Or.inr (number.isDigit char member)
  | plus number =>
    rcases List.mem_cons.mp member with rfl | later
    · exact Or.inl rfl
    · exact Or.inr (number.isDigit char later)

theorem Numeral.isBlank_eq_false (numeral : Numeral value chars) {char : Char}
    (member : char ∈ chars) : isBlank char = false := by
  rcases numeral.eq_plus_or_isDigit member with rfl | isDigit
  · decide
  · rw [Char.isDigit_iff_toNat] at isDigit
    change 48 ≤ char.toNat ∧ char.toNat ≤ 57 at isDigit
    simp only [isBlank, Bool.or_eq_false_iff, Bool.and_eq_false_iff, decide_eq_false_iff_not]
    omega

/-- The usual digits of a number are a numeral. -/
theorem numeral_toString (value : Nat) : Numeral value (toString value).toList := by
  rw [Nat.toString_eq_ofList_toDigits, String.toList_ofList]
  apply Numeral.bare
  exact ⟨Nat.toDigits_ne_nil, fun _ => Nat.isDigit_of_mem_toDigits (by decide) (by decide),
    Nat.ofDigitChars_ten_toDigits⟩

/-! ## Blanks around a numeral -/

/-- Blanks and nothing else, possibly none. -/
def AllBlank (chars : List Char) : Prop :=
  ∀ char ∈ chars, isBlank char = true

instance (chars : List Char) : Decidable (AllBlank chars) :=
  List.decidableBAll (fun char => isBlank char = true) chars

/-- A numeral with blanks around it. -/
inductive Bound (value : Nat) : List Char → Prop where
  | padded {before numeral after : List Char} (leading : AllBlank before)
      (number : Numeral value numeral) (trailing : AllBlank after) :
      Bound value (before ++ (numeral ++ after))

/-- What trimming takes off are blanks. -/
theorem exists_blanks_trim (chars : List Char) :
    ∃ before after, AllBlank before ∧ AllBlank after ∧ chars = before ++ (trim chars ++ after) := by
  let behind := (chars.dropWhile isBlank).rtakeWhile isBlank
  have leading : AllBlank (chars.takeWhile isBlank) := fun _ => List.mem_takeWhile_imp
  have trailing : AllBlank behind := fun _ => List.mem_rtakeWhile_imp
  have back : trim chars ++ behind = chars.dropWhile isBlank := List.rdropWhile_append_rtakeWhile
  have whole : chars = chars.takeWhile isBlank ++ (trim chars ++ behind) := by
    rw [back, List.takeWhile_append_dropWhile]
  exact ⟨_, behind, leading, trailing, whole⟩

theorem dropWhile_isBlank {before inner : List Char} (blank : AllBlank before)
    (notBlank : ∀ char ∈ inner.head?, isBlank char = false) :
    (before ++ inner).dropWhile isBlank = inner := by
  rw [List.dropWhile_append_of_pos blank]
  cases inner with
  | nil => rfl
  | cons first rest => simp [notBlank first rfl]

/-- Where nothing but blanks stands around a numeral, trimming leaves the numeral. -/
theorem trim_of_bound {before numeral after : List Char} (leading : AllBlank before)
    (number : Numeral value numeral) (trailing : AllBlank after) :
    trim (before ++ (numeral ++ after)) = numeral := by
  have notEmpty : numeral ≠ [] := by
    rintro rfl
    exact ((numeral_iff_of_not_plus (by simp)).mp number).ne_nil rfl
  have front : (before ++ (numeral ++ after)).dropWhile isBlank = numeral ++ after := by
    apply dropWhile_isBlank leading
    intro char first
    rw [List.head?_append_of_ne_nil _ notEmpty] at first
    exact number.isBlank_eq_false (List.mem_of_head? first)
  have back : (after.reverse ++ numeral.reverse).dropWhile isBlank = numeral.reverse := by
    apply dropWhile_isBlank
    · intro char member
      exact trailing char (List.mem_reverse.mp member)
    · intro char last
      exact number.isBlank_eq_false (List.mem_reverse.mp (List.mem_of_head? last))
  rw [trim, front, List.reverse_append, back, List.reverse_reverse]

/-- A bound of a range is read as its number if that fits. -/
theorem readUnsigned_trim_eq_ok_iff :
    readUnsigned limit (trim chars) = .ok value ↔ Bound value chars ∧ value ≤ limit := by
  rw [readUnsigned_eq_ok_iff]
  constructor
  · rintro ⟨number, fits⟩
    rcases exists_blanks_trim chars with ⟨before, after, leading, trailing, equal⟩
    rw [equal]
    exact ⟨.padded leading number trailing, fits⟩
  · rintro ⟨⟨leading, number, trailing⟩, fits⟩
    rw [trim_of_bound leading number trailing]
    exact ⟨number, fits⟩

theorem AllBlank.dot_notMem (blank : AllBlank chars) : '.' ∉ chars := by
  intro member
  exact absurd (blank '.' member) (by decide)

theorem Numeral.dot_notMem (numeral : Numeral value chars) : '.' ∉ chars := by
  intro member
  rcases numeral.eq_plus_or_isDigit member with impossible | impossible <;>
    exact absurd impossible (by decide)

theorem Bound.dot_notMem (bound : Bound value chars) : '.' ∉ chars := by
  cases bound with
  | padded leading number trailing =>
    simp only [List.mem_append, not_or]
    exact ⟨leading.dot_notMem, number.dot_notMem, trailing.dot_notMem⟩

theorem bound_toString (value : Nat) : Bound value (toString value).toList := by
  have blank : AllBlank [] := by
    intro char member
    contradiction
  have bound := Bound.padded blank (numeral_toString value) blank
  rwa [List.nil_append, List.append_nil] at bound

end Text

namespace CommandLine

/-! ## Two bounds with two dots between them -/

/-- The two parts are what stands before and behind two dots. -/
theorem eq_append_of_splitDots? {chars before after : List Char}
    (divided : splitDots? chars = some (before, after)) :
    chars = before ++ '.' :: '.' :: after := by
  induction chars generalizing before with
  | nil => contradiction
  | cons first rest divideRest =>
    cases rest with
    | nil => contradiction
    | cons second rest =>
      rw [splitDots?] at divided
      split at divided
      case isTrue dots =>
        cases divided
        rw [dots.1, dots.2, List.nil_append]
      case isFalse notHere =>
        rcases Option.map_eq_some_iff.mp divided with ⟨⟨later, _⟩, dividedRest, equal⟩
        cases equal
        rw [divideRest dividedRest, List.cons_append]

/-- A text is divided at the first dots, so those behind a part without a dot are the ones. -/
theorem splitDots?_append {before : List Char} (noDot : '.' ∉ before) (after : List Char) :
    splitDots? (before ++ '.' :: '.' :: after) = some (before, after) := by
  induction before with
  | nil => simp [splitDots?]
  | cons first rest divideRest =>
    rw [List.mem_cons, not_or] at noDot
    have notHere : ∀ second : Char, ¬(first = '.' ∧ second = '.') :=
      fun _ both => noDot.1 both.1.symm
    have dividedRest := divideRest noDot.2
    cases rest with
    | nil =>
      change splitDots? (first :: '.' :: '.' :: after) = _
      rw [splitDots?, if_neg (notHere _)]
      exact congrArg (Option.map _) dividedRest
    | cons second rest =>
      change splitDots? (first :: second :: (rest ++ '.' :: '.' :: after)) = _
      rw [splitDots?, if_neg (notHere _)]
      exact congrArg (Option.map _) dividedRest

/-- A text that was divided is read as a range if both of its parts are read and the bounds
are in order. -/
theorem readRange_of_splitDots? {text : String} {before after : List Char} {span : Span}
    (divided : splitDots? text.toList = some (before, after)) :
    readRange text = .ok span ↔
      Text.readUnsigned offsetLimit (Text.trim before) = .ok span.start ∧
        Text.readUnsigned offsetLimit (Text.trim after) = .ok span.stop ∧ span.Ordered := by
  rw [readRange, divided]
  dsimp only
  cases Text.readUnsigned offsetLimit (Text.trim before) with
  | error fault => simp
  | ok start =>
    cases Text.readUnsigned offsetLimit (Text.trim after) with
    | error fault => simp
    | ok stop =>
      simp only [Except.ok.injEq]
      constructor
      · intro read
        split at read
        · contradiction
        · cases read
          exact ⟨rfl, rfl, Nat.not_lt.mp ‹_›⟩
      · rintro ⟨rfl, rfl, ordered⟩
        exact if_neg (Nat.not_lt.mpr ordered)

/-- A range in writing: two bounds in order that take 64 bits at most, and two dots between
them. -/
inductive Writes (span : Span) : List Char → Prop where
  | bounds {first second : List Char} (start : Text.Bound span.start first)
      (stop : Text.Bound span.stop second) (ordered : span.start ≤ span.stop)
      (fits : span.stop < UInt64.size) : Writes span (first ++ '.' :: '.' :: second)

theorem readRange_eq_ok_iff {text : String} {span : Span} :
    readRange text = .ok span ↔ Writes span text.toList := by
  have le_limit_iff : ∀ value, value ≤ offsetLimit ↔ value < UInt64.size :=
    fun _ => Nat.lt_succ_iff.symm
  constructor
  · intro read
    cases divided : splitDots? text.toList with
    | none =>
      rw [readRange, divided] at read
      contradiction
    | some parts =>
      simp only [readRange_of_splitDots? divided, Text.readUnsigned_trim_eq_ok_iff,
        le_limit_iff] at read
      rcases read with ⟨⟨start, -⟩, ⟨stop, fits⟩, ordered⟩
      rw [eq_append_of_splitDots? divided]
      exact .bounds start stop ordered fits
  · intro writes
    generalize same : text.toList = chars at writes
    cases writes with
    | @bounds first second start stop ordered fits =>
      have divided : splitDots? text.toList = some (first, second) := by
        rw [same, splitDots?_append start.dot_notMem]
      simp only [readRange_of_splitDots? divided, Text.readUnsigned_trim_eq_ok_iff, le_limit_iff]
      exact ⟨⟨start, Nat.lt_of_le_of_lt ordered fits⟩, ⟨stop, fits⟩, ordered⟩

theorem writes_render {span : Span} (ordered : span.Ordered) (fits : span.stop < UInt64.size) :
    Writes span span.render.toList := by
  have rendered : span.render.toList =
      (toString span.start).toList ++ '.' :: '.' :: (toString span.stop).toList := by
    simp [Span.render]
  rw [rendered]
  exact .bounds (Text.bound_toString _) (Text.bound_toString _) ordered fits

/-- A text is read as a range exactly if it is that range in writing, and refused if it is
none. The usual form of a range is read as that range. -/
theorem readRange_accepts_writing :
    (∀ text span, readRange text = .ok span ↔ Writes span text.toList) ∧
      (∀ text, (∃ fault, readRange text = .error fault) ↔ ∀ span, ¬Writes span text.toList) ∧
      ∀ span : Span, span.Ordered → span.stop < UInt64.size → readRange span.render = .ok span := by
  constructor
  · intro text span
    exact readRange_eq_ok_iff
  constructor
  · intro text
    simp only [← readRange_eq_ok_iff]
    cases readRange text with
    | ok span => simp
    | error fault => simp
  · intro span ordered fits
    exact readRange_eq_ok_iff.mpr (writes_render ordered fits)

/-- The largest bound, behind blanks of several kinds, a plus sign and zeros in front; and a
text with a dot too many. -/
theorem readRange_accepts_writing_padded :
    let span : Span := ⟨7, 18446744073709551615⟩
    let text := "\t\u2003+007 ..\u00a018446744073709551615\n"
    span.Ordered ∧ span.stop < UInt64.size ∧ readRange span.render = .ok span ∧
      readRange text = .ok span ∧ ∀ other, ¬Writes other "7...8".toList := by
  intro span text
  have ordered : span.Ordered := by decide
  have fits : span.stop < UInt64.size := by decide
  have start : Text.Bound 7 (['\t', '\u2003'] ++ (['+', '0', '0', '7'] ++ [' '])) :=
    .padded (by decide) (.plus (by decide)) (by decide)
  have stop : Text.Bound 18446744073709551615
      (['\u00a0'] ++ ("18446744073709551615".toList ++ ['\n'])) :=
    .padded (by decide) (.bare (by decide)) (by decide)
  have writes : Writes span text.toList := by
    have divided : text.toList = (['\t', '\u2003'] ++ (['+', '0', '0', '7'] ++ [' '])) ++
        '.' :: '.' :: (['\u00a0'] ++ ("18446744073709551615".toList ++ ['\n'])) := by decide
    rw [divided]
    exact .bounds start stop ordered fits
  rcases readRange_accepts_writing with ⟨accepts, refuses, reads⟩
  exact ⟨ordered, fits, reads span ordered fits, (accepts text span).mpr writes,
    (refuses "7...8").mp ⟨_, rfl⟩⟩

end CommandLine

end TreeLens
