import TreeLens.Proofs.Text.Boundary

/-!
# Native indices and back

Counting native units down and adding up units of the characters before an
offset are inverse to each other: both measure the same run of first characters,
once in native units and once in bytes. So a native index and a byte offset
belong together in either direction or in none, two different offsets never
share an index, and an index that has an offset is at most the length of the
text.
-/

namespace TreeLens

namespace Encoding

/-- The length of a text is the length of the run of all its characters. -/
theorem textLength_eq_runLength (encoding : Encoding) (text : String) :
    encoding.textLength text = encoding.runLength text.toList := by
  cases encoding with
  | utf8 =>
    have bytes : ∀ chars : List Char,
        (String.ofList chars).utf8ByteSize = utf8.runLength chars := by
      intro chars
      induction chars with
      | nil => rfl
      | cons char chars ih =>
        rw [String.ofList_cons, String.utf8ByteSize_append, ih, runLength_cons]
        simp [unitLength]
    rw [← bytes, String.ofList_toList]
    rfl
  | utf16 =>
    rw [textLength]
    induction text.toList with
    | nil => rfl
    | cons char chars ih =>
      rw [List.flatMap_cons, List.length_append, length_utf16Units, ih, runLength_cons]
  | utf32 =>
    rw [textLength, ← String.length_toList]
    induction text.toList with
    | nil => rfl
    | cons char chars ih =>
      rw [List.length_cons, ih, runLength_cons, unitLength, Nat.add_comm]

/-- A run that begins another one is not longer. -/
theorem runLength_le_append (encoding : Encoding) (before after : List Char) :
    encoding.runLength before ≤ encoding.runLength (before ++ after) := by
  rw [runLength_append]
  exact Nat.le_add_right _ _

end Encoding

namespace Text

/-- Counting units down ends after a run of first characters that takes exactly
so many, and answers the bytes of that run. -/
theorem byteAfter_eq_some_iff {encoding : Encoding} {native byte : Nat} {chars : List Char} :
    byteAfter encoding native chars = some byte ↔
      ∃ before after, before ++ after = chars ∧ encoding.runLength before = native ∧
        Encoding.utf8.runLength before = byte := by
  induction chars generalizing native byte with
  | nil =>
    cases native with
    | zero => simp [byteAfter, List.append_eq_nil_iff, eq_comm]
    | succ native =>
      simp only [byteAfter, reduceCtorEq, List.append_eq_nil_iff, false_iff]
      rintro ⟨before, after, ⟨rfl, -⟩, length, -⟩
      simp at length
  | cons char chars ih =>
    have positive := encoding.unitLength_pos char
    cases native with
    | zero =>
      simp only [byteAfter, Option.some.injEq, Encoding.runLength_eq_zero_iff]
      constructor
      · rintro rfl
        exact ⟨[], char :: chars, rfl, rfl, rfl⟩
      · rintro ⟨before, after, -, rfl, bytes⟩
        exact bytes
    | succ native =>
      rw [byteAfter]
      constructor
      · intro counted
        split at counted
        · obtain ⟨inner, innerCounted, equal⟩ := Option.map_eq_some_iff.mp counted
          obtain ⟨before, after, rfl, length, rfl⟩ := ih.mp innerCounted
          refine ⟨char :: before, after, rfl, ?_, equal⟩
          rw [Encoding.runLength_cons, length]
          omega
        · contradiction
      · rintro ⟨before, after, joined, length, bytes⟩
        cases before with
        | nil => simp at length
        | cons first inner =>
          obtain ⟨rfl, innerJoined⟩ := List.cons.inj joined
          rw [Encoding.runLength_cons] at length
          have innerCounted := ih.mpr ⟨inner, after, innerJoined,
            show encoding.runLength inner = native + 1 - encoding.unitLength first by omega, rfl⟩
          rw [if_pos (by omega), innerCounted]
          exact congrArg some bytes

/-- The two conversions are inverse to each other. -/
theorem toByte_eq_some_iff {encoding : Encoding} {text : String} {native byte : Nat} :
    toByte encoding text native = some byte ↔ toNative encoding text byte = some native := by
  have walked : byteAfter encoding native text.toList = some byte ↔
      toNative encoding text byte = some native := by
    rw [byteAfter_eq_some_iff, toNative_eq_some_iff]
    simp only [and_comm]
  cases encoding with
  | utf8 =>
    simp only [toByte, toNative, Option.ite_none_right_eq_some, Option.some.injEq]
    constructor
    · rintro ⟨boundary, rfl⟩
      exact ⟨boundary, rfl⟩
    · rintro ⟨boundary, rfl⟩
      exact ⟨boundary, rfl⟩
  | utf16 => exact walked
  | utf32 => exact walked

/-- A native index belongs to at most one byte offset. -/
theorem toNative_inj {encoding : Encoding} {text : String} {firstByte secondByte native : Nat}
    (firstMapped : toNative encoding text firstByte = some native)
    (secondMapped : toNative encoding text secondByte = some native) :
    firstByte = secondByte := by
  rw [← toByte_eq_some_iff] at firstMapped secondMapped
  exact Option.some.inj (firstMapped.symm.trans secondMapped)

/-- Indices of one encoding are ordered as the byte offsets are. -/
theorem toNative_le_iff {encoding : Encoding} {text : String}
    {leftByte rightByte left right : Nat}
    (leftMapped : toNative encoding text leftByte = some left)
    (rightMapped : toNative encoding text rightByte = some right) :
    left ≤ right ↔ leftByte ≤ rightByte := by
  constructor
  · intro ordered
    apply Nat.not_lt.mp
    intro reversed
    have back := toNative_mono rightMapped leftMapped (Nat.le_of_lt reversed)
    have equal : left = right := Nat.le_antisymm ordered back
    rw [equal] at leftMapped
    exact Nat.ne_of_gt reversed (toNative_inj leftMapped rightMapped)
  · exact toNative_mono leftMapped rightMapped

/-- In every encoding the offsets with a native index are the character
boundaries. -/
theorem isSome_toNative (encoding : Encoding) (text : String) (offset : Nat) :
    (toNative encoding text offset).isSome = isBoundary text offset := by
  cases encoding with
  | utf8 => cases boundary : isBoundary text offset <;> simp [toNative, boundary]
  | utf16 => exact Option.isSome_map
  | utf32 => exact Option.isSome_map

/-- An index of a text is at most its length. -/
theorem le_textLength_of_toByte {encoding : Encoding} {text : String} {native byte : Nat}
    (mapped : toByte encoding text native = some byte) : native ≤ encoding.textLength text := by
  obtain ⟨before, after, joined, -, rfl⟩ :=
    toNative_eq_some_iff.mp (toByte_eq_some_iff.mp mapped)
  rw [Encoding.textLength_eq_runLength, ← joined]
  exact encoding.runLength_le_append before after

/-! ## Spans -/

theorem spanToNative_eq_some_iff {encoding : Encoding} {text : String} {bytes native : Span} :
    spanToNative encoding text bytes = some native ↔
      toNative encoding text bytes.start = some native.start ∧
        toNative encoding text bytes.stop = some native.stop := by
  simp only [spanToNative, Option.bind_eq_bind, Option.bind_eq_some_iff]
  constructor
  · rintro ⟨start, startMapped, stop, stopMapped, equal⟩
    cases equal
    exact ⟨startMapped, stopMapped⟩
  · rintro ⟨startMapped, stopMapped⟩
    exact ⟨native.start, startMapped, native.stop, stopMapped, rfl⟩

theorem spanToBytes_eq_some_iff {encoding : Encoding} {text : String} {native bytes : Span} :
    spanToBytes encoding text native = some bytes ↔
      toByte encoding text native.start = some bytes.start ∧
        toByte encoding text native.stop = some bytes.stop := by
  simp only [spanToBytes, Option.bind_eq_bind, Option.bind_eq_some_iff]
  constructor
  · rintro ⟨start, startMapped, stop, stopMapped, equal⟩
    cases equal
    exact ⟨startMapped, stopMapped⟩
  · rintro ⟨startMapped, stopMapped⟩
    exact ⟨bytes.start, startMapped, bytes.stop, stopMapped, rfl⟩

/-- In every encoding the spans with a native span are those between character
boundaries. -/
theorem isSome_spanToNative (encoding : Encoding) (text : String) (bytes : Span) :
    (spanToNative encoding text bytes).isSome =
      (isBoundary text bytes.start && isBoundary text bytes.stop) := by
  rw [← isSome_toNative encoding, ← isSome_toNative encoding, spanToNative]
  cases toNative encoding text bytes.start with
  | none => rfl
  | some start => cases toNative encoding text bytes.stop <;> rfl

end Text

end TreeLens
