import TreeLens.Text.Index

/-!
# Character boundaries

A byte offset divides a text exactly when some run of its first characters has
that many bytes. Stated so, the conversion of offsets needs no walk through the
text any more: a native index belongs to a byte offset when both measure the
same run of characters. Longer runs measure more, in every encoding, so the
conversion keeps the order of offsets and maps ordered spans to ordered spans.
-/

namespace TreeLens

namespace Encoding

@[simp]
theorem runLength_nil (encoding : Encoding) : encoding.runLength [] = 0 :=
  rfl

@[simp]
theorem runLength_cons (encoding : Encoding) (char : Char) (chars : List Char) :
    encoding.runLength (char :: chars) = encoding.unitLength char + encoding.runLength chars :=
  rfl

@[simp]
theorem runLength_append (encoding : Encoding) (first second : List Char) :
    encoding.runLength (first ++ second) =
      encoding.runLength first + encoding.runLength second := by
  induction first with
  | nil => simp
  | cons char chars ih =>
    rw [List.cons_append, runLength_cons, runLength_cons, ih, Nat.add_assoc]

/-- Only the empty run takes no units. -/
theorem runLength_eq_zero_iff (encoding : Encoding) (chars : List Char) :
    encoding.runLength chars = 0 ↔ chars = [] := by
  cases chars with
  | nil => simp
  | cons char chars =>
    have positive := encoding.unitLength_pos char
    rw [runLength_cons]
    constructor
    · intro zero
      omega
    · intro impossible
      contradiction

end Encoding

namespace Text

/-- A text is divided at an offset exactly into a run of that many bytes and
the rest. -/
theorem splitAt?_eq_some_iff {offset : Nat} {chars before after : List Char} :
    splitAt? offset chars = some (before, after) ↔
      before ++ after = chars ∧ Encoding.utf8.runLength before = offset := by
  induction chars generalizing offset before with
  | nil =>
    cases offset with
    | zero =>
      simp only [splitAt?, Option.some.injEq, Prod.mk.injEq, List.append_eq_nil_iff]
      constructor
      · rintro ⟨rfl, rfl⟩
        exact ⟨⟨rfl, rfl⟩, rfl⟩
      · rintro ⟨⟨rfl, rfl⟩, -⟩
        exact ⟨rfl, rfl⟩
    | succ offset =>
      simp only [splitAt?, reduceCtorEq, List.append_eq_nil_iff, false_iff]
      rintro ⟨⟨rfl, -⟩, length⟩
      simp at length
  | cons char chars ih =>
    have positive := Char.utf8Size_pos char
    cases offset with
    | zero =>
      simp only [splitAt?, Option.some.injEq, Prod.mk.injEq, Encoding.runLength_eq_zero_iff]
      constructor
      · rintro ⟨rfl, rfl⟩
        exact ⟨rfl, rfl⟩
      · rintro ⟨joined, rfl⟩
        exact ⟨rfl, joined.symm⟩
    | succ offset =>
      rw [splitAt?]
      constructor
      · intro divided
        split at divided
        · obtain ⟨⟨inner, rest⟩, innerDivided, equal⟩ := Option.map_eq_some_iff.mp divided
          cases equal
          obtain ⟨rfl, innerLength⟩ := ih.mp innerDivided
          refine ⟨rfl, ?_⟩
          rw [Encoding.runLength_cons, innerLength, Encoding.unitLength]
          omega
        · contradiction
      · rintro ⟨joined, length⟩
        cases before with
        | nil => simp at length
        | cons first inner =>
          obtain ⟨rfl, innerJoined⟩ := List.cons.inj joined
          rw [Encoding.runLength_cons, Encoding.unitLength] at length
          have innerDivided := ih.mpr ⟨innerJoined,
            show Encoding.utf8.runLength inner = offset + 1 - first.utf8Size by omega⟩
          rw [if_pos (by omega), innerDivided]
          rfl

/-- In every encoding the native index of an offset is found by adding up the
units of the characters before it, also where no sum is needed. -/
theorem toNative_eq_map_splitAt? (encoding : Encoding) (text : String) (offset : Nat) :
    toNative encoding text offset =
      (splitAt? offset text.toList).map fun division => encoding.runLength division.1 := by
  cases encoding with
  | utf8 =>
    cases divided : splitAt? offset text.toList with
    | none => simp [toNative, isBoundary, divided]
    | some division =>
      obtain ⟨-, length⟩ := splitAt?_eq_some_iff.mp divided
      simp [toNative, isBoundary, divided, length]
  | utf16 => rfl
  | utf32 => rfl

/-- A byte offset has a native index exactly when both measure the same first
characters of the text. -/
theorem toNative_eq_some_iff {encoding : Encoding} {text : String} {offset native : Nat} :
    toNative encoding text offset = some native ↔
      ∃ before after, before ++ after = text.toList ∧
        Encoding.utf8.runLength before = offset ∧ encoding.runLength before = native := by
  rw [toNative_eq_map_splitAt?, Option.map_eq_some_iff]
  constructor
  · rintro ⟨⟨before, after⟩, divided, measured⟩
    obtain ⟨joined, length⟩ := splitAt?_eq_some_iff.mp divided
    exact ⟨before, after, joined, length, measured⟩
  · rintro ⟨before, after, joined, length, measured⟩
    exact ⟨(before, after), splitAt?_eq_some_iff.mpr ⟨joined, length⟩, measured⟩

/-- Converting byte offsets to native indices keeps their order. -/
theorem toNative_mono {encoding : Encoding} {text : String}
    {firstByte secondByte first second : Nat}
    (firstMapped : toNative encoding text firstByte = some first)
    (secondMapped : toNative encoding text secondByte = some second)
    (ordered : firstByte ≤ secondByte) : first ≤ second := by
  obtain ⟨firstRun, firstRest, firstJoined, firstBytes, rfl⟩ :=
    toNative_eq_some_iff.mp firstMapped
  obtain ⟨secondRun, secondRest, secondJoined, secondBytes, rfl⟩ :=
    toNative_eq_some_iff.mp secondMapped
  -- Both runs begin the same text, so one of them begins the other.
  rcases List.append_eq_append_iff.mp (firstJoined.trans secondJoined.symm) with
    ⟨more, rfl, -⟩ | ⟨more, rfl, -⟩
  · rw [Encoding.runLength_append]
    exact Nat.le_add_right _ _
  · rw [Encoding.runLength_append] at firstBytes
    have noMore : more = [] := by
      rw [← Encoding.runLength_eq_zero_iff Encoding.utf8]
      omega
    have sameRun : secondRun ++ more = secondRun := by
      rw [noMore, List.append_nil]
    exact Nat.le_of_eq (congrArg encoding.runLength sameRun)

/-- A span that does not run backwards is shown as one that does not. -/
theorem spanToNative_ordered {encoding : Encoding} {text : String} {span native : Span}
    (mapped : spanToNative encoding text span = some native) (ordered : span.Ordered) :
    native.Ordered := by
  simp only [spanToNative, Option.bind_eq_bind, Option.bind_eq_some_iff] at mapped
  obtain ⟨start, startMapped, stop, stopMapped, equal⟩ := mapped
  cases equal
  exact toNative_mono startMapped stopMapped ordered

end Text

end TreeLens
