import TreeLens.Proofs.Text.Inverse

/-!
# Slices between character boundaries

An offset is a character boundary when a run of first characters ends there.
The bytes inside a character all have their highest bit set, so wherever a plain
ASCII byte stands, a character begins. Between two boundaries lie whole
characters, and a slice is these; slices that follow each other make up the slice
from the first boundary to the last.
-/

namespace TreeLens

namespace Text

/-- A boundary is where a run of first characters ends. -/
theorem isBoundary_iff {text : String} {offset : Nat} :
    isBoundary text offset = true ↔
      ∃ before after, before ++ after = text.toList ∧
        Encoding.utf8.runLength before = offset := by
  rw [isBoundary, Option.isSome_iff_exists]
  constructor
  · rintro ⟨⟨before, after⟩, divided⟩
    exact ⟨before, after, splitAt?_eq_some_iff.mp divided⟩
  · rintro ⟨before, after, joined⟩
    exact ⟨(before, after), splitAt?_eq_some_iff.mpr joined⟩

theorem isBoundary_zero (text : String) : isBoundary text 0 = true :=
  isBoundary_iff.mpr ⟨[], text.toList, rfl, rfl⟩

theorem isBoundary_utf8ByteSize (text : String) :
    isBoundary text text.utf8ByteSize = true :=
  isBoundary_iff.mpr ⟨text.toList, [], List.append_nil _,
    (Encoding.utf8.textLength_eq_runLength text).symm⟩

/-- No boundary lies past the end. -/
theorem le_utf8ByteSize_of_isBoundary {text : String} {offset : Nat}
    (boundary : isBoundary text offset = true) : offset ≤ text.utf8ByteSize := by
  have mapped : toByte .utf8 text offset = some offset := by simp [toByte, boundary]
  exact le_textLength_of_toByte mapped

theorem le_utf8ByteSize_of_toByte {encoding : Encoding} {text : String} {native byte : Nat}
    (mapped : toByte encoding text native = some byte) : byte ≤ text.utf8ByteSize := by
  apply le_utf8ByteSize_of_isBoundary
  rw [← isSome_toNative encoding, toByte_eq_some_iff.mp mapped]
  rfl

theorem isBoundary_max {text : String} {first second : Nat}
    (firstBoundary : isBoundary text first = true)
    (secondBoundary : isBoundary text second = true) :
    isBoundary text (max first second) = true := by
  rcases Nat.le_total first second with ordered | ordered
  · rwa [Nat.max_eq_right ordered]
  · rwa [Nat.max_eq_left ordered]

theorem isBoundary_min {text : String} {first second : Nat}
    (firstBoundary : isBoundary text first = true)
    (secondBoundary : isBoundary text second = true) :
    isBoundary text (min first second) = true := by
  rcases Nat.le_total first second with ordered | ordered
  · rwa [Nat.min_eq_left ordered]
  · rwa [Nat.min_eq_right ordered]

/-! ## Bytes inside a character -/

/-- The bytes of a character after its first one are no ASCII bytes. -/
theorem le_of_mem_tail_utf8EncodeChar {char : Char} {byte : UInt8}
    (member : byte ∈ (String.utf8EncodeChar char).tail) : 128 ≤ byte := by
  have high : ∀ value : Nat, 128 ≤ UInt8.ofNat (value % 64 + 128) := by
    intro value
    rw [UInt8.le_iff_toNat_le, UInt8.toNat_ofNat']
    change 128 ≤ _
    omega
  unfold String.utf8EncodeChar at member
  dsimp only at member
  split at member
  · contradiction
  · split at member
    · simp only [List.tail_cons, List.mem_singleton] at member
      exact member ▸ high _
    · split at member
      · simp only [List.tail_cons, List.mem_cons, List.not_mem_nil, or_false] at member
        rcases member with rfl | rfl <;> exact high _
      · simp only [List.tail_cons, List.mem_cons, List.not_mem_nil, or_false] at member
        rcases member with rfl | rfl | rfl <;> exact high _

theorem isSome_splitAt?_of_getElem? {chars : List Char} {offset : Nat} {byte : UInt8}
    (found : (chars.flatMap String.utf8EncodeChar)[offset]? = some byte) (ascii : byte < 128) :
    (splitAt? offset chars).isSome := by
  induction chars generalizing offset with
  | nil => contradiction
  | cons char chars ih =>
    cases offset with
    | zero => rfl
    | succ offset =>
      rw [splitAt?]
      rw [List.flatMap_cons, List.getElem?_append, String.length_utf8EncodeChar] at found
      by_cases inChar : offset + 1 < char.utf8Size
      · rw [if_pos inChar, ← List.getElem?_tail] at found
        have high := le_of_mem_tail_utf8EncodeChar (List.mem_of_getElem? found)
        exact absurd ascii (UInt8.not_lt.mpr high)
      · rw [if_neg inChar] at found
        rw [if_pos (Nat.not_lt.mp inChar), Option.isSome_map]
        exact ih found

/-- Where an ASCII byte stands, a character begins. -/
theorem isBoundary_of_bytes_getElem? {text : String} {offset : Nat} {byte : UInt8}
    (found : (bytes text)[offset]? = some byte) (ascii : byte < 128) :
    isBoundary text offset = true :=
  isSome_splitAt?_of_getElem? found ascii

/-! ## Slices -/

/-- Between two boundaries lies a run of characters. -/
theorem exists_run_between {text : String} {first second : Nat}
    (firstBoundary : isBoundary text first = true) (secondBoundary : isBoundary text second = true)
    (ordered : first ≤ second) :
    ∃ before inside after, before ++ inside ++ after = text.toList ∧
      Encoding.utf8.runLength before = first ∧
      Encoding.utf8.runLength before + Encoding.utf8.runLength inside = second := by
  obtain ⟨before, rest, joined, rfl⟩ := isBoundary_iff.mp firstBoundary
  obtain ⟨longer, after, otherJoined, rfl⟩ := isBoundary_iff.mp secondBoundary
  rcases List.append_eq_append_iff.mp (joined.trans otherJoined.symm) with
    ⟨inside, rfl, -⟩ | ⟨more, rfl, -⟩
  · exact ⟨before, inside, after, otherJoined, rfl, (Encoding.runLength_append ..).symm⟩
  · -- The first boundary is not the later one, so there is nothing more before it.
    rw [Encoding.runLength_append] at ordered
    have noMore : more = [] := by
      rw [← Encoding.runLength_eq_zero_iff Encoding.utf8]
      omega
    subst noMore
    exact ⟨longer ++ [], [], rest, by rwa [List.append_nil (longer ++ [])], rfl, by simp⟩

/-- The slice that begins after a run of characters and is as long as the next run
is that run. -/
theorem slice_of_append {text : String} {before inside after : List Char}
    (joined : before ++ inside ++ after = text.toList) :
    slice text ⟨Encoding.utf8.runLength before,
      Encoding.utf8.runLength before + Encoding.utf8.runLength inside⟩ =
        String.ofList inside := by
  have first : splitAt? (Encoding.utf8.runLength before) text.toList =
      some (before, inside ++ after) :=
    splitAt?_eq_some_iff.mpr ⟨by rw [← joined, List.append_assoc], rfl⟩
  have second : splitAt? (Encoding.utf8.runLength inside) (inside ++ after) =
      some (inside, after) := splitAt?_eq_some_iff.mpr ⟨rfl, rfl⟩
  simp [slice, slice?, first, second]

/-- Two slices that meet at a boundary make up one. -/
theorem slice_append {text : String} {first middle last : Nat}
    (firstBoundary : isBoundary text first = true)
    (middleBoundary : isBoundary text middle = true)
    (lastBoundary : isBoundary text last = true)
    (early : first ≤ middle) (late : middle ≤ last) :
    slice text ⟨first, middle⟩ ++ slice text ⟨middle, last⟩ = slice text ⟨first, last⟩ := by
  obtain ⟨before, inside, rest, joined, rfl, rfl⟩ :=
    exists_run_between firstBoundary middleBoundary early
  obtain ⟨longer, next, after, otherJoined, sameLength, rfl⟩ :=
    exists_run_between middleBoundary lastBoundary late
  -- Both runs end at the boundary in the middle, so they are the same run.
  have onePlace : splitAt? (Encoding.utf8.runLength (before ++ inside)) text.toList =
      some (before ++ inside, rest) := splitAt?_eq_some_iff.mpr ⟨joined, rfl⟩
  have otherPlace : splitAt? (Encoding.utf8.runLength (before ++ inside)) text.toList =
      some (longer, next ++ after) := by
    rw [splitAt?_eq_some_iff, ← List.append_assoc, sameLength, Encoding.runLength_append]
    exact ⟨otherJoined, rfl⟩
  rw [onePlace, Option.some.injEq, Prod.mk.injEq] at otherPlace
  obtain ⟨rfl, rfl⟩ := otherPlace
  have middleSlice := slice_of_append otherJoined
  have wholeSlice : slice text ⟨Encoding.utf8.runLength before,
      Encoding.utf8.runLength before + Encoding.utf8.runLength (inside ++ next)⟩ =
        String.ofList (inside ++ next) :=
    slice_of_append (by simpa using joined)
  rw [Encoding.runLength_append] at middleSlice wholeSlice
  rw [slice_of_append joined, Encoding.runLength_append, middleSlice, Nat.add_assoc, wholeSlice,
    String.ofList_append]

/-- A slice between boundaries has all the bytes between them. -/
theorem utf8ByteSize_slice {text : String} {first last : Nat}
    (firstBoundary : isBoundary text first = true) (lastBoundary : isBoundary text last = true)
    (ordered : first ≤ last) : (slice text ⟨first, last⟩).utf8ByteSize = last - first := by
  obtain ⟨before, inside, after, joined, rfl, rfl⟩ :=
    exists_run_between firstBoundary lastBoundary ordered
  have length := Encoding.utf8.textLength_eq_runLength (String.ofList inside)
  rw [String.toList_ofList] at length
  rw [slice_of_append joined, Nat.add_sub_cancel_left]
  exact length

/-- The slice of the whole text is the text. -/
theorem slice_all (text : String) : slice text ⟨0, text.utf8ByteSize⟩ = text := by
  have whole := @slice_of_append text [] text.toList [] (List.append_nil _)
  have length : Encoding.utf8.runLength text.toList = text.utf8ByteSize :=
    (Encoding.utf8.textLength_eq_runLength text).symm
  rw [Encoding.runLength_nil, Nat.zero_add, length, String.ofList_toList] at whole
  exact whole

end Text

end TreeLens
