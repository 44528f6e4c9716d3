import Mathlib.Data.List.Induction
import TreeLens.Proofs.Text.Slices
import TreeLens.Text.Line

/-!
# Places in a text

A place is found by walking over the characters before an offset. In bytes it can be
said without a walk: the bytes before the offset are whole lines, each with a line feed
at its end, and the beginning of one more line. The number of line feeds gives the line,
the length of the beginning gives the column. Every character moves the place forward,
so places come in the order of their offsets.
-/

namespace TreeLens.Text

namespace Place

variable {first second third : Place}

/-- One place comes before another: on an earlier line, or further left on the same line. -/
def Precedes (first second : Place) : Prop :=
  first.line < second.line ∨ first.line = second.line ∧ first.column < second.column

instance (first second : Place) : Decidable (first.Precedes second) :=
  inferInstanceAs (Decidable (_ ∨ _ ∧ _))

theorem Precedes.trans (low : first.Precedes second) (high : second.Precedes third) :
    first.Precedes third := by
  simp only [Precedes] at low high ⊢
  omega

theorem Precedes.asymm (low : first.Precedes second) : ¬second.Precedes first := by
  simp only [Precedes] at low ⊢
  omega

/-- Every character moves the place forward. -/
theorem precedes_advance (place : Place) (char : Char) : place.Precedes (place.advance char) := by
  have positive := Char.utf8Size_pos char
  simp only [Precedes, advance]
  split
  · exact Or.inl (Nat.lt_succ_self _)
  · exact Or.inr ⟨rfl, Nat.lt_add_of_pos_right positive⟩

theorem precedes_foldl_advance (place : Place) {run : List Char} (notEmpty : run ≠ []) :
    place.Precedes (run.foldl advance place) := by
  induction run generalizing place with
  | nil => contradiction
  | cons char rest ih =>
    have step := place.precedes_advance char
    by_cases ends : rest = []
    · rw [ends]
      exact step
    · exact step.trans (ih (place.advance char) ends)

/-- The characters before a place are whole lines and the beginning of one more. -/
theorem exists_last_line (run : List Char) :
    ∃ whole last : List Char, whole ++ last = run ∧ (whole = [] ∨ whole.getLast? = some '\n') ∧
      '\n' ∉ last ∧
      run.foldl advance origin = ⟨run.count '\n' + 1, Encoding.utf8.runLength last + 1⟩ := by
  induction run using List.reverseRecOn with
  | nil => exact ⟨[], [], rfl, Or.inl rfl, by simp, rfl⟩
  | append_singleton run char ih =>
    obtain ⟨whole, last, rfl, ended, oneLine, place⟩ := ih
    rw [List.foldl_append, place, List.count_append]
    by_cases feed : char = '\n'
    · subst feed
      exact ⟨whole ++ last ++ ['\n'], [], by simp, Or.inr (by simp), by simp,
        by simp [advance, Nat.add_assoc]⟩
    · refine ⟨whole, last ++ [char], by simp, ended, ?_, ?_⟩
      · simpa [oneLine] using Ne.symm feed
      · simp [advance, feed, Encoding.unitLength, Nat.add_right_comm]

end Place

/-! ## Line feeds among the bytes -/

/-- A line feed is the only character with a byte ten. -/
theorem feed_mem_utf8EncodeChar_iff {char : Char} :
    10 ∈ String.utf8EncodeChar char ↔ char = '\n' := by
  have residue : ∀ value : Nat, 10 = UInt8.ofNat value → value % 256 = 10 := by
    intro value equal
    exact UInt8.toNat_ofNat'.symm.trans (congrArg UInt8.toNat equal.symm)
  constructor
  · intro member
    rw [String.utf8EncodeChar] at member
    split at member
    case isTrue ascii =>
      have same := residue _ (List.mem_singleton.mp member)
      apply Char.ext
      apply UInt32.toNat_inj.mp
      change char.val.toNat = 10
      omega
    case isFalse =>
      -- All bytes of a longer character are at least 128.
      exfalso
      split at member
      · simp only [List.mem_cons, List.not_mem_nil, or_false] at member
        rcases member with equal | equal <;> · have := residue _ equal; omega
      · split at member
        · simp only [List.mem_cons, List.not_mem_nil, or_false] at member
          rcases member with equal | equal | equal <;> · have := residue _ equal; omega
        · simp only [List.mem_cons, List.not_mem_nil, or_false] at member
          rcases member with equal | equal | equal | equal <;> · have := residue _ equal; omega
  · rintro rfl
    decide

theorem count_utf8EncodeChar (char : Char) :
    (String.utf8EncodeChar char).count 10 = if char = '\n' then 1 else 0 := by
  split
  case isTrue feed =>
    subst feed
    decide
  case isFalse other => exact List.count_eq_zero.mpr (mt feed_mem_utf8EncodeChar_iff.mp other)

theorem count_flatMap_utf8EncodeChar (run : List Char) :
    (run.flatMap String.utf8EncodeChar).count 10 = run.count '\n' := by
  induction run with
  | nil => rfl
  | cons char rest ih =>
    rw [List.flatMap_cons, List.count_append, count_utf8EncodeChar, ih, List.count_cons]
    simp [Nat.add_comm]

theorem length_flatMap_utf8EncodeChar (run : List Char) :
    (run.flatMap String.utf8EncodeChar).length = Encoding.utf8.runLength run := by
  induction run with
  | nil => rfl
  | cons char rest ih =>
    rw [List.flatMap_cons, List.length_append, String.length_utf8EncodeChar, ih,
      Encoding.runLength_cons]
    rfl

/-- The bytes before a boundary are those of the characters before it. -/
theorem take_bytes {text : String} {before after : List Char}
    (joined : before ++ after = text.toList) :
    (bytes text).take (Encoding.utf8.runLength before) =
      before.flatMap String.utf8EncodeChar := by
  rw [bytes, ← joined, List.flatMap_append, ← length_flatMap_utf8EncodeChar, List.take_left]

/-! ## Places by bytes -/

/-- A place in a text by the bytes before it: the line counts the line feeds, the column
counts the bytes after the last of them. Both are counted from one. -/
structure IsPlace (text : String) (offset : Nat) (place : Place) : Prop where
  line_eq : place.line = ((bytes text).take offset).count 10 + 1
  column_eq : ∃ whole last : List UInt8, whole ++ last = (bytes text).take offset ∧
    (whole = [] ∨ whole.getLast? = some 10) ∧ 10 ∉ last ∧ place.column = last.length + 1

variable {text : String} {offset : Nat} {place : Place}

theorem place?_eq_some_iff :
    LineIndex.place? ⟨text⟩ offset = some place ↔
      ∃ before after, before ++ after = text.toList ∧
        Encoding.utf8.runLength before = offset ∧
        before.foldl Place.advance Place.origin = place := by
  rw [LineIndex.place?, Option.map_eq_some_iff]
  constructor
  · rintro ⟨⟨before, after⟩, divided, found⟩
    obtain ⟨joined, length⟩ := splitAt?_eq_some_iff.mp divided
    exact ⟨before, after, joined, length, found⟩
  · rintro ⟨before, after, joined, length, found⟩
    exact ⟨(before, after), splitAt?_eq_some_iff.mpr ⟨joined, length⟩, found⟩

theorem exists_place?_of_isBoundary (boundary : isBoundary text offset = true) :
    ∃ place, LineIndex.place? ⟨text⟩ offset = some place := by
  obtain ⟨before, after, joined, length⟩ := isBoundary_iff.mp boundary
  exact ⟨_, place?_eq_some_iff.mpr ⟨before, after, joined, length, rfl⟩⟩

theorem isPlace_of_place? (found : LineIndex.place? ⟨text⟩ offset = some place) :
    IsPlace text offset place := by
  obtain ⟨before, after, joined, rfl, rfl⟩ := place?_eq_some_iff.mp found
  obtain ⟨whole, last, divided, ended, oneLine, placeEq⟩ := Place.exists_last_line before
  rw [placeEq]
  constructor
  case line_eq => rw [take_bytes joined, count_flatMap_utf8EncodeChar]
  case column_eq =>
    refine ⟨whole.flatMap String.utf8EncodeChar, last.flatMap String.utf8EncodeChar, ?_, ?_, ?_, ?_⟩
    · rw [take_bytes joined, ← divided, List.flatMap_append]
    · rcases ended with rfl | endsInFeed
      · exact Or.inl rfl
      · obtain ⟨earlier, rfl⟩ := List.getLast?_eq_some_iff.mp endsInFeed
        right
        rw [List.flatMap_append]
        exact List.getLast?_append
    · rw [List.mem_flatMap]
      rintro ⟨char, member, isFeed⟩
      exact oneLine (feed_mem_utf8EncodeChar_iff.mp isFeed ▸ member)
    · rw [length_flatMap_utf8EncodeChar]

/-- Neither the line nor the column is larger than the number of bytes before the place, but
for the one that both begin with. -/
theorem IsPlace.le_succ (isPlace : IsPlace text offset place) :
    place.line ≤ offset + 1 ∧ place.column ≤ offset + 1 := by
  obtain ⟨lineEq, whole, last, divided, -, -, columnEq⟩ := isPlace
  have feeds : ((bytes text).take offset).count 10 ≤ ((bytes text).take offset).length :=
    List.count_le_length
  have taken : ((bytes text).take offset).length ≤ offset := List.length_take_le _ _
  have joined := congrArg List.length divided
  rw [List.length_append] at joined
  omega

theorem precedes_of_lt {first second : Nat} {firstPlace secondPlace : Place}
    (firstFound : LineIndex.place? ⟨text⟩ first = some firstPlace)
    (secondFound : LineIndex.place? ⟨text⟩ second = some secondPlace)
    (earlier : first < second) : firstPlace.Precedes secondPlace := by
  obtain ⟨before, rest, joined, rfl, rfl⟩ := place?_eq_some_iff.mp firstFound
  obtain ⟨longer, after, otherJoined, rfl, rfl⟩ := place?_eq_some_iff.mp secondFound
  rcases List.append_eq_append_iff.mp (joined.trans otherJoined.symm) with
    ⟨more, rfl, -⟩ | ⟨more, rfl, -⟩
  · rw [List.foldl_append]
    apply Place.precedes_foldl_advance
    rintro rfl
    simp at earlier
  · rw [Encoding.runLength_append] at earlier
    omega

/-- Places come in the order of their offsets. -/
theorem precedes_iff_lt {first second : Nat} {firstPlace secondPlace : Place}
    (firstFound : LineIndex.place? ⟨text⟩ first = some firstPlace)
    (secondFound : LineIndex.place? ⟨text⟩ second = some secondPlace) :
    firstPlace.Precedes secondPlace ↔ first < second := by
  constructor
  · intro precedes
    by_contra notEarlier
    rcases Nat.eq_or_lt_of_le (Nat.not_lt.mp notEarlier) with rfl | later
    · rw [firstFound, Option.some.injEq] at secondFound
      subst secondFound
      exact precedes.asymm precedes
    · exact precedes.asymm (precedes_of_lt secondFound firstFound later)
  · exact precedes_of_lt firstFound secondFound

end TreeLens.Text
