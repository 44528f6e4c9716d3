import Mathlib.Data.List.Forall2
import TreeLens.Proofs.Text.Inverse
import TreeLens.Selection.Ranges

/-!
# One selection in two encodings

A native index of one encoding and one of another belong together when they are
those of the same byte offset. Such pairs are ordered alike: one index comes
before another exactly when their partners do. So everything a selection is put
through that looks only at the order of indices gives partners again: flipping a
span, putting spans in order, joining them, and taking the span from the
smallest start to the largest stop.
-/

namespace TreeLens

namespace Text

/-- Two native indices, each in its own encoding, of one byte offset. -/
def SameByte (source : String) (first second : Encoding) (left right : Nat) : Prop :=
  ∃ byte, toNative first source byte = some left ∧ toNative second source byte = some right

variable {source : String} {first second : Encoding}

/-- Pairs of indices are ordered alike. -/
theorem SameByte.le_iff {left right left' right' : Nat}
    (low : SameByte source first second left right)
    (high : SameByte source first second left' right') : left ≤ left' ↔ right ≤ right' := by
  obtain ⟨lowByte, lowFirst, lowSecond⟩ := low
  obtain ⟨highByte, highFirst, highSecond⟩ := high
  rw [toNative_le_iff lowFirst highFirst, toNative_le_iff lowSecond highSecond]

theorem SameByte.lt_iff {left right left' right' : Nat}
    (low : SameByte source first second left right)
    (high : SameByte source first second left' right') : left < left' ↔ right < right' := by
  rw [← Nat.not_le, ← Nat.not_le, high.le_iff low]

theorem SameByte.eq_iff {left right left' right' : Nat}
    (one : SameByte source first second left right)
    (other : SameByte source first second left' right') : left = left' ↔ right = right' := by
  rw [Nat.le_antisymm_iff, Nat.le_antisymm_iff, one.le_iff other, other.le_iff one]

/-- A choice that depends on the order of two indices falls alike for their partners. -/
theorem SameByte.ite_le {left right left' right' yes yes' no no' : Nat}
    (one : SameByte source first second left right)
    (other : SameByte source first second left' right')
    (ordered : SameByte source first second yes yes')
    (reversed : SameByte source first second no no') :
    SameByte source first second (if left ≤ left' then yes else no)
      (if right ≤ right' then yes' else no') := by
  rw [if_congr (one.le_iff other) rfl rfl]
  split
  · exact ordered
  · exact reversed

theorem SameByte.min {left right left' right' : Nat}
    (one : SameByte source first second left right)
    (other : SameByte source first second left' right') :
    SameByte source first second (min left left') (min right right') := by
  rw [Nat.min_def, Nat.min_def]
  exact one.ite_le other one other

theorem SameByte.max {left right left' right' : Nat}
    (one : SameByte source first second left right)
    (other : SameByte source first second left' right') :
    SameByte source first second (max left left') (max right right') := by
  rw [Nat.max_def, Nat.max_def]
  exact one.ite_le other other one

/-- Both indices lead back to the one byte offset. -/
theorem SameByte.exists_toByte {left right : Nat}
    (same : SameByte source first second left right) :
    ∃ byte, toByte first source left = some byte ∧ toByte second source right = some byte := by
  obtain ⟨byte, leftMapped, rightMapped⟩ := same
  exact ⟨byte, toByte_eq_some_iff.mpr leftMapped, toByte_eq_some_iff.mpr rightMapped⟩

/-- Two native spans, each in its own encoding, of one span of bytes whose
bounds are character boundaries. -/
def SameBytes (source : String) (first second : Encoding) (left right : Span) : Prop :=
  ∃ bytes, spanToNative first source bytes = some left ∧
    spanToNative second source bytes = some right

theorem sameBytes_iff {left right : Span} :
    SameBytes source first second left right ↔
      SameByte source first second left.start right.start ∧
        SameByte source first second left.stop right.stop := by
  constructor
  · rintro ⟨bytes, leftWritten, rightWritten⟩
    obtain ⟨leftStart, leftStop⟩ := spanToNative_eq_some_iff.mp leftWritten
    obtain ⟨rightStart, rightStop⟩ := spanToNative_eq_some_iff.mp rightWritten
    exact ⟨⟨bytes.start, leftStart, rightStart⟩, ⟨bytes.stop, leftStop, rightStop⟩⟩
  · rintro ⟨⟨start, leftStart, rightStart⟩, ⟨stop, leftStop, rightStop⟩⟩
    exact ⟨⟨start, stop⟩, spanToNative_eq_some_iff.mpr ⟨leftStart, leftStop⟩,
      spanToNative_eq_some_iff.mpr ⟨rightStart, rightStop⟩⟩

theorem SameBytes.start {left right : Span} (same : SameBytes source first second left right) :
    SameByte source first second left.start right.start :=
  (sameBytes_iff.mp same).1

theorem SameBytes.stop {left right : Span} (same : SameBytes source first second left right) :
    SameByte source first second left.stop right.stop :=
  (sameBytes_iff.mp same).2

theorem SameBytes.flip {left right : Span} (same : SameBytes source first second left right) :
    SameBytes source first second left.flip right.flip :=
  sameBytes_iff.mpr ⟨same.start.min same.stop, same.start.max same.stop⟩

theorem SameBytes.eq_iff {left right left' right' : Span}
    (one : SameBytes source first second left right)
    (other : SameBytes source first second left' right') : left = left' ↔ right = right' := by
  rw [Span.ext_iff, Span.ext_iff, one.start.eq_iff other.start, one.stop.eq_iff other.stop]

theorem SameBytes.precedes_eq {left right left' right' : Span}
    (one : SameBytes source first second left right)
    (other : SameBytes source first second left' right') :
    left.precedes left' = right.precedes right' := by
  rw [Bool.eq_iff_iff, Span.precedes_iff, Span.precedes_iff, one.start.lt_iff other.start,
    one.start.eq_iff other.start, one.stop.le_iff other.stop]

/-- A span of bytes is written in both encodings or in neither. -/
theorem rel_spanToNative (source : String) (first second : Encoding) (bytes : Span) :
    Option.Rel (SameBytes source first second) (spanToNative first source bytes)
      (spanToNative second source bytes) := by
  have alike : (spanToNative first source bytes).isSome =
      (spanToNative second source bytes).isSome := by
    rw [isSome_spanToNative, isSome_spanToNative]
  cases leftWritten : spanToNative first source bytes with
  | none =>
    cases rightWritten : spanToNative second source bytes with
    | none => exact .none
    | some right => simp [leftWritten, rightWritten] at alike
  | some left =>
    cases rightWritten : spanToNative second source bytes with
    | none => simp [leftWritten, rightWritten] at alike
    | some right => exact .some ⟨bytes, leftWritten, rightWritten⟩

end Text

/-- Lists that correspond stay so when they are put in order, if their elements
compare alike. -/
theorem forall₂_mergeSort {α β : Type} {R : α → β → Prop} {r : α → α → Bool} {s : β → β → Bool}
    {left : List α} {right : List β}
    (related : List.Forall₂ R left right)
    (alike : ∀ {a a' b b'}, R a b → R a' b' → r a a' = s b b') :
    List.Forall₂ R (left.mergeSort r) (right.mergeSort s) := by
  -- Sort the pairs, and read both sorted lists off them.
  obtain ⟨lengths, pairs⟩ := List.forall₂_iff_zip.mp related
  have pairs : ∀ pair ∈ left.zip right, R pair.1 pair.2 := fun pair member => pairs member
  have leftSorted : left.mergeSort r =
      ((left.zip right).mergeSort fun one other => r one.1 other.1).map Prod.fst := by
    rw [List.map_mergeSort (f := Prod.fst) (s := r) fun _ _ _ _ => rfl,
      List.map_fst_zip (Nat.le_of_eq lengths)]
  have rightSorted : right.mergeSort s =
      ((left.zip right).mergeSort fun one other => r one.1 other.1).map Prod.snd := by
    rw [List.map_mergeSort (f := Prod.snd) (s := s) fun one oneMem other otherMem =>
      alike (pairs one oneMem) (pairs other otherMem),
      List.map_snd_zip (Nat.le_of_eq lengths.symm)]
  rw [leftSorted, rightSorted, List.forall₂_map_left_iff, List.forall₂_map_right_iff,
    List.forall₂_same]
  intro pair member
  exact pairs pair (List.mem_mergeSort.mp member)

namespace TextSelection

/-- Two selections, each in its own encoding, of the same spans of bytes. -/
def SameBytes (source : String) (first second : Encoding) (left right : TextSelection) : Prop :=
  List.Forall₂ (Text.SameBytes source first second) left.ranges right.ranges

variable {source : String} {first second : Encoding} {left right : TextSelection}

theorem sameBytes_joinFrom {last last' : Span} {rest rest' : List Span}
    (lasts : Text.SameBytes source first second last last')
    (rests : List.Forall₂ (Text.SameBytes source first second) rest rest') :
    List.Forall₂ (Text.SameBytes source first second) (joinFrom last rest)
      (joinFrom last' rest') := by
  induction rests generalizing last last' with
  | nil => exact .cons lasts .nil
  | @cons next next' rest rest' nexts rests ih =>
    have meets : last = next ∨ next.start < last.stop ↔
        last' = next' ∨ next'.start < last'.stop := by
      rw [lasts.eq_iff nexts, nexts.start.lt_iff lasts.stop]
    rw [joinFrom, joinFrom]
    by_cases joined : last = next ∨ next.start < last.stop
    · rw [if_pos joined, if_pos (meets.mp joined)]
      apply ih
      exact Text.sameBytes_iff.mpr ⟨lasts.start, lasts.stop.max nexts.stop⟩
    · rw [if_neg joined, if_neg (mt meets.mpr joined)]
      exact .cons lasts (ih nexts)

theorem sameBytes_join {spans spans' : List Span}
    (same : List.Forall₂ (Text.SameBytes source first second) spans spans') :
    List.Forall₂ (Text.SameBytes source first second) (join spans) (join spans') := by
  cases same with
  | nil => exact .nil
  | cons firsts rests => exact sameBytes_joinFrom firsts rests

/-- Normalising the same spans of bytes in two encodings gives the same spans of
bytes. -/
theorem SameBytes.ofSpans (same : SameBytes source first second left right) :
    SameBytes source first second (ofSpans left.ranges) (ofSpans right.ranges) := by
  have flipped : List.Forall₂ (Text.SameBytes source first second)
      (left.ranges.map Span.flip) (right.ranges.map Span.flip) := by
    rw [List.forall₂_map_left_iff, List.forall₂_map_right_iff]
    exact same.imp fun _ _ spans => spans.flip
  exact sameBytes_join (forall₂_mergeSort flipped Text.SameBytes.precedes_eq)

theorem sameBytes_single {left right : Span} :
    SameBytes source first second (single left) (single right) ↔
      Text.SameBytes source first second left right := by
  simp [SameBytes, single]

/-- Selections are told apart alike in both encodings. -/
theorem SameBytes.eq_iff {left' right' : TextSelection}
    (one : SameBytes source first second left right)
    (other : SameBytes source first second left' right') : left = left' ↔ right = right' := by
  rw [TextSelection.ext_iff, TextSelection.ext_iff]
  unfold SameBytes at one other
  constructor
  · intro equal
    rw [equal] at one
    apply List.right_unique_forall₂' _ one other
    intro span written written' same same'
    exact (same.eq_iff same').mp rfl
  · intro equal
    rw [equal] at one
    apply List.left_unique_forall₂' _ one other
    intro span span' written same same'
    exact (same.eq_iff same').mpr rfl

theorem SameBytes.first? (same : SameBytes source first second left right) :
    Option.Rel (Text.SameBytes source first second) left.first? right.first? := by
  rcases left with ⟨leftRanges⟩
  rcases right with ⟨rightRanges⟩
  cases same with
  | nil => exact .none
  | cons firsts _ => exact .some firsts

/-- What an operation that keeps partners together makes of some indices, one after the
other, is the partner of what it makes of theirs. -/
theorem rel_of_foldl {operation : Nat → Nat → Nat} {reduce? : List Nat → Option Nat}
    (empty : reduce? [] = none)
    (folds : ∀ head tail, reduce? (head :: tail) = some (tail.foldl operation head))
    (keeps : ∀ {left right left' right'}, Text.SameByte source first second left right →
      Text.SameByte source first second left' right' →
      Text.SameByte source first second (operation left left') (operation right right'))
    {lefts rights : List Nat}
    (same : List.Forall₂ (Text.SameByte source first second) lefts rights) :
    Option.Rel (Text.SameByte source first second) (reduce? lefts) (reduce? rights) := by
  cases same with
  | nil =>
    rw [empty]
    exact .none
  | cons heads tails =>
    rw [folds, folds]
    apply Option.Rel.some
    apply List.rel_foldl _ heads tails
    intro _ _ one _ _ other
    exact keeps one other

theorem SameBytes.hull? (same : SameBytes source first second left right) :
    Option.Rel (Text.SameBytes source first second) left.hull? right.hull? := by
  have starts : List.Forall₂ (Text.SameByte source first second)
      (left.ranges.map Span.start) (right.ranges.map Span.start) := by
    rw [List.forall₂_map_left_iff, List.forall₂_map_right_iff]
    exact same.imp fun _ _ spans => spans.start
  have stops : List.Forall₂ (Text.SameByte source first second)
      (left.ranges.map Span.stop) (right.ranges.map Span.stop) := by
    rw [List.forall₂_map_left_iff, List.forall₂_map_right_iff]
    exact same.imp fun _ _ spans => spans.stop
  unfold TextSelection.hull?
  have least := rel_of_foldl List.min?_nil (fun _ _ => List.min?_cons') Text.SameByte.min starts
  have greatest := rel_of_foldl List.max?_nil (fun _ _ => List.max?_cons') Text.SameByte.max stops
  generalize (left.ranges.map Span.start).min? = leftStart at least ⊢
  generalize (right.ranges.map Span.start).min? = rightStart at least ⊢
  generalize (left.ranges.map Span.stop).max? = leftStop at greatest ⊢
  generalize (right.ranges.map Span.stop).max? = rightStop at greatest ⊢
  cases least with
  | none => exact .none
  | some start =>
    cases greatest with
    | none => exact .none
    | some stop => exact .some (Text.sameBytes_iff.mpr ⟨start, start.max stop⟩)

end TextSelection

end TreeLens
