import Mathlib.Algebra.GroupWithZero.Nat
import TreeLens.Proofs.Text.Inverse

/-!
# Bytes and native units correspond

A run of first characters of a text has a length in native units and a length in
bytes. The two conversions relate exactly these pairs of lengths, so they are
inverse to each other and increasing, and refuse every other number: one that
ends inside a character or a surrogate pair, and one past the end. The shortest
run gives zero on both sides, the longest gives the length of the text.

Both ways of counting are general. That indices in bytes are only looked at and
not counted is a matter of speed.
-/

namespace TreeLens

namespace Encoding

theorem runLength_eq_sum (encoding : Encoding) (chars : List Char) :
    encoding.runLength chars = (chars.map encoding.unitLength).sum := by
  induction chars with
  | nil => rfl
  | cons char chars ih => rw [runLength_cons, ih, List.map_cons, List.sum_cons]

end Encoding

namespace Text

/-- Some run of first characters of a text takes so many native units and so many
bytes. -/
def Reaches (encoding : Encoding) (text : String) (native byte : Nat) : Prop :=
  ∃ run, run <+: text.toList ∧ (run.map encoding.unitLength).sum = native ∧
    (run.map Char.utf8Size).sum = byte

variable {encoding : Encoding} {text : String} {native byte : Nat}

/-- The conversion to native units relates the two lengths of a run. -/
theorem toNative_eq_some_iff_reaches :
    toNative encoding text byte = some native ↔ Reaches encoding text native byte := by
  have inBytes : ∀ run : List Char, (run.map Char.utf8Size).sum = Encoding.utf8.runLength run :=
    fun run => (Encoding.utf8.runLength_eq_sum run).symm
  simp only [toNative_eq_some_iff, Reaches, inBytes, ← Encoding.runLength_eq_sum]
  constructor
  · rintro ⟨before, after, joined, bytes, units⟩
    exact ⟨before, ⟨after, joined⟩, units, bytes⟩
  · rintro ⟨run, ⟨after, joined⟩, units, bytes⟩
    exact ⟨run, after, joined, bytes, units⟩

/-- The conversion to bytes relates the two lengths of a run. -/
theorem toByte_eq_some_iff_reaches :
    toByte encoding text native = some byte ↔ Reaches encoding text native byte :=
  toByte_eq_some_iff.trans toNative_eq_some_iff_reaches

/-- In every encoding the byte offset of an index is found by counting its units
down, also where no count is needed. -/
theorem toByte_eq_byteAfter (encoding : Encoding) (text : String) (native : Nat) :
    toByte encoding text native = byteAfter encoding native text.toList := by
  ext byte
  rw [toByte_eq_some_iff, toNative_eq_some_iff, byteAfter_eq_some_iff]
  simp only [and_comm]

/-- Longer runs are longer in both units. -/
theorem Reaches.lt_iff {native' byte' : Nat} (low : Reaches encoding text native byte)
    (high : Reaches encoding text native' byte') : native < native' ↔ byte < byte' := by
  rw [← toNative_eq_some_iff_reaches] at low high
  rw [← Nat.not_le, ← Nat.not_le, toNative_le_iff high low]

/-- The empty run. -/
theorem reaches_zero (encoding : Encoding) (text : String) : Reaches encoding text 0 0 :=
  ⟨[], List.nil_prefix, rfl, rfl⟩

/-- The run of all characters. -/
theorem reaches_textLength (encoding : Encoding) (text : String) :
    Reaches encoding text (encoding.textLength text) text.utf8ByteSize := by
  refine ⟨text.toList, List.prefix_refl _, ?_, ?_⟩
  · rw [encoding.textLength_eq_runLength, encoding.runLength_eq_sum]
  · rw [← Encoding.textLength, Encoding.textLength_eq_runLength, Encoding.runLength_eq_sum]
    rfl

/-- Converting spans is inverse in both directions. -/
theorem spanToBytes_eq_some_iff_spanToNative {native bytes : Span} :
    spanToBytes encoding text native = some bytes ↔
      spanToNative encoding text bytes = some native := by
  rw [spanToBytes_eq_some_iff, spanToNative_eq_some_iff, toByte_eq_some_iff, toByte_eq_some_iff]

/-- What it means that character boundaries in bytes and in native units are the
same, in the same order. -/
structure Corresponds (encoding : Encoding) (text : String) : Prop where
  /-- The two conversions are inverse to each other. -/
  inverse : ∀ native byte,
    toByte encoding text native = some byte ↔ toNative encoding text byte = some native
  /-- They relate the lengths of the runs of first characters and nothing else. -/
  exact : ∀ native byte,
    toNative encoding text byte = some native ↔ Reaches encoding text native byte
  toByte_eq_none_iff : ∀ native,
    toByte encoding text native = none ↔ ∀ byte, ¬Reaches encoding text native byte
  toNative_eq_none_iff : ∀ byte,
    toNative encoding text byte = none ↔ ∀ native, ¬Reaches encoding text native byte
  toByte_lt : ∀ first second low high, toByte encoding text first = some low →
    toByte encoding text second = some high → first < second → low < high
  toNative_lt : ∀ low high first second, toNative encoding text low = some first →
    toNative encoding text high = some second → low < high → first < second
  toByte_zero : toByte encoding text 0 = some 0
  toNative_zero : toNative encoding text 0 = some 0
  toByte_length : toByte encoding text (encoding.textLength text) = some text.utf8ByteSize
  toNative_length : toNative encoding text text.utf8ByteSize = some (encoding.textLength text)
  length_eq : encoding.textLength text = (text.toList.map encoding.unitLength).sum
  /-- A span of bytes whose bounds are lengths of runs comes back from native
  units. -/
  bytes_round : ∀ bytes : Span, (∃ native, Reaches encoding text native bytes.start) →
    (∃ native, Reaches encoding text native bytes.stop) →
    ∃ native, spanToNative encoding text bytes = some native ∧
      spanToBytes encoding text native = some bytes
  /-- A native span whose bounds are lengths of runs comes back from bytes. -/
  native_round : ∀ native : Span, (∃ byte, Reaches encoding text native.start byte) →
    (∃ byte, Reaches encoding text native.stop byte) →
    ∃ bytes, spanToBytes encoding text native = some bytes ∧
      spanToNative encoding text bytes = some native
  /-- No encoding needs a way of its own to find a byte offset. -/
  toByte_walk : ∀ native, toByte encoding text native = byteAfter encoding native text.toList
  /-- Nor to find a native index. -/
  toNative_walk : ∀ byte, toNative encoding text byte =
    (splitAt? byte text.toList).map fun division => encoding.runLength division.1

/-- In every encoding the character boundaries of every text correspond to byte
offsets, both ways and in order. -/
theorem corresponds (encoding : Encoding) (text : String) : Corresponds encoding text where
  inverse _ _ := toByte_eq_some_iff
  exact _ _ := toNative_eq_some_iff_reaches
  toByte_eq_none_iff native := by
    rw [Option.eq_none_iff_forall_ne_some]
    exact forall_congr' fun byte => not_congr toByte_eq_some_iff_reaches
  toNative_eq_none_iff byte := by
    rw [Option.eq_none_iff_forall_ne_some]
    exact forall_congr' fun native => not_congr toNative_eq_some_iff_reaches
  toByte_lt first second low high firstMapped secondMapped := by
    rw [toByte_eq_some_iff_reaches] at firstMapped secondMapped
    exact (firstMapped.lt_iff secondMapped).mp
  toNative_lt low high first second lowMapped highMapped := by
    rw [toNative_eq_some_iff_reaches] at lowMapped highMapped
    exact (lowMapped.lt_iff highMapped).mpr
  toByte_zero := toByte_eq_some_iff_reaches.mpr (reaches_zero encoding text)
  toNative_zero := toNative_eq_some_iff_reaches.mpr (reaches_zero encoding text)
  toByte_length := toByte_eq_some_iff_reaches.mpr (reaches_textLength encoding text)
  toNative_length := toNative_eq_some_iff_reaches.mpr (reaches_textLength encoding text)
  length_eq := by rw [encoding.textLength_eq_runLength, encoding.runLength_eq_sum]
  bytes_round bytes := by
    rintro ⟨start, startReached⟩ ⟨stop, stopReached⟩
    have mapped : spanToNative encoding text bytes = some ⟨start, stop⟩ :=
      spanToNative_eq_some_iff.mpr ⟨toNative_eq_some_iff_reaches.mpr startReached,
        toNative_eq_some_iff_reaches.mpr stopReached⟩
    exact ⟨⟨start, stop⟩, mapped, spanToBytes_eq_some_iff_spanToNative.mpr mapped⟩
  native_round native := by
    rintro ⟨start, startReached⟩ ⟨stop, stopReached⟩
    have mapped : spanToBytes encoding text native = some ⟨start, stop⟩ :=
      spanToBytes_eq_some_iff.mpr ⟨toByte_eq_some_iff_reaches.mpr startReached,
        toByte_eq_some_iff_reaches.mpr stopReached⟩
    exact ⟨⟨start, stop⟩, mapped, spanToBytes_eq_some_iff_spanToNative.mp mapped⟩
  toByte_walk := toByte_eq_byteAfter encoding text
  toNative_walk := toNative_eq_map_splitAt? encoding text

-- The emoji takes two units and four bytes: the index between its two halves has no
-- offset, and neither has one past the end.
example : (List.range 6).map (toByte .utf16 "a😀b") =
    [some 0, some 1, none, some 5, some 6, none] := by
  decide

end Text

end TreeLens
