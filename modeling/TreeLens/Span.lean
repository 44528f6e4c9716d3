/-!
# Spans

A span is a pair of offsets into a text. It denotes the half-open interval from
`start` up to `stop`, so a span whose bounds are equal, or reversed, holds no
offset. Nothing here says which unit the offsets count; bytes and native units
both use this type.
-/

namespace TreeLens

/-- A half-open interval of offsets. -/
@[ext]
structure Span where
  start : Nat
  stop : Nat
deriving DecidableEq, Repr, Inhabited

namespace Span

/-- An offset lies in a span when it is at or after the start and before the
stop. -/
instance : Membership Nat Span where
  mem span offset := span.start ≤ offset ∧ offset < span.stop

theorem mem_iff {span : Span} {offset : Nat} :
    offset ∈ span ↔ span.start ≤ offset ∧ offset < span.stop :=
  Iff.rfl

instance (span : Span) (offset : Nat) : Decidable (offset ∈ span) :=
  inferInstanceAs (Decidable (span.start ≤ offset ∧ offset < span.stop))

/-- A span is ordered when it does not run backwards. -/
def Ordered (span : Span) : Prop :=
  span.start ≤ span.stop

instance (span : Span) : Decidable span.Ordered :=
  inferInstanceAs (Decidable (span.start ≤ span.stop))

/-- Number of offsets in the span. -/
def length (span : Span) : Nat :=
  span.stop - span.start

/-- The span with both bounds equal to `offset`. -/
def point (offset : Nat) : Span :=
  ⟨offset, offset⟩

/-- Exchange the bounds of a span that runs backwards. -/
def flip (span : Span) : Span :=
  ⟨min span.start span.stop, max span.start span.stop⟩

theorem flip_ordered (span : Span) : span.flip.Ordered := by
  simp only [Ordered, flip]
  omega

theorem flip_eq_self {span : Span} (ordered : span.Ordered) : span.flip = span := by
  simp only [Ordered] at ordered
  ext <;> simp only [flip] <;> omega

/-- Cut both bounds down to at most `limit`. -/
def cut (limit : Nat) (span : Span) : Span :=
  ⟨min span.start limit, min span.stop limit⟩

/-- Spans in order of their starts, and of their stops where the starts agree. -/
def precedes (first second : Span) : Bool :=
  first.start < second.start || (first.start == second.start && first.stop ≤ second.stop)

theorem precedes_iff {first second : Span} :
    first.precedes second = true ↔
      first.start < second.start ∨ first.start = second.start ∧ first.stop ≤ second.stop := by
  simp [precedes]

/-- The bounds with two dots between them. -/
def render (span : Span) : String :=
  toString span.start ++ ".." ++ toString span.stop

end Span

end TreeLens
