import Mathlib.Data.List.Permutation
import TreeLens.Proofs.Selection.Canonical

/-!
# Clamping selections

A text that shrinks takes its selection with it: every bound is cut down to the
new length and the spans are normalised again. The spans of a normal selection
stand in order, so there is a first one that begins at the end of the new text
or behind it. Those before it keep their starts and stay apart; it and all that
follow it become the caret at the end, which is there once. No other spans are
joined.

The spans that are left are therefore, as a set, the old ones cut down, and the
normal form depends on the set alone. Cutting down twice is cutting down to the
smaller length.
-/

namespace TreeLens

namespace Span

variable {limit : Nat} {first second span : Span}

theorem cut_cut (limit other : Nat) (span : Span) :
    (span.cut limit).cut other = span.cut (min limit other) := by
  ext <;> simp only [cut] <;> omega

/-- It makes no difference whether a span is flipped before it is cut or after. -/
theorem flip_cut (limit : Nat) (span : Span) : (span.cut limit).flip = span.flip.cut limit := by
  ext <;> simp only [cut, flip] <;> omega

theorem Ordered.cut (ordered : span.Ordered) : (span.cut limit).Ordered := by
  simp only [Ordered, Span.cut] at ordered ⊢
  omega

/-- What collapses to the caret at the end begins there or behind it. -/
theorem cut_eq_point_iff (ordered : span.Ordered) :
    span.cut limit = point limit ↔ limit ≤ span.start := by
  simp only [Ordered] at ordered
  simp only [cut, point, Span.mk.injEq]
  omega

theorem Before.apart (before : first.Before second) : first.Apart second := by
  refine ⟨before.2, ?_⟩
  rintro rfl
  exact before.asymm before

/-- Spans that begin before the limit are not joined by the cut. -/
theorem Before.cut (before : first.Before second) (inside : second.start < limit) :
    (first.cut limit).Before (second.cut limit) := by
  simp only [Before, Span.cut] at before ⊢
  omega

/-- What begins before the limit comes before the caret there. -/
theorem before_point_of_start_lt (inside : span.start < limit) :
    (span.cut limit).Before (point limit) := by
  simp only [Before, Span.cut, point]
  omega

end Span

namespace TextSelection

variable {selection : TextSelection} {limit : Nat} {early late : List Span}

theorem normal_of_pairwise_before (ordered : ∀ span ∈ selection.ranges, span.Ordered)
    (before : selection.ranges.Pairwise Span.Before) : selection.Normal :=
  ⟨ordered, (before.imp Span.Before.apart).isChain⟩

/-- Some first spans of a normal selection begin before the limit and the others do not. -/
theorem Normal.exists_division (normal : selection.Normal) (limit : Nat) :
    ∃ early late, selection.ranges = early ++ late ∧
      (∀ span ∈ early, span.start < limit) ∧ ∀ span ∈ late, limit ≤ span.start := by
  have inOrder := normal.pairwise_before
  generalize selection.ranges = ranges at inOrder ⊢
  induction ranges with
  | nil => exact ⟨[], [], rfl, by simp, by simp⟩
  | cons first rest ih =>
    obtain ⟨firstBefore, restInOrder⟩ := List.pairwise_cons.mp inOrder
    by_cases inside : first.start < limit
    · obtain ⟨early, late, rfl, earlyInside, lateBehind⟩ := ih restInOrder
      exact ⟨first :: early, late, rfl, List.forall_mem_cons.mpr ⟨inside, earlyInside⟩, lateBehind⟩
    · refine ⟨[], first :: rest, rfl, by simp, List.forall_mem_cons.mpr ⟨by omega, ?_⟩⟩
      intro span member
      have before := (firstBefore span member).1
      omega

/-- What the division at the limit leaves of the spans: the first ones cut down, and
one caret for all the others. -/
def cutDown (limit : Nat) (early late : List Span) : TextSelection where
  ranges := early.map (Span.cut limit) ++ if late = [] then [] else [Span.point limit]

theorem eq_point_of_mem_ite {span : Span}
    (member : span ∈ if late = [] then [] else [Span.point limit]) : span = Span.point limit := by
  split at member
  · contradiction
  · exact List.mem_singleton.mp member

theorem mem_cutDown_iff (behind : ∀ span ∈ late, span.cut limit = Span.point limit) {span : Span} :
    span ∈ (cutDown limit early late).ranges ↔ span ∈ (early ++ late).map (Span.cut limit) := by
  have ofLate : (span ∈ if late = [] then [] else [Span.point limit]) ↔
      span ∈ late.map (Span.cut limit) := by
    rw [List.map_congr_left behind]
    cases late <;> simp
  rw [cutDown, List.map_append, List.mem_append, List.mem_append, ofLate]

theorem normal_cutDown (ordered : ∀ span ∈ early, span.Ordered)
    (before : early.Pairwise Span.Before) (inside : ∀ span ∈ early, span.start < limit) :
    (cutDown limit early late).Normal := by
  apply normal_of_pairwise_before
  · intro span member
    rcases List.mem_append.mp member with ofEarly | ofLate
    · obtain ⟨original, originalMem, rfl⟩ := List.mem_map.mp ofEarly
      exact (ordered original originalMem).cut
    · rw [eq_point_of_mem_ite ofLate]
      exact Nat.le_refl limit
  · refine List.pairwise_append.mpr ⟨?_, ?_, ?_⟩
    · rw [List.pairwise_map]
      apply before.imp_of_mem
      intro first second _ secondMem firstBefore
      exact firstBefore.cut (inside second secondMem)
    · split
      · exact .nil
      · exact List.pairwise_singleton _ _
    · intro span ofEarly caret ofLate
      obtain ⟨original, originalMem, rfl⟩ := List.mem_map.mp ofEarly
      rw [eq_point_of_mem_ite ofLate]
      exact Span.before_point_of_start_lt (inside original originalMem)

/-- Clamping a normal selection cuts its first spans down one by one and joins only what
collapses to the caret at the end. -/
theorem Normal.clamp_eq_cutDown (normal : selection.Normal)
    (divided : selection.ranges = early ++ late)
    (inside : ∀ span ∈ early, span.start < limit) (behind : ∀ span ∈ late, limit ≤ span.start) :
    selection.clamp limit = cutDown limit early late := by
  have ordered := normal.ordered
  have before := normal.pairwise_before
  rw [divided, List.forall_mem_append] at ordered
  rw [divided, List.pairwise_append] at before
  have collapses : ∀ span ∈ late, span.cut limit = Span.point limit := fun span member =>
    (Span.cut_eq_point_iff (ordered.2 span member)).mpr (behind span member)
  have isNormal : (cutDown limit early late).Normal := normal_cutDown ordered.1 before.1 inside
  calc
    selection.clamp limit = ofSpans ((early ++ late).map (Span.cut limit)) := by
      rw [clamp, divided]
    _ = ofSpans (cutDown limit early late).ranges :=
      ofSpans_eq_of_mem_iff fun span => (mem_cutDown_iff collapses).symm
    _ = cutDown limit early late := isNormal.ofSpans_eq_self

/-- As a set, the spans of a clamped selection are the old ones cut down. -/
theorem Normal.mem_ranges_clamp_iff (normal : selection.Normal) {span : Span} :
    span ∈ (selection.clamp limit).ranges ↔ span ∈ selection.ranges.map (Span.cut limit) := by
  obtain ⟨early, late, divided, inside, behind⟩ := normal.exists_division limit
  rw [normal.clamp_eq_cutDown divided inside behind, divided]
  apply mem_cutDown_iff
  intro span member
  have ordered := normal.ordered span (divided ▸ List.mem_append_right early member)
  exact (Span.cut_eq_point_iff ordered).mpr (behind span member)

theorem Normal.clamp_clamp (normal : selection.Normal) (limit other : Nat) :
    (selection.clamp limit).clamp other = selection.clamp (min limit other) := by
  apply ofSpans_eq_of_mem_iff
  intro span
  simp only [List.mem_map, normal.mem_ranges_clamp_iff, exists_exists_and_eq_and, Span.cut_cut]

/-- Clamping leaves nothing out. -/
theorem isEmpty_clamp (limit : Nat) (selection : TextSelection) :
    (selection.clamp limit).isEmpty = selection.isEmpty := by
  rw [clamp, isEmpty, isEmpty]
  cases selection.ranges with
  | nil => simp [ofSpans, join]
  | cons first rest =>
    have given : (first.cut limit).flip ∈ ((first :: rest).map (Span.cut limit)).map Span.flip := by
      simp
    obtain ⟨span, member, -⟩ := exists_range_of_mem given
    exact List.isEmpty_eq_false_iff.mpr (List.ne_nil_of_mem member)

/-- The ways a selection is made: normalised from spans, or one span as it is, or one
caret, or none. -/
inductive Made : TextSelection → Prop
  | ofSpans (spans : List Span) : Made (ofSpans spans)
  | single (span : Span) : Made (single span)
  | caret (offset : Nat) : Made (caret offset)
  | empty : Made empty

/-- A span is clamped like the same span in the right direction. -/
theorem clamp_single_flip (limit : Nat) (span : Span) :
    (single span.flip).clamp limit = (single span).clamp limit := by
  have flipped : (span.flip.cut limit).flip = (span.cut limit).flip := by
    rw [← Span.flip_cut, Span.flip_eq_self (Span.flip_ordered _)]
  simp only [clamp, single, ofSpans, List.map_cons, List.map_nil, flipped]

/-- Every selection that can be made is clamped like a normal one. -/
theorem Made.exists_normal (made : selection.Made) :
    ∃ other : TextSelection, other.Normal ∧ ∀ limit, other.clamp limit = selection.clamp limit := by
  cases made with
  | ofSpans spans => exact ⟨_, normal_ofSpans spans, fun _ => rfl⟩
  | single span =>
    exact ⟨_, normal_single span.flip_ordered, fun limit => clamp_single_flip limit span⟩
  | caret offset => exact ⟨.caret offset, normal_single (Nat.le_refl offset), fun _ => rfl⟩
  | empty => exact ⟨.empty, ⟨List.forall_mem_nil _, .nil⟩, fun _ => rfl⟩

/-- Clamping a selection, however it was made, to one length and then to another is
clamping it to the smaller one. The result is normal, lies inside the text, and is empty
only if the selection was. A normal selection inside the text stays as it is. In general a
normal selection keeps its first spans one by one, cut down to the text; only the spans
behind them, all of which collapse to the caret at the end, are joined. -/
theorem clamp_composes (made : selection.Made) (limit other : Nat) :
    (selection.clamp limit).clamp other = selection.clamp (min limit other) ∧
      (selection.clamp limit).Normal ∧
      (∀ span ∈ (selection.clamp limit).ranges, span.start ≤ limit ∧ span.stop ≤ limit) ∧
      (selection.clamp limit).isEmpty = selection.isEmpty ∧
      (selection.Normal →
        ((∀ span ∈ selection.ranges, span.start ≤ limit ∧ span.stop ≤ limit) →
          selection.clamp limit = selection) ∧
        ∃ early late, selection.ranges = early ++ late ∧
          (∀ span ∈ early, span.cut limit ≠ Span.point limit) ∧
          (∀ span ∈ late, span.cut limit = Span.point limit) ∧
          (selection.clamp limit).ranges =
            early.map (Span.cut limit) ++ if late = [] then [] else [Span.point limit]) := by
  have clampedNormal : (selection.clamp limit).Normal := normal_ofSpans _
  refine ⟨?_, clampedNormal, ?_, isEmpty_clamp limit selection, ?_⟩
  · obtain ⟨normalised, normal, sameClamp⟩ := made.exists_normal
    rw [← sameClamp, ← sameClamp]
    exact normal.clamp_clamp limit other
  · intro span member
    have inside : span.stop ≤ limit := stop_le_of_mem_clamp member
    exact ⟨Nat.le_trans (clampedNormal.ordered span member) inside, inside⟩
  · intro normal
    refine ⟨fun inside => normal.clamp_eq_self fun span member => (inside span member).2, ?_⟩
    obtain ⟨early, late, divided, inside, behind⟩ := normal.exists_division limit
    have ordered := normal.ordered
    rw [divided, List.forall_mem_append] at ordered
    refine ⟨early, late, divided, ?_, ?_, ?_⟩
    · intro span member
      rw [Ne, Span.cut_eq_point_iff (ordered.1 span member)]
      exact Nat.not_le.mpr (inside span member)
    · intro span member
      exact (Span.cut_eq_point_iff (ordered.2 span member)).mpr (behind span member)
    · rw [normal.clamp_eq_cutDown divided inside behind]
      rfl

/-- Of five spans two lie inside the first five units, the third reaches over their end,
and the last two are behind it. -/
theorem clamp_composes_at_the_cut :
    let selection := ofSpans [⟨12, 9⟩, ⟨0, 2⟩, ⟨5, 5⟩, ⟨2, 2⟩, ⟨2, 8⟩, ⟨8, 8⟩]
    selection.Made ∧ selection.ranges = [⟨0, 2⟩, ⟨2, 2⟩, ⟨2, 8⟩, ⟨8, 8⟩, ⟨9, 12⟩] ∧
      (selection.clamp 5).ranges = [⟨0, 2⟩, ⟨2, 2⟩, ⟨2, 5⟩, ⟨5, 5⟩] ∧
      (selection.clamp 5).clamp 1 = selection.clamp 1 := by
  intro selection
  have made : selection.Made := .ofSpans _
  exact ⟨made, by cbv, by cbv, (clamp_composes made 5 1).1⟩

end TextSelection

end TreeLens
