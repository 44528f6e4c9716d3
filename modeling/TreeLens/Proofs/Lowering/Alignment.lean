import TreeLens.Proofs.Lowering.Contents
import TreeLens.Proofs.Text.Slices

/-!
# Aligned layouts

A span is aligned when both of its bounds are character boundaries. Every bound
that tiling computes is a bound it was given or the place of a line break, and a
line break begins with an ASCII byte. So where the contents of an outline are
aligned, no character is divided between two nodes of its layout, wherever the
contents lie.
-/

namespace TreeLens

/-- Both bounds of a span are character boundaries of a text. -/
structure Span.Aligned (text : String) (span : Span) : Prop where
  start : Text.isBoundary text span.start = true
  stop : Text.isBoundary text span.stop = true

theorem Span.aligned_all (text : String) : Span.Aligned text ⟨0, text.utf8ByteSize⟩ :=
  ⟨Text.isBoundary_zero text, Text.isBoundary_utf8ByteSize text⟩

namespace Tiling

variable {source : String}

theorem isBoundary_of_clamp? {low high value moved : Nat}
    (lowBoundary : Text.isBoundary source low = true)
    (highBoundary : Text.isBoundary source high = true)
    (valueBoundary : Text.isBoundary source value = true)
    (clamped : clamp? low high value = some moved) : Text.isBoundary source moved = true := by
  rw [clamp?, Option.ite_none_right_eq_some] at clamped
  obtain ⟨-, equal⟩ := clamped
  obtain rfl := Option.some.inj equal
  exact Text.isBoundary_max lowBoundary (Text.isBoundary_min valueBoundary highBoundary)

/-- A line break begins with an ASCII byte. -/
theorem exists_getElem?_of_lineBreak? {run : List UInt8} {position : Nat}
    (found : lineBreak? run = some position) :
    ∃ byte, run[position]? = some byte ∧ byte < 128 := by
  have first : run[position]? = (run.drop position).head? := List.head?_drop.symm
  rcases (dividesAtBreak_of_lineBreak?_eq_some found).broken with nothing | feed | pair
  · have inRun := lt_length_of_lineBreak?_eq_some found
    exact absurd (List.drop_eq_nil_iff.mp nothing) (Nat.not_le.mpr inRun)
  · obtain ⟨rest, joined⟩ := feed
    exact ⟨10, by rw [first, ← joined]; rfl, by decide⟩
  · obtain ⟨rest, joined⟩ := pair
    exact ⟨13, by rw [first, ← joined]; rfl, by decide⟩

/-- A gap is divided at a boundary if it ends at one. -/
theorem isBoundary_divide {gap : Span} (stopBoundary : Text.isBoundary source gap.stop = true) :
    Text.isBoundary source (divide source gap) = true := by
  rw [divide]
  split
  · split
    case h_1 position found =>
      obtain ⟨byte, atPosition, ascii⟩ := exists_getElem?_of_lineBreak? found
      have inGap : position < gap.length :=
        Nat.lt_of_lt_of_le (lt_length_of_lineBreak?_eq_some found) (List.length_take_le _ _)
      rw [List.getElem?_take_of_lt inGap, List.getElem?_drop] at atPosition
      exact Text.isBoundary_of_bytes_getElem? atPosition ascii
    case h_2 => exact stopBoundary
  · exact stopBoundary

theorem isBoundary_of_boundary? {start parentStop stop : Nat} {content next : Span}
    (startBoundary : Text.isBoundary source start = true)
    (parentBoundary : Text.isBoundary source parentStop = true)
    (contentAligned : content.Aligned source) (nextAligned : next.Aligned source)
    (drawn : boundary? source start parentStop content next = some stop) :
    Text.isBoundary source stop = true := by
  simp only [boundary?, Option.bind_eq_bind, Option.bind_eq_some_iff] at drawn
  obtain ⟨gapStart, startClamped, gapStop, stopClamped, equal⟩ := drawn
  obtain rfl := Option.some.inj equal
  have gapStartBoundary :=
    isBoundary_of_clamp? startBoundary parentBoundary contentAligned.stop startClamped
  exact isBoundary_divide
    (isBoundary_of_clamp? gapStartBoundary parentBoundary nextAligned.start stopClamped)

/-- Aligned contents get aligned tiles from an aligned parent. -/
theorem aligned_tileFrom {start parentStop : Nat} {contents tiles : List Span}
    (startBoundary : Text.isBoundary source start = true)
    (parentBoundary : Text.isBoundary source parentStop = true)
    (aligned : ∀ content ∈ contents, content.Aligned source)
    (tiled : tileFrom source parentStop start contents = some tiles) :
    ∀ tile ∈ tiles, tile.Aligned source := by
  cases contents with
  | nil =>
    obtain rfl := Option.some.inj tiled
    simp
  | cons content rest =>
    induction rest generalizing start content tiles with
    | nil =>
      obtain rfl := Option.some.inj tiled
      intro tile member
      obtain rfl := List.mem_singleton.mp member
      exact ⟨startBoundary, parentBoundary⟩
    | cons next rest ih =>
      simp only [tileFrom, Option.bind_eq_bind, Option.bind_eq_some_iff] at tiled
      obtain ⟨stop, drawn, later, laterTiled, equal⟩ := tiled
      obtain rfl := Option.some.inj equal
      have stopBoundary := isBoundary_of_boundary? startBoundary parentBoundary
        (aligned content (by simp)) (aligned next (by simp)) drawn
      intro tile member
      rcases List.mem_cons.mp member with rfl | inLater
      · exact ⟨startBoundary, stopBoundary⟩
      · exact ih stopBoundary next (fun content member =>
          aligned content (List.mem_cons_of_mem _ member)) laterTiled tile inLater

end Tiling

/-- A draft between boundaries gets its content between boundaries. -/
theorem Draft.aligned_content {source : String} {draft : Draft}
    (full : draft.full.Aligned source) (content : draft.content.Aligned source) :
    draft.label.content.Aligned source := by
  change (Extent.ofSpans draft.full draft.content).content.Aligned source
  rw [Extent.content_ofSpans]
  have stop := Text.isBoundary_max full.start full.stop
  have contentStart := Text.isBoundary_max full.start (Text.isBoundary_min content.start stop)
  exact ⟨contentStart, Text.isBoundary_max contentStart (Text.isBoundary_min content.stop stop)⟩

namespace Outline.Layout

variable {source : String} {siblings : Forest Parsed} {spans : List Span} {labels : Forest Label}

/-- In aligned spans, a layout of aligned contents settles every node from a draft with
an aligned span. -/
theorem exists_aligned_draft (layout : Layout source siblings spans labels)
    (contents : ∀ parsed ∈ siblings.toList, parsed.content.Aligned source)
    (given : ∀ span ∈ spans, span.Aligned source) :
    ∀ label ∈ labels.toList, ∃ draft : Draft, draft.label = label ∧
      draft.toParsed ∈ siblings.toList ∧ draft.full.Ordered ∧ draft.full.Aligned source := by
  induction layout with
  | nil => simp [Forest.toList]
  | @node parsed below after full tiles later belowLabels afterLabels ordered tiled _ _
      belowDrafts afterDrafts =>
    have fullAligned : full.Aligned source := given full List.mem_cons_self
    have inBelow : ∀ inner ∈ below.toList, inner.content.Aligned source := fun inner member =>
      contents inner (List.mem_cons_of_mem _ (List.mem_append_left _ member))
    have tilesAligned : ∀ tile ∈ tiles, tile.Aligned source := by
      refine Tiling.aligned_tileFrom fullAligned.start fullAligned.stop ?_ tiled
      intro content member
      obtain ⟨child, isRoot, rfl⟩ := List.mem_map.mp member
      exact inBelow child (Forest.mem_toList_of_mem_roots isRoot)
    intro label member
    rw [Forest.toList, List.mem_cons, List.mem_append] at member
    rcases member with rfl | inBelowLabels | inAfterLabels
    · exact ⟨⟨parsed, full⟩, rfl, List.mem_cons_self, ordered, fullAligned⟩
    · obtain ⟨draft, settled, member, aligned⟩ :=
        belowDrafts inBelow tilesAligned label inBelowLabels
      exact ⟨draft, settled, List.mem_cons_of_mem _ (List.mem_append_left _ member), aligned⟩
    · have inAfter : ∀ inner ∈ after.toList, inner.content.Aligned source := fun inner member =>
        contents inner (List.mem_cons_of_mem _ (List.mem_append_right _ member))
      obtain ⟨draft, settled, member, aligned⟩ := afterDrafts inAfter
        (fun span member => given span (List.mem_cons_of_mem _ member)) label inAfterLabels
      exact ⟨draft, settled, List.mem_cons_of_mem _ (List.mem_append_right _ member), aligned⟩

/-- A layout of aligned contents in aligned spans is aligned. -/
theorem aligned (layout : Layout source siblings spans labels)
    (contents : ∀ parsed ∈ siblings.toList, parsed.content.Aligned source)
    (given : ∀ span ∈ spans, span.Aligned source) :
    ∀ label ∈ labels.toList, label.full.Aligned source := by
  intro label member
  obtain ⟨draft, rfl, -, ordered, aligned⟩ :=
    layout.exists_aligned_draft contents given label member
  rw [Draft.full_label ordered]
  exact aligned

/-- So are the contents of its nodes. -/
theorem aligned_content (layout : Layout source siblings spans labels)
    (contents : ∀ parsed ∈ siblings.toList, parsed.content.Aligned source)
    (given : ∀ span ∈ spans, span.Aligned source) :
    ∀ label ∈ labels.toList, label.content.Aligned source := by
  intro label member
  obtain ⟨draft, rfl, inOutline, -, aligned⟩ :=
    layout.exists_aligned_draft contents given label member
  exact Draft.aligned_content aligned (contents draft.toParsed inOutline)

end Outline.Layout

end TreeLens
