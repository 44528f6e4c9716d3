import Mathlib.Data.List.Chain
import TreeLens.Proofs.Lowering.Layout

/-!
# Contents and gaps

Lowering moves the content of a node into the span the node gets. Where the
contents of an outline are in order that changes nothing: a node's span always
reaches over its content, since boundaries between siblings are only ever drawn
in the gap between their contents. So a lowered tree without its trivia is the
outline again.

The gap between two siblings is divided at its first line break. What is meant
by that is stated for runs of bytes: one line before, nothing or a line break
after, and no carriage return cut off from its line feed. A run has exactly one
such division.
-/

namespace TreeLens

/-- The bytes of a text that lie in a span. -/
def Text.bytesIn (text : String) (span : Span) : List UInt8 :=
  ((bytes text).drop span.start).take span.length

namespace Text

theorem take_bytesIn (text : String) {span : Span} {count : Nat} (inside : count ≤ span.length) :
    (bytesIn text span).take count = bytesIn text ⟨span.start, span.start + count⟩ := by
  rw [bytesIn, bytesIn, List.take_take, Nat.min_eq_left inside, Span.length,
    Nat.add_sub_cancel_left]

theorem drop_bytesIn (text : String) (span : Span) (count : Nat) :
    (bytesIn text span).drop count = bytesIn text ⟨span.start + count, span.stop⟩ := by
  rw [bytesIn, bytesIn, List.drop_take, List.drop_drop, Span.length, Span.length, Nat.sub_sub]

end Text

/-- One span reaches over another one, which does not run backwards. -/
structure Span.Covers (outer inner : Span) : Prop where
  start_le : outer.start ≤ inner.start
  ordered : inner.Ordered
  le_stop : inner.stop ≤ outer.stop

namespace Tiling

/-! ## Dividing a run of bytes -/

/-- A run of bytes is divided into what comes before its first line break and
the rest. A line break is a line feed with the carriage return directly before
it, if there is one. -/
structure DividesAtBreak (run before after : List UInt8) : Prop where
  joined : before ++ after = run
  oneLine : 10 ∉ before
  broken : after = [] ∨ [10] <+: after ∨ [13, 10] <+: after
  undivided : ¬(before.getLast? = some 13 ∧ after.head? = some 10)

/-- Of two divisions at the first line break, neither comes after the other. -/
theorem DividesAtBreak.eq_nil_of_append {before more after : List UInt8}
    (early : DividesAtBreak (before ++ more ++ after) before (more ++ after))
    (late : DividesAtBreak (before ++ more ++ after) (before ++ more) after) : more = [] := by
  cases more with
  | nil => rfl
  | cons byte more =>
    have oneLine := late.oneLine
    rcases early.broken with nothing | feed | pair
    · contradiction
    · obtain ⟨rfl, -⟩ := List.cons_prefix_cons.mp feed
      simp at oneLine
    · obtain ⟨rfl, feed⟩ := List.cons_prefix_cons.mp pair
      cases more with
      | nil =>
        -- The carriage return would be cut off from its line feed.
        obtain ⟨rest, rfl⟩ := feed
        exact absurd ⟨List.getLast?_concat .., rfl⟩ late.undivided
      | cons next more =>
        obtain ⟨rfl, -⟩ := List.cons_prefix_cons.mp feed
        simp at oneLine

/-- There is one division at the first line break. -/
theorem DividesAtBreak.unique {run before after otherBefore otherAfter : List UInt8}
    (first : DividesAtBreak run before after)
    (second : DividesAtBreak run otherBefore otherAfter) :
    otherBefore = before ∧ otherAfter = after := by
  rcases List.append_eq_append_iff.mp (first.joined.trans second.joined.symm) with
    ⟨more, rfl, rfl⟩ | ⟨more, rfl, rfl⟩
  · obtain rfl := second.joined
    have noMore := DividesAtBreak.eq_nil_of_append
      (by rwa [List.append_assoc] at first ⊢) second
    simp [noMore]
  · obtain rfl := first.joined
    have noMore := DividesAtBreak.eq_nil_of_append
      (by rwa [List.append_assoc] at second ⊢) first
    simp [noMore]

/-- A run in which no line break is found is all one line. -/
theorem dividesAtBreak_of_lineBreak?_eq_none {run : List UInt8}
    (nothing : lineBreak? run = none) : DividesAtBreak run run [] := by
  refine ⟨List.append_nil run, ?_, Or.inl rfl, by simp⟩
  induction run with
  | nil => simp
  | cons byte rest ih =>
    rw [lineBreak?] at nothing
    split at nothing
    · contradiction
    · split at nothing
      · contradiction
      · rename_i noFeed _
        rw [Option.map_eq_none_iff] at nothing
        simp [ih nothing, Ne.symm noFeed]

/-- Where a line break is found, the run is divided at it. -/
theorem dividesAtBreak_of_lineBreak?_eq_some {run : List UInt8} {position : Nat}
    (found : lineBreak? run = some position) :
    DividesAtBreak run (run.take position) (run.drop position) := by
  induction run generalizing position with
  | nil => contradiction
  | cons byte rest ih =>
    rw [lineBreak?] at found
    split at found
    case isTrue feed =>
      obtain rfl := Option.some.inj found
      exact ⟨rfl, by simp, Or.inr (Or.inl ⟨rest, by simp [feed]⟩), by simp⟩
    case isFalse noFeed =>
      split at found
      case isTrue pair =>
        obtain rfl := Option.some.inj found
        obtain ⟨rfl, feed⟩ := pair
        obtain ⟨further, rfl⟩ := List.head?_eq_some_iff.mp feed
        exact ⟨rfl, by simp, Or.inr (Or.inr ⟨further, rfl⟩), by simp⟩
      case isFalse noPair =>
        obtain ⟨later, foundLater, rfl⟩ := Option.map_eq_some_iff.mp found
        have divided := ih foundLater
        rw [List.take_succ_cons, List.drop_succ_cons]
        refine ⟨congrArg (byte :: ·) divided.joined, ?_, divided.broken, ?_⟩
        · simp [divided.oneLine, Ne.symm noFeed]
        · rintro ⟨last, head⟩
          rw [List.getLast?_cons] at last
          cases inner : (rest.take later).getLast? with
          | none =>
            -- Nothing lies between this byte and the break.
            have empty := List.getLast?_eq_none_iff.mp inner
            rw [inner] at last
            apply noPair
            refine ⟨Option.some.inj last, ?_⟩
            rw [← divided.joined, empty]
            exact head
          | some final =>
            rw [inner] at last
            exact divided.undivided ⟨inner.trans last, head⟩

/-- A gap inside the source is divided at its first line break. -/
theorem dividesAtBreak_divide {source : String} {gap : Span} (ordered : gap.Ordered)
    (inside : gap.stop ≤ source.utf8ByteSize) :
    DividesAtBreak (Text.bytesIn source gap)
      (Text.bytesIn source ⟨gap.start, divide source gap⟩)
      (Text.bytesIn source ⟨divide source gap, gap.stop⟩) := by
  have gapBytes : ((Text.bytes source).drop gap.start).take gap.length =
      Text.bytesIn source gap := rfl
  rw [divide, if_pos ⟨ordered, inside⟩, gapBytes]
  cases found : lineBreak? (Text.bytesIn source gap) with
  | none =>
    have nothing : Text.bytesIn source ⟨gap.stop, gap.stop⟩ = [] := by
      simp [Text.bytesIn, Span.length]
    rw [nothing]
    exact dividesAtBreak_of_lineBreak?_eq_none found
  | some position =>
    have inGap : position ≤ gap.length :=
      Nat.le_of_lt (Nat.lt_of_lt_of_le (lt_length_of_lineBreak?_eq_some found)
        (List.length_take_le _ _))
    rw [← Text.take_bytesIn source inGap, ← Text.drop_bytesIn source gap position]
    exact dividesAtBreak_of_lineBreak?_eq_some found

/-! ## Spans that reach over the contents -/

theorem clamp?_eq_some_self {low high value : Nat} (lowLe : low ≤ value) (leHigh : value ≤ high) :
    clamp? low high value = some value := by
  rw [clamp?, if_pos (Nat.le_trans lowLe leHigh), Nat.min_eq_left leHigh, Nat.max_eq_right lowLe]

/-- Between contents that are in order, the boundary is drawn in their gap. -/
theorem boundary?_eq_some_divide (source : String) {start parentStop : Nat} {content next : Span}
    (startLe : start ≤ content.stop) (apart : content.stop ≤ next.start)
    (inside : next.start ≤ parentStop) :
    boundary? source start parentStop content next =
      some (divide source ⟨content.stop, next.start⟩) := by
  rw [boundary?, clamp?_eq_some_self startLe (Nat.le_trans apart inside), Option.bind_eq_bind,
    Option.bind_some, clamp?_eq_some_self apart inside]
  rfl

/-- Contents lie one after the other, none of them backwards, between two
bounds. -/
structure InOrder (low high : Nat) (contents : List Span) : Prop where
  first : ∀ content ∈ contents.head?, low ≤ content.start
  ordered : ∀ content ∈ contents, content.Ordered
  inside : ∀ content ∈ contents, content.stop ≤ high
  apart : contents.IsChain fun left right => left.stop ≤ right.start

theorem InOrder.tail {low high : Nat} {content next : Span} {rest : List Span}
    (inOrder : InOrder low high (content :: next :: rest)) {reached : Nat}
    (before : reached ≤ next.start) : InOrder reached high (next :: rest) where
  first := by simpa using before
  ordered := fun later member => inOrder.ordered later (List.mem_cons_of_mem _ member)
  inside := fun later member => inOrder.inside later (List.mem_cons_of_mem _ member)
  apart := (List.isChain_cons_cons.mp inOrder.apart).2

theorem InOrder.mono {low high widerLow widerHigh : Nat} {contents : List Span}
    (inOrder : InOrder low high contents) (lowLe : widerLow ≤ low) (leHigh : high ≤ widerHigh) :
    InOrder widerLow widerHigh contents where
  first := fun content first => Nat.le_trans lowLe (inOrder.first content first)
  ordered := inOrder.ordered
  inside := fun content member => Nat.le_trans (inOrder.inside content member) leHigh
  apart := inOrder.apart

/-- Two neighbours, each with its full span and its content, share their gap: the
one ends where the other begins, and there the gap is divided. -/
structure SharesGap (source : String) (left right : Span × Span) : Prop where
  touching : left.1.stop = right.1.start
  divided : DividesAtBreak (Text.bytesIn source ⟨left.2.stop, right.2.start⟩)
    (Text.bytesIn source ⟨left.2.stop, left.1.stop⟩)
    (Text.bytesIn source ⟨right.1.start, right.2.start⟩)

/-- The first tile begins where tiling began. -/
theorem start_eq_of_tileFrom {source : String} {parentStop start : Nat} {contents later : List Span}
    {tile : Span} (tiled : tileFrom source parentStop start contents = some (tile :: later)) :
    tile.start = start := by
  unfold tileFrom at tiled
  split at tiled
  · cases tiled
  · cases tiled
    rfl
  · simp only [Option.bind_eq_bind, Option.bind_eq_some_iff] at tiled
    obtain ⟨stop, -, further, -, equal⟩ := tiled
    cases equal
    rfl

/-- The tiles of contents that are in order reach over them, and neighbours share
their gap. -/
theorem covers_tileFrom {source : String} {start parentStop : Nat} {contents tiles : List Span}
    (inOrder : InOrder start parentStop contents)
    (inSource : ∀ content ∈ contents, content.stop ≤ source.utf8ByteSize)
    (tiled : tileFrom source parentStop start contents = some tiles) :
    List.Forall₂ Span.Covers tiles contents ∧ (tiles.zip contents).IsChain (SharesGap source) := by
  cases contents with
  | nil =>
    obtain rfl := Option.some.inj tiled
    exact ⟨.nil, .nil⟩
  | cons content rest =>
    induction rest generalizing start content tiles with
    | nil =>
      obtain rfl := Option.some.inj tiled
      refine ⟨.cons ⟨?_, ?_, ?_⟩ .nil, .singleton _⟩
      · exact inOrder.first content rfl
      · exact inOrder.ordered content List.mem_cons_self
      · exact inOrder.inside content List.mem_cons_self
    | cons next rest ih =>
      have startLe : start ≤ content.start := inOrder.first content rfl
      have contentOrdered : content.start ≤ content.stop :=
        inOrder.ordered content List.mem_cons_self
      have apart : content.stop ≤ next.start := (List.isChain_cons_cons.mp inOrder.apart).1
      have nextOrdered : next.start ≤ next.stop := inOrder.ordered next (by simp)
      have nextInside : next.stop ≤ parentStop := inOrder.inside next (by simp)
      have nextInSource : next.stop ≤ source.utf8ByteSize := inSource next (by simp)
      obtain ⟨leDivide, divideLe⟩ := divide_mem source ⟨content.stop, next.start⟩ apart
      rw [tileFrom, boundary?_eq_some_divide source (Nat.le_trans startLe contentOrdered) apart
        (Nat.le_trans nextOrdered nextInside), Option.bind_eq_bind, Option.bind_some] at tiled
      obtain ⟨later, laterTiled, equal⟩ := Option.bind_eq_some_iff.mp tiled
      obtain rfl := Option.some.inj equal
      obtain ⟨covers, chain⟩ := ih next (inOrder.tail divideLe)
        (fun content member => inSource content (List.mem_cons_of_mem _ member)) laterTiled
      refine ⟨.cons ⟨startLe, contentOrdered, leDivide⟩ covers, ?_⟩
      cases covers with
      | @cons tile _ later _ _ _ =>
        have touching := start_eq_of_tileFrom laterTiled
        refine List.isChain_cons_cons.mpr ⟨⟨touching.symm, ?_⟩, chain⟩
        rw [touching]
        exact dividesAtBreak_divide apart (Nat.le_trans nextOrdered nextInSource)

end Tiling

/-- A node as a parser reports it, with its trivia left out. -/
def Label.parsed (label : Label) : Parsed where
  toTag := label.toTag
  content := label.content

/-- A draft whose full span reaches over its content keeps the content. -/
theorem Draft.parsed_label {draft : Draft} (covers : draft.full.Covers draft.content) :
    draft.label.parsed = draft.toParsed := by
  obtain ⟨startLe, ordered, leStop⟩ := covers
  change draft.content.start ≤ draft.content.stop at ordered
  have kept : (Extent.ofSpans draft.full draft.content).content = draft.content := by
    rw [Extent.content_ofSpans]
    ext <;> dsimp only <;> omega
  change Parsed.mk draft.toTag (Extent.ofSpans draft.full draft.content).content = _
  rw [kept]

namespace Outline

/-- The contents of an outline are as a parser reports them: none runs backwards
or leaves the source, children lie inside their parent, and each begins where
the one before it has ended or later. -/
structure WellFormed (source : String) (outline : Outline) : Prop where
  ordered : ∀ parsed ∈ outline.forest.toList, parsed.content.Ordered
  inside : ∀ parsed ∈ outline.forest.toList, parsed.content.stop ≤ source.utf8ByteSize
  nested : ∀ entry ∈ outline.forest.entries, ∀ child ∈ entry.2,
    entry.1.content.start ≤ child.content.start ∧ child.content.stop ≤ entry.1.content.stop
  apart : ∀ entry ∈ outline.forest.entries,
    entry.2.IsChain fun left right => left.content.stop ≤ right.content.start

/-- Every node has its children in order inside its content, and inside the
source. -/
def ChildrenInOrder (source : String) (siblings : Forest Parsed) : Prop :=
  ∀ entry ∈ siblings.entries,
    Tiling.InOrder entry.1.content.start entry.1.content.stop (entry.2.map Parsed.content) ∧
      ∀ content ∈ entry.2.map Parsed.content, content.stop ≤ source.utf8ByteSize

theorem ChildrenInOrder.below {source : String} {parsed : Parsed} {below after : Forest Parsed}
    (inOrder : ChildrenInOrder source (.node parsed below after)) :
    ChildrenInOrder source below := by
  intro entry member
  exact inOrder entry (List.mem_cons_of_mem _ (List.mem_append_left _ member))

theorem ChildrenInOrder.after {source : String} {parsed : Parsed} {below after : Forest Parsed}
    (inOrder : ChildrenInOrder source (.node parsed below after)) :
    ChildrenInOrder source after := by
  intro entry member
  exact inOrder entry (List.mem_cons_of_mem _ (List.mem_append_right _ member))

theorem WellFormed.childrenInOrder {source : String} {outline : Outline}
    (wellFormed : outline.WellFormed source) : ChildrenInOrder source outline.forest := by
  intro entry member
  have nested := wellFormed.nested entry member
  have inForest : ∀ child ∈ entry.2, child ∈ outline.forest.toList :=
    fun child => Forest.mem_toList_of_mem_entries member
  refine ⟨⟨?_, ?_, ?_, ?_⟩, ?_⟩
  · intro content first
    obtain ⟨child, isChild, rfl⟩ := List.mem_map.mp (List.mem_of_head? first)
    exact (nested child isChild).1
  · intro content isContent
    obtain ⟨child, isChild, rfl⟩ := List.mem_map.mp isContent
    exact wellFormed.ordered child (inForest child isChild)
  · intro content isContent
    obtain ⟨child, isChild, rfl⟩ := List.mem_map.mp isContent
    exact (nested child isChild).2
  · exact (List.isChain_map _).mpr (wellFormed.apart entry member)
  · intro content isContent
    obtain ⟨child, isChild, rfl⟩ := List.mem_map.mp isContent
    exact wellFormed.inside child (inForest child isChild)

namespace Layout

variable {source : String} {siblings : Forest Parsed} {spans : List Span} {labels : Forest Label}

/-- The tiles of a node whose span reaches over its content reach over the contents
of its children, and these share their gaps. -/
theorem covers_tiles {parsed : Parsed} {below after : Forest Parsed} {full : Span}
    {tiles : List Span} (covers : full.Covers parsed.content)
    (inOrder : ChildrenInOrder source (.node parsed below after))
    (tiled : Tiling.tile source full (below.roots.map Parsed.content) = some tiles) :
    List.Forall₂ Span.Covers tiles (below.roots.map Parsed.content) ∧
      (tiles.zip (below.roots.map Parsed.content)).IsChain (Tiling.SharesGap source) := by
  obtain ⟨contentsInOrder, inSource⟩ := inOrder _ List.mem_cons_self
  exact Tiling.covers_tileFrom (contentsInOrder.mono covers.start_le covers.le_stop) inSource tiled

/-- A layout in spans that reach over the contents keeps all contents. -/
theorem map_parsed (layout : Layout source siblings spans labels)
    (covers : List.Forall₂ Span.Covers spans (siblings.roots.map Parsed.content))
    (inOrder : ChildrenInOrder source siblings) : labels.map Label.parsed = siblings := by
  induction layout with
  | nil => rfl
  | node ordered tiled _ _ belowParsed afterParsed =>
    obtain ⟨here, later⟩ := List.forall₂_cons.mp covers
    rw [Forest.map, Draft.parsed_label here,
      belowParsed (covers_tiles here inOrder tiled).1 inOrder.below,
      afterParsed later inOrder.after]

/-- In such a layout neighbours share their gaps. -/
theorem sharesGap (layout : Layout source siblings spans labels)
    (covers : List.Forall₂ Span.Covers spans (siblings.roots.map Parsed.content))
    (inOrder : ChildrenInOrder source siblings) :
    ∀ entry ∈ labels.entries, entry.2.IsChain fun left right =>
      Tiling.SharesGap source (left.full, left.content) (right.full, right.content) := by
  induction layout with
  | nil => simp [Forest.entries]
  | @node parsed below after full tiles later belowLabels afterLabels ordered tiled belowLayout _
      belowShare afterShare =>
    obtain ⟨here, afterCovers⟩ := List.forall₂_cons.mp covers
    obtain ⟨tilesCover, chain⟩ := covers_tiles here inOrder tiled
    intro entry member
    rw [Forest.entries, List.mem_cons, List.mem_append] at member
    rcases member with rfl | inBelow | inAfter
    · have contents : below.roots.map Parsed.content = belowLabels.roots.map Label.content := by
        rw [← belowLayout.map_parsed tilesCover inOrder.below, Forest.roots_map, List.map_map]
        rfl
      rw [contents, ← belowLayout.map_full_roots, List.zip_map'] at chain
      exact (List.isChain_map _).mp chain
    · exact belowShare tilesCover inOrder.below entry inBelow
    · exact afterShare afterCovers inOrder.after entry inAfter

end Layout

/-- The root of a well-formed outline lies in the source, so its span reaches over
its content. -/
theorem WellFormed.covers {source : String} {outline : Outline}
    (wellFormed : outline.WellFormed source) :
    List.Forall₂ Span.Covers [⟨0, source.utf8ByteSize⟩]
      (outline.forest.roots.map Parsed.content) := by
  refine .cons ⟨Nat.zero_le _, ?_, ?_⟩ .nil
  · exact wellFormed.ordered outline.root List.mem_cons_self
  · exact wellFormed.inside outline.root List.mem_cons_self

/-- A well-formed outline is lowered to a tree that is the outline again once its
trivia are left out. Where two siblings follow each other, the one ends where the
other begins, and the trivia between them, trailing and leading, are the one
division of their gap at its first line break. -/
theorem lower_ok_parsed {source : String} {outline : Outline}
    (wellFormed : outline.WellFormed source) :
    ∃ tree,
      (outline.lower source).run = some (.ok tree) ∧
      (tree.forest.map fun node => node.parsed) = outline.forest ∧
      ∀ entry ∈ tree.entries, entry.2.IsChain fun left right =>
        left.stop = right.start ∧
          ∀ before after,
            Tiling.DividesAtBreak
                (Text.bytesIn source ⟨left.content.stop, right.content.start⟩) before after ↔
              before = Text.bytesIn source left.extent.trailingSpan ∧
                after = Text.bytesIn source right.extent.leadingSpan := by
  obtain ⟨tree, labels, lowered, -, unnumbered, layout⟩ := exists_lower_eq_ok source outline
  refine ⟨tree, lowered, ?_, ?_⟩
  · have parsed := layout.map_parsed wellFormed.covers wellFormed.childrenInOrder
    rwa [← unnumbered, Forest.map_map] at parsed
  · intro entry member
    have chain := layout.sharesGap wellFormed.covers wellFormed.childrenInOrder _
      (Tree.mem_entries_map_toLabel unnumbered member)
    refine ((List.isChain_map _).mp chain).imp ?_
    intro left right shares
    refine ⟨shares.touching, fun before after => ⟨shares.divided.unique, ?_⟩⟩
    rintro ⟨rfl, rfl⟩
    exact shares.divided

/-- Three letters, the second one in a group of its own. Line breaks stand before
the first and in both gaps, and the second gap has a carriage return that belongs to
no line break. -/
theorem lower_ok_parsed_two_breaks :
    let source := "\na \r\n b\r\r\nc"
    let letter : Tag := { kind := "letter" }
    let outline : Outline := ⟨⟨{ kind := "sheet" }, ⟨1, 11⟩⟩,
      .node ⟨letter, ⟨1, 2⟩⟩ .nil
        (.node ⟨{ kind := "group" }, ⟨6, 7⟩⟩ (.node ⟨letter, ⟨6, 7⟩⟩ .nil .nil)
          (.node ⟨letter, ⟨10, 11⟩⟩ .nil .nil))⟩
    outline.WellFormed source ∧
      ∃ tree,
        (outline.lower source).run = some (.ok tree) ∧
        (tree.forest.map fun node => node.parsed) = outline.forest ∧
        (tree.children 0).map (fun child =>
          (child.extent.leading, child.extent.trailing)) = [(1, 1), (3, 1), (2, 0)] := by
  intro source letter outline
  have wellFormed : outline.WellFormed source := by
    constructor
    · decide
    · decide
    · decide
    · decide
  obtain ⟨tree, lowered, parsed, -⟩ := lower_ok_parsed wellFormed
  refine ⟨wellFormed, tree, lowered, parsed, ?_⟩
  have computed : (outline.lower? source).map (fun tree => (tree.children 0).map (fun child =>
      (child.extent.leading, child.extent.trailing))) = some [(1, 1), (3, 1), (2, 0)] := by
    decide +kernel
  rw [lower?, lowered] at computed
  exact Option.some.inj computed

end Outline

end TreeLens
