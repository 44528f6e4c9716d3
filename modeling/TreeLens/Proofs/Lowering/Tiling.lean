import Mathlib.Data.List.Basic
import TreeLens.Lowering.Tiling
import TreeLens.Proofs.Tree.Nesting

/-!
# Tiles

Children tile a parent when they follow each other without a gap from its start
to its stop. Whatever contents are given, tiling a parent that does not run
backwards gives every child its span, and the spans tile the parent: a boundary
is moved between the place reached so far and the stop of the parent before the
gap is divided, so no later boundary finds its bounds the wrong way round.
-/

namespace TreeLens

/-- Spans follow each other without a gap from the start of `parent` to its
stop. Nothing is asked of no spans at all. -/
structure Span.TiledBy (parent : Span) (tiles : List Span) : Prop where
  first : ∀ tile ∈ tiles.head?, tile.start = parent.start
  adjacent : tiles.IsChain fun left right => left.stop = right.start
  last : ∀ tile ∈ tiles.getLast?, tile.stop = parent.stop
  ordered : ∀ tile ∈ tiles, tile.Ordered

namespace Span

theorem tiledBy_nil (parent : Span) : parent.TiledBy [] where
  first := by simp
  adjacent := List.IsChain.nil
  last := by simp
  ordered := by simp

theorem tiledBy_singleton_iff {parent tile : Span} :
    parent.TiledBy [tile] ↔
      tile.start = parent.start ∧ tile.stop = parent.stop ∧ tile.Ordered := by
  constructor
  · intro tiled
    exact ⟨tiled.first tile rfl, tiled.last tile rfl, tiled.ordered tile List.mem_cons_self⟩
  · rintro ⟨startEq, stopEq, ordered⟩
    refine ⟨?_, List.IsChain.singleton _, ?_, ?_⟩
    · simpa using startEq
    · simpa using stopEq
    · simpa using ordered

/-- After the first of several tiles, the others tile what is left. -/
theorem tiledBy_cons_cons_iff {parent tile next : Span} {rest : List Span} :
    parent.TiledBy (tile :: next :: rest) ↔
      tile.start = parent.start ∧ tile.Ordered ∧
        TiledBy ⟨tile.stop, parent.stop⟩ (next :: rest) := by
  constructor
  · intro tiled
    obtain ⟨touches, chain⟩ := List.isChain_cons_cons.mp tiled.adjacent
    refine ⟨tiled.first tile rfl, tiled.ordered tile List.mem_cons_self, ?_, chain, ?_, ?_⟩
    · simpa using touches.symm
    · intro final isLast
      exact tiled.last final (by rwa [List.getLast?_cons_cons])
    · intro later inRest
      exact tiled.ordered later (List.mem_cons_of_mem _ inRest)
  · rintro ⟨startEq, ordered, tiled⟩
    refine ⟨?_, List.isChain_cons_cons.mpr ⟨?_, tiled.adjacent⟩, ?_, ?_⟩
    · simpa using startEq
    · exact (tiled.first next rfl).symm
    · intro final isLast
      exact tiled.last final (by rwa [List.getLast?_cons_cons] at isLast)
    · intro later inTiles
      rcases List.mem_cons.mp inTiles with rfl | inRest
      · exact ordered
      · exact tiled.ordered later inRest

/-- The first tile stays inside the parent. -/
theorem TiledBy.stop_le {parent tile : Span} {rest : List Span}
    (tiled : parent.TiledBy (tile :: rest)) : tile.stop ≤ parent.stop := by
  induction rest generalizing parent tile with
  | nil => exact Nat.le_of_eq (tiledBy_singleton_iff.mp tiled).2.1
  | cons next rest ih =>
    obtain ⟨_, _, later⟩ := tiledBy_cons_cons_iff.mp tiled
    have stopLe := ih later
    calc tile.stop
      _ = next.start := (later.first next rfl).symm
      _ ≤ next.stop := later.ordered next List.mem_cons_self
      _ ≤ parent.stop := stopLe

end Span

/-- Validation finds no fault with children that tile their parent. -/
theorem siblingDefect?_eq_none_of_tiledBy {parent : Node} {reached : Nat} {children : List Node}
    (tiled : Span.TiledBy ⟨reached, parent.stop⟩ (children.map fun child => child.full)) :
    siblingDefect? parent reached children = none := by
  induction children generalizing reached with
  | nil => rfl
  | cons child rest ih =>
    refine siblingDefect?_cons_eq_none_iff.mpr ⟨?_, tiled.stop_le, ?_⟩
    · exact Nat.le_of_eq (tiled.first child.full rfl).symm
    · cases rest with
      | nil => rfl
      | cons next rest => exact ih (Span.tiledBy_cons_cons_iff.mp tiled).2.2

/-- A tree is accepted once its root spans the source and every node is tiled
by its children. -/
theorem Tree.validate_eq_ok_of_tiledBy {tree : Tree}
    (spans : tree.root.full = ⟨0, tree.sourceLength⟩)
    (tiled : ∀ entry ∈ tree.entries,
      entry.1.full.TiledBy (entry.2.map fun child => child.full)) :
    tree.validate = .ok () := by
  have noDefect : tree.defect? = none := by
    rw [defect?, if_pos spans, List.findSome?_eq_none_iff]
    intro entry inEntries
    exact siblingDefect?_eq_none_of_tiledBy (tiled entry inEntries)
  rw [validate, noDefect]

namespace Tiling

/-- A value is moved between bounds that are the right way round. -/
theorem exists_clamp?_eq_some {low high : Nat} (ordered : low ≤ high) (value : Nat) :
    ∃ moved, clamp? low high value = some moved ∧ low ≤ moved ∧ moved ≤ high := by
  refine ⟨max low (min value high), if_pos ordered, Nat.le_max_left _ _, ?_⟩
  exact Nat.max_le.mpr ⟨ordered, Nat.min_le_right _ _⟩

theorem lt_length_of_lineBreak?_eq_some {bytes : List UInt8} {position : Nat}
    (found : lineBreak? bytes = some position) : position < bytes.length := by
  induction bytes generalizing position with
  | nil => contradiction
  | cons byte rest ih =>
    rw [lineBreak?] at found
    split at found
    · obtain rfl := Option.some.inj found
      exact Nat.zero_lt_succ _
    · split at found
      · obtain rfl := Option.some.inj found
        exact Nat.zero_lt_succ _
      · obtain ⟨later, foundLater, rfl⟩ := Option.map_eq_some_iff.mp found
        exact Nat.succ_lt_succ (ih foundLater)

/-- A gap is divided somewhere between its ends. -/
theorem divide_mem (source : String) (gap : Span) (ordered : gap.Ordered) :
    gap.start ≤ divide source gap ∧ divide source gap ≤ gap.stop := by
  rw [divide]
  split
  · split
    case h_1 position found =>
      have inGap : position < gap.stop - gap.start :=
        Nat.lt_of_lt_of_le (lt_length_of_lineBreak?_eq_some found) (List.length_take_le _ _)
      omega
    case h_2 => exact ⟨ordered, Nat.le_refl _⟩
  · exact ⟨ordered, Nat.le_refl _⟩

/-- Wherever the contents lie, a child that begins inside its parent ends there
too, and not before it began. -/
theorem exists_boundary?_eq_some (source : String) {start parentStop : Nat}
    (inside : start ≤ parentStop) (content next : Span) :
    ∃ stop, boundary? source start parentStop content next = some stop ∧
      start ≤ stop ∧ stop ≤ parentStop := by
  obtain ⟨gapStart, gapStartEq, startLe, gapStartLe⟩ := exists_clamp?_eq_some inside content.stop
  obtain ⟨gapStop, gapStopEq, ordered, gapStopLe⟩ := exists_clamp?_eq_some gapStartLe next.start
  obtain ⟨leDivide, divideLe⟩ := divide_mem source ⟨gapStart, gapStop⟩ ordered
  refine ⟨divide source ⟨gapStart, gapStop⟩, ?_, ?_, ?_⟩
  · rw [boundary?, gapStartEq, Option.bind_eq_bind, Option.bind_some, gapStopEq]
    rfl
  · exact Nat.le_trans startLe leDivide
  · exact Nat.le_trans divideLe gapStopLe

/-- From a place inside the parent on, all children get their spans, and these
tile the rest of the parent. -/
theorem exists_tileFrom_eq_some (source : String) {start parentStop : Nat}
    (inside : start ≤ parentStop) (contents : List Span) :
    ∃ tiles, tileFrom source parentStop start contents = some tiles ∧
      tiles.length = contents.length ∧ Span.TiledBy ⟨start, parentStop⟩ tiles := by
  -- The recursion looks two contents ahead, so the induction is on what comes
  -- after the first one.
  cases contents with
  | nil => exact ⟨[], rfl, rfl, Span.tiledBy_nil _⟩
  | cons content rest =>
    induction rest generalizing start content with
    | nil =>
      refine ⟨[⟨start, parentStop⟩], rfl, rfl, ?_⟩
      exact Span.tiledBy_singleton_iff.mpr ⟨rfl, rfl, inside⟩
    | cons next rest ih =>
      obtain ⟨stop, stopEq, startLe, stopLe⟩ :=
        exists_boundary?_eq_some source inside content next
      obtain ⟨later, laterEq, lengthEq, tiled⟩ := ih stopLe next
      refine ⟨⟨start, stop⟩ :: later, ?_, ?_, ?_⟩
      · rw [tileFrom, stopEq, Option.bind_eq_bind, Option.bind_some, laterEq]
        rfl
      · rw [List.length_cons, List.length_cons, lengthEq]
      · cases later with
        | nil => contradiction
        | cons second further =>
          exact Span.tiledBy_cons_cons_iff.mpr ⟨rfl, startLe, tiled⟩

/-- A parent that does not run backwards is tiled by its children, whatever
their contents. -/
theorem exists_tile_eq_some (source : String) {parent : Span} (ordered : parent.Ordered)
    (contents : List Span) :
    ∃ tiles, tile source parent contents = some tiles ∧
      tiles.length = contents.length ∧ parent.TiledBy tiles :=
  exists_tileFrom_eq_some source ordered contents

end Tiling

end TreeLens
