import Mathlib.Data.List.Sort
import Mathlib.Logic.Relation
import TreeLens.Proofs.Selection.Normal

/-!
# Canonical selections

Normalising looks at each span once and compares it with the span before it only.
What comes out can be said without any order of work: the spans given fall into
classes of spans that are linked by shared offsets, every class that holds an offset
is replaced by the span from its first offset to its last, and a caret stays exactly
when it is not strictly inside one of the given spans. Spans that only touch share
no offset, so they stay apart.

The proof keeps, beside every span that comes out, the group of given spans that were
joined to it. The description leaves only one list, so the selection depends on the
set of spans given and on nothing else.
-/

namespace TreeLens

namespace Span

/-- A span that holds an offset. A caret is not one. -/
def Filled (span : Span) : Prop :=
  span.start < span.stop

/-- One span lies between the bounds of another. -/
def Inside (inner outer : Span) : Prop :=
  outer.start ≤ inner.start ∧ inner.stop ≤ outer.stop

/-- Two spans share an offset. -/
def Meets (first second : Span) : Prop :=
  ∃ offset, offset ∈ first ∧ offset ∈ second

/-- The first span comes strictly before the second, by start and then by stop, and
is over when the second begins. -/
def Before (first second : Span) : Prop :=
  (first.start < second.start ∨ first.start = second.start ∧ first.stop < second.stop) ∧
    first.stop ≤ second.start

variable {first second third : Span}

theorem Meets.symm (meets : first.Meets second) : second.Meets first := by
  obtain ⟨offset, inFirst, inSecond⟩ := meets
  exact ⟨offset, inSecond, inFirst⟩

theorem Inside.mem {offset : Nat} (inside : first.Inside second) (member : offset ∈ first) :
    offset ∈ second :=
  ⟨Nat.le_trans inside.1 member.1, Nat.lt_of_lt_of_le member.2 inside.2⟩

theorem filled_of_mem {offset : Nat} (member : offset ∈ first) : first.Filled :=
  Nat.lt_of_le_of_lt member.1 member.2

/-- A span that holds no offset is a caret. -/
theorem eq_point_of_not_filled (ordered : first.Ordered) (notFilled : ¬first.Filled) :
    first = point first.start := by
  have same : first.stop = first.start := Nat.le_antisymm (Nat.not_lt.mp notFilled) ordered
  ext
  · rfl
  · exact same

theorem Before.trans (low : first.Before second) (high : second.Before third) :
    first.Before third := by
  simp only [Before] at low high ⊢
  omega

theorem Before.asymm (low : first.Before second) : ¬second.Before first := by
  simp only [Before] at low ⊢
  omega

theorem Apart.before (apart : first.Apart second) (firstOrdered : first.Ordered)
    (secondOrdered : second.Ordered) : first.Before second := by
  obtain ⟨stopLe, different⟩ := apart
  rw [Ne, Span.ext_iff] at different
  simp only [Ordered, Before] at firstOrdered secondOrdered ⊢
  omega

end Span

namespace TextSelection

/-- Two spans are joined by a chain of given spans, each of which shares an offset with
the next. -/
def Linked (spans : List Span) : Span → Span → Prop :=
  Relation.ReflTransGen fun first second => first ∈ spans ∧ second ∈ spans ∧ first.Meets second

/-- The span from the smallest start of some spans to their largest stop. -/
structure IsHull (members : Span → Prop) (hull : Span) : Prop where
  inside : ∀ member, members member → member.Inside hull
  start_mem : ∃ member, members member ∧ member.start = hull.start
  stop_mem : ∃ member, members member ∧ member.stop = hull.stop

theorem IsHull.unique {members : Span → Prop} {hull other : Span} (one : IsHull members hull)
    (two : IsHull members other) : hull = other := by
  obtain ⟨first, firstIn, firstStart⟩ := one.start_mem
  obtain ⟨last, lastIn, lastStop⟩ := one.stop_mem
  obtain ⟨otherFirst, otherFirstIn, otherStart⟩ := two.start_mem
  obtain ⟨otherLast, otherLastIn, otherStop⟩ := two.stop_mem
  have startLe := (one.inside otherFirst otherFirstIn).1
  have leStart := (two.inside first firstIn).1
  have stopLe := (two.inside last lastIn).2
  have leStop := (one.inside otherLast otherLastIn).2
  ext <;> omega

namespace Linked

variable {spans others : List Span} {first second : Span}

theorem symm (linked : Linked spans first second) : Linked spans second first := by
  induction linked with
  | refl => exact .refl
  | tail _ step ih =>
    obtain ⟨lastMem, nextMem, meets⟩ := step
    exact .head ⟨nextMem, lastMem, meets.symm⟩ ih

theorem mono (subset : spans ⊆ others) (linked : Linked spans first second) :
    Linked others first second := by
  induction linked with
  | refl => exact .refl
  | tail _ step ih =>
    obtain ⟨lastMem, nextMem, meets⟩ := step
    exact .tail ih ⟨subset lastMem, subset nextMem, meets⟩

theorem mem (linked : Linked spans first second) (member : first ∈ spans) : second ∈ spans := by
  cases linked with
  | refl => exact member
  | tail _ step => exact step.2.1

/-- A chain of spans leaves out no offset between its ends. -/
theorem exists_mem {offset : Nat} (linked : Linked spans first second) (member : first ∈ spans)
    (startLe : first.start ≤ offset) (ltStop : offset < second.stop) :
    ∃ span ∈ spans, offset ∈ span := by
  induction linked with
  | refl => exact ⟨first, member, startLe, ltStop⟩
  | @tail last next _ step ih =>
    obtain ⟨-, nextMem, shared, inLast, inNext⟩ := step
    by_cases reached : offset < last.stop
    · exact ih reached
    · refine ⟨next, nextMem, ?_, ltStop⟩
      -- The chain was left behind at the shared offset.
      exact Nat.le_trans inNext.1 (Nat.le_trans (Nat.le_of_lt inLast.2) (Nat.not_lt.mp reached))

end Linked

/-! ## Groups -/

/-- A group of spans and what they are joined to. -/
structure Joined (group : List Span) (span : Span) : Prop where
  inside : ∀ member ∈ group, member.Inside span
  start_mem : ∃ member ∈ group, member.start = span.start ∧ (span.Filled → member.Filled)
  stop_mem : ∃ member ∈ group, member.stop = span.stop ∧ (span.Filled → member.Filled)
  linked : ∀ first ∈ group, first.Filled → ∀ second ∈ group, second.Filled →
    Linked group first second
  /-- A caret that was joined to something is strictly inside a span of the group. -/
  covered : span.Filled → ∀ member ∈ group, ¬member.Filled →
    ∃ cover ∈ group, cover.start < member.start ∧ member.start < cover.stop

namespace Joined

variable {group : List Span} {last next : Span}

theorem singleton (span : Span) : Joined [span] span where
  inside := by simp [Span.Inside]
  start_mem := ⟨span, by simp⟩
  stop_mem := ⟨span, by simp⟩
  linked := by
    intro first firstMem _ second secondMem _
    rw [List.mem_singleton.mp firstMem, List.mem_singleton.mp secondMem]
    exact .refl
  covered := by
    intro filled member memberMem notFilled
    rw [List.mem_singleton.mp memberMem] at notFilled
    contradiction

/-- A span that meets one of a group is linked to all of it; a caret needs no link. -/
theorem linked_append (joined : Joined group last)
    (reached : next.Filled → ∃ tall ∈ group, tall.Filled ∧ tall.Meets next) :
    ∀ first ∈ group ++ [next], first.Filled → ∀ second ∈ group ++ [next], second.Filled →
      Linked (group ++ [next]) first second := by
  have inGroup : ∀ first ∈ group, first.Filled → ∀ second ∈ group, second.Filled →
      Linked (group ++ [next]) first second := by
    intro first firstMem firstFilled second secondMem secondFilled
    exact (joined.linked first firstMem firstFilled second secondMem secondFilled).mono
      (List.subset_append_left _ _)
  have toNext : next.Filled → ∀ first ∈ group, first.Filled →
      Linked (group ++ [next]) first next := by
    intro nextFilled first firstMem firstFilled
    obtain ⟨tall, tallMem, tallFilled, meets⟩ := reached nextFilled
    refine .tail (inGroup first firstMem firstFilled tall tallMem tallFilled) ?_
    exact ⟨List.mem_append_left _ tallMem, List.mem_append_right _ List.mem_cons_self, meets⟩
  intro first firstMem firstFilled second secondMem secondFilled
  rw [List.mem_append, List.mem_singleton] at firstMem secondMem
  rcases firstMem with firstMem | rfl
  · rcases secondMem with secondMem | rfl
    · exact inGroup first firstMem firstFilled second secondMem secondFilled
    · exact toNext secondFilled first firstMem firstFilled
  · rcases secondMem with secondMem | rfl
    · exact (toNext firstFilled second secondMem secondFilled).symm
    · exact .refl

/-- A caret that repeats the group's own adds nothing. -/
theorem repeated (joined : Joined group last) (caret : ¬last.Filled) :
    Joined (group ++ [last]) last where
  inside := by
    rw [List.forall_mem_append, List.forall_mem_singleton]
    exact ⟨joined.inside, Nat.le_refl _, Nat.le_refl _⟩
  start_mem := ⟨last, by simp⟩
  stop_mem := ⟨last, by simp⟩
  linked := joined.linked_append fun filled => absurd filled caret
  covered filled := absurd filled caret

/-- A span that begins before the group's end, and not before any span of the group,
joins the group. The span with the group's own stop is the one it meets. -/
theorem append (joined : Joined group last) (inOrder : ∀ member ∈ group, member.precedes next)
    (overlaps : next.start < last.stop) :
    Joined (group ++ [next]) ⟨last.start, max last.stop next.stop⟩ := by
  have startLe : ∀ member ∈ group, member.start ≤ next.start := by
    intro member memberMem
    have ordered := Span.precedes_iff.mp (inOrder member memberMem)
    omega
  obtain ⟨front, frontMem, frontStart, frontFilled⟩ := joined.start_mem
  obtain ⟨tall, tallMem, tallStop, tallFilled⟩ := joined.stop_mem
  have lastStart : last.start ≤ next.start := frontStart ▸ startLe front frontMem
  have lastFilled : last.Filled := Nat.lt_of_le_of_lt lastStart overlaps
  have inTall : next.start ∈ tall := ⟨startLe tall tallMem, by rwa [tallStop]⟩
  constructor
  case inside =>
    rw [List.forall_mem_append, List.forall_mem_singleton]
    refine ⟨?_, lastStart, Nat.le_max_right _ _⟩
    intro member memberMem
    obtain ⟨low, high⟩ := joined.inside member memberMem
    exact ⟨low, Nat.le_trans high (Nat.le_max_left _ _)⟩
  case start_mem =>
    exact ⟨front, List.mem_append_left _ frontMem, frontStart, fun _ => frontFilled lastFilled⟩
  case stop_mem =>
    rcases Nat.le_total next.stop last.stop with shorter | longer
    · refine ⟨tall, List.mem_append_left _ tallMem, ?_, fun _ => tallFilled lastFilled⟩
      rw [tallStop, Nat.max_eq_left shorter]
    · refine ⟨next, List.mem_append_right _ List.mem_cons_self, ?_, fun _ => ?_⟩
      · exact (Nat.max_eq_right longer).symm
      · exact Nat.lt_of_lt_of_le overlaps longer
  case linked =>
    apply joined.linked_append
    intro nextFilled
    exact ⟨tall, tallMem, tallFilled lastFilled, next.start, inTall, Nat.le_refl _, nextFilled⟩
  case covered =>
    intro _ member memberMem notFilled
    rw [List.mem_append, List.mem_singleton] at memberMem
    rcases memberMem with memberMem | rfl
    · obtain ⟨cover, coverMem, around⟩ := joined.covered lastFilled member memberMem notFilled
      exact ⟨cover, List.mem_append_left _ coverMem, around⟩
    · refine ⟨tall, List.mem_append_left _ tallMem, ?_, inTall.2⟩
      -- A span that starts at the caret would come after it.
      have tallOrder := Span.precedes_iff.mp (inOrder tall tallMem)
      have filled := tallFilled lastFilled
      simp only [Span.Filled] at notFilled filled
      omega

end Joined

/-- Joining spans in order divides them into groups, each joined to one of the spans
that come out. -/
theorem exists_groups_joinFrom {group rest : List Span} {last : Span} (joined : Joined group last)
    (inOrder : (group ++ rest).Pairwise fun first second => first.precedes second) :
    ∃ groups : List (List Span × Span), (groups.map Prod.fst).flatten = group ++ rest ∧
      groups.map Prod.snd = joinFrom last rest ∧ ∀ pair ∈ groups, Joined pair.1 pair.2 := by
  induction rest generalizing group last with
  | nil => exact ⟨[(group, last)], by simp, rfl, by simpa using joined⟩
  | cons next rest ih =>
    obtain ⟨-, restInOrder, across⟩ := List.pairwise_append.mp inOrder
    rw [joinFrom]
    split
    case isTrue meets =>
      have grown : Joined (group ++ [next]) ⟨last.start, max last.stop next.stop⟩ := by
        by_cases overlaps : next.start < last.stop
        · apply joined.append _ overlaps
          intro member memberMem
          exact across member memberMem next List.mem_cons_self
        · obtain rfl := meets.resolve_right overlaps
          rw [Nat.max_self]
          exact joined.repeated overlaps
      rw [List.append_cons] at inOrder ⊢
      exact ih grown inOrder
    case isFalse separate =>
      obtain ⟨groups, flattened, spans, all⟩ := ih (.singleton next) restInOrder
      refine ⟨(group, last) :: groups, ?_, ?_, ?_⟩
      · rw [List.map_cons, List.flatten_cons, flattened]
        rfl
      · rw [List.map_cons, spans]
      · exact List.forall_mem_cons.mpr ⟨joined, all⟩

/-- Every given span, flipped if it runs backwards, is in the group of one of the spans
of the selection, and every one of those has a group. -/
theorem exists_groups (spans : List Span) :
    ∃ groups : List (List Span × Span),
      (∀ span, span ∈ (groups.map Prod.fst).flatten ↔ span ∈ spans.map Span.flip) ∧
      groups.map Prod.snd = (ofSpans spans).ranges ∧ ∀ pair ∈ groups, Joined pair.1 pair.2 := by
  have inOrder : ((spans.map Span.flip).mergeSort Span.precedes).Pairwise
      fun first second => first.precedes second := by
    apply List.pairwise_mergeSort
    · intro first second third
      exact Span.precedes_trans
    · intro first second
      rw [Bool.or_eq_true, Span.precedes_iff, Span.precedes_iff]
      omega
  have members : ∀ span, span ∈ (spans.map Span.flip).mergeSort Span.precedes ↔
      span ∈ spans.map Span.flip := fun span => List.mem_mergeSort
  unfold ofSpans
  generalize (spans.map Span.flip).mergeSort Span.precedes = sorted at inOrder members ⊢
  cases sorted with
  | nil => exact ⟨[], members, rfl, by simp⟩
  | cons first rest =>
    obtain ⟨groups, flattened, joined, all⟩ := exists_groups_joinFrom (.singleton first) inOrder
    refine ⟨groups, ?_, joined, all⟩
    rw [flattened]
    exact members

section Ranges

variable {spans : List Span} {span : Span}

theorem exists_group_of_mem_ranges (member : span ∈ (ofSpans spans).ranges) :
    ∃ group ⊆ spans.map Span.flip, Joined group span := by
  obtain ⟨groups, members, ranges, all⟩ := exists_groups spans
  rw [← ranges, List.mem_map] at member
  obtain ⟨⟨group, _⟩, pairMem, rfl⟩ := member
  refine ⟨group, ?_, all _ pairMem⟩
  intro input inGroup
  rw [← members]
  exact List.mem_flatten_of_mem (List.mem_map_of_mem pairMem) inGroup

theorem exists_range_of_mem {input : Span} (member : input ∈ spans.map Span.flip) :
    ∃ span ∈ (ofSpans spans).ranges, ∃ group ⊆ spans.map Span.flip,
      input ∈ group ∧ Joined group span := by
  obtain ⟨groups, members, ranges, all⟩ := exists_groups spans
  rw [← members, List.mem_flatten] at member
  obtain ⟨_, inGroups, inGroup⟩ := member
  obtain ⟨⟨group, span⟩, pairMem, rfl⟩ := List.mem_map.mp inGroups
  refine ⟨span, ?_, group, ?_, inGroup, all _ pairMem⟩
  · rw [← ranges]
    exact List.mem_map_of_mem pairMem
  · intro input inGroup
    rw [← members]
    exact List.mem_flatten_of_mem inGroups inGroup

/-- The spans of a normal selection come strictly one before the other. -/
theorem Normal.pairwise_before {selection : TextSelection} (normal : selection.Normal) :
    selection.ranges.Pairwise Span.Before := by
  have : Trans Span.Before Span.Before Span.Before := ⟨Span.Before.trans⟩
  apply List.IsChain.pairwise
  apply normal.apart.imp_of_mem_imp
  intro first second firstMem secondMem apart
  exact apart.before (normal.ordered first firstMem) (normal.ordered second secondMem)

/-- Of two spans of a normal selection one is over when the other begins. -/
theorem Normal.ends_before {selection : TextSelection} (normal : selection.Normal)
    {first second : Span} (firstMem : first ∈ selection.ranges)
    (secondMem : second ∈ selection.ranges) (different : first ≠ second) :
    first.stop ≤ second.start ∨ second.stop ≤ first.start := by
  have oneOver : selection.ranges.Pairwise fun first second =>
      first.stop ≤ second.start ∨ second.stop ≤ first.start :=
    normal.pairwise_before.imp fun before => Or.inl before.2
  have : Std.Symm fun first second : Span =>
      first.stop ≤ second.start ∨ second.stop ≤ first.start := ⟨fun _ _ => Or.symm⟩
  exact oneOver.forall firstMem secondMem different

/-- A given span that meets one inside a span of the selection is inside it as well. -/
theorem inside_of_meets (range : span ∈ (ofSpans spans).ranges) {first second : Span}
    (firstInside : first.Inside span) (secondMem : second ∈ spans.map Span.flip)
    (meets : first.Meets second) : second.Inside span := by
  obtain ⟨other, otherRange, group, -, inGroup, joined⟩ := exists_range_of_mem secondMem
  have secondInside := joined.inside second inGroup
  obtain ⟨offset, inFirst, inSecond⟩ := meets
  have inSpan := firstInside.mem inFirst
  have inOther := secondInside.mem inSecond
  by_cases same : span = other
  · rw [same]
    exact secondInside
  · rw [Span.mem_iff] at inSpan inOther
    have := (normal_ofSpans spans).ends_before range otherRange same
    omega

/-- A span of the selection is the hull of the class of any filled span of its
group. -/
theorem Joined.isHull {group : List Span} (joined : Joined group span)
    (range : span ∈ (ofSpans spans).ranges) (subset : group ⊆ spans.map Span.flip) {first : Span}
    (firstMem : first ∈ group) (firstFilled : first.Filled) :
    IsHull (Linked (spans.map Span.flip) first) span := by
  have firstInside := joined.inside first firstMem
  have spanFilled : span.Filled :=
    Nat.lt_of_le_of_lt firstInside.1 (Nat.lt_of_lt_of_le firstFilled firstInside.2)
  have inClass : ∀ member ∈ group, (span.Filled → member.Filled) →
      Linked (spans.map Span.flip) first member := fun member memberMem filled =>
    (joined.linked first firstMem firstFilled member memberMem (filled spanFilled)).mono subset
  constructor
  case inside =>
    intro member linked
    induction linked with
    | refl => exact firstInside
    | tail _ step ih => exact inside_of_meets range ih step.2.1 step.2.2
  case start_mem =>
    obtain ⟨front, frontMem, startEq, frontFilled⟩ := joined.start_mem
    exact ⟨front, inClass front frontMem frontFilled, startEq⟩
  case stop_mem =>
    obtain ⟨tall, tallMem, stopEq, tallFilled⟩ := joined.stop_mem
    exact ⟨tall, inClass tall tallMem tallFilled, stopEq⟩

/-- A given caret stays a span of the selection unless it is strictly inside a given
span. -/
theorem point_mem_ranges_iff {offset : Nat} :
    Span.point offset ∈ (ofSpans spans).ranges ↔
      Span.point offset ∈ spans.map Span.flip ∧
        ∀ span ∈ spans.map Span.flip, ¬(span.start < offset ∧ offset < span.stop) := by
  have notFilled : ¬(Span.point offset).Filled := Nat.lt_irrefl offset
  constructor
  · intro range
    obtain ⟨group, subset, joined⟩ := exists_group_of_mem_ranges range
    constructor
    · -- A group that was joined to a caret holds this caret only.
      obtain ⟨front, frontMem, startEq, -⟩ := joined.start_mem
      have stopLe := (joined.inside front frontMem).2
      obtain ⟨original, -, flipped⟩ := List.mem_map.mp (subset frontMem)
      have frontOrdered : front.Ordered := flipped ▸ original.flip_ordered
      have frontEq : front = Span.point offset := by
        have caret : ¬front.Filled := by
          simp only [Span.Filled, startEq, Nat.not_lt]
          exact stopLe
        rw [Span.eq_point_of_not_filled frontOrdered caret, startEq]
        rfl
      exact frontEq ▸ subset frontMem
    · rintro input inputMem ⟨startLt, ltStop⟩
      obtain ⟨other, otherRange, otherGroup, -, inGroup, otherJoined⟩ :=
        exists_range_of_mem inputMem
      obtain ⟨low, high⟩ := otherJoined.inside input inGroup
      have different : Span.point offset ≠ other := by
        rintro rfl
        exact Nat.lt_irrefl _ (Nat.lt_of_le_of_lt low startLt)
      have apart := (normal_ofSpans spans).ends_before range otherRange different
      simp only [Span.point] at apart
      omega
  · rintro ⟨inputMem, notInside⟩
    obtain ⟨span, range, group, subset, inGroup, joined⟩ := exists_range_of_mem inputMem
    by_cases filled : span.Filled
    · obtain ⟨cover, coverMem, around⟩ := joined.covered filled _ inGroup notFilled
      exact absurd around (notInside cover (subset coverMem))
    · have caret := Span.eq_point_of_not_filled ((normal_ofSpans spans).ordered span range) filled
      obtain ⟨low, high⟩ := joined.inside _ inGroup
      have startEq : span.start = offset := by
        rw [caret] at high
        exact Nat.le_antisymm low high
      rwa [caret, startEq] at range

end Ranges

/-! ## The canonical form -/

/-- A list of spans is the canonical form of the spans given. -/
structure Canonical (inputs ranges : List Span) : Prop where
  ordered : ∀ span ∈ ranges, span.Ordered
  increasing : ranges.Pairwise Span.Before
  /-- Every class of linked spans has its hull in the list. -/
  hull_mem : ∀ first ∈ inputs, first.Filled → ∃ span ∈ ranges, IsHull (Linked inputs first) span
  /-- The filled spans of the list are the hulls of the classes. -/
  filled_iff : ∀ span, span ∈ ranges ∧ span.Filled ↔
    ∃ first ∈ inputs, first.Filled ∧ IsHull (Linked inputs first) span
  /-- The carets of the list are the given ones that are strictly inside no given span. -/
  caret_iff : ∀ offset, Span.point offset ∈ ranges ↔
    Span.point offset ∈ inputs ∧ ∀ span ∈ inputs, ¬(span.start < offset ∧ offset < span.stop)

/-- Normalising gives the canonical form. -/
theorem canonical_ofSpans (spans : List Span) :
    Canonical (spans.map Span.flip) (ofSpans spans).ranges where
  ordered := (normal_ofSpans spans).ordered
  increasing := (normal_ofSpans spans).pairwise_before
  hull_mem := by
    intro first firstMem firstFilled
    obtain ⟨span, range, group, subset, inGroup, joined⟩ := exists_range_of_mem firstMem
    exact ⟨span, range, joined.isHull range subset inGroup firstFilled⟩
  filled_iff := by
    intro span
    constructor
    · rintro ⟨range, filled⟩
      obtain ⟨group, subset, joined⟩ := exists_group_of_mem_ranges range
      obtain ⟨front, frontMem, -, frontFilled⟩ := joined.start_mem
      exact ⟨front, subset frontMem, frontFilled filled,
        joined.isHull range subset frontMem (frontFilled filled)⟩
    · rintro ⟨first, firstMem, firstFilled, hull⟩
      obtain ⟨other, range, group, subset, inGroup, joined⟩ := exists_range_of_mem firstMem
      obtain rfl := hull.unique (joined.isHull range subset inGroup firstFilled)
      obtain ⟨low, high⟩ := joined.inside first inGroup
      exact ⟨range, Nat.lt_of_le_of_lt low (Nat.lt_of_lt_of_le firstFilled high)⟩
  caret_iff _ := point_mem_ranges_iff

namespace Canonical

variable {inputs others ranges otherRanges : List Span}

/-- The canonical form holds the offsets that the spans given hold. -/
theorem exists_mem_iff (canonical : Canonical inputs ranges) {offset : Nat} :
    (∃ span ∈ ranges, offset ∈ span) ↔ ∃ span ∈ inputs, offset ∈ span := by
  constructor
  · rintro ⟨span, range, startLe, ltStop⟩
    obtain ⟨first, firstMem, -, hull⟩ :=
      (canonical.filled_iff span).mp ⟨range, Nat.lt_of_le_of_lt startLe ltStop⟩
    obtain ⟨front, frontLinked, frontStart⟩ := hull.start_mem
    obtain ⟨tall, tallLinked, tallStop⟩ := hull.stop_mem
    have linked : Linked inputs front tall := frontLinked.symm.trans tallLinked
    rw [← frontStart] at startLe
    rw [← tallStop] at ltStop
    exact linked.exists_mem (frontLinked.mem firstMem) startLe ltStop
  · rintro ⟨input, inputMem, inside⟩
    obtain ⟨span, range, hull⟩ := canonical.hull_mem input inputMem (Span.filled_of_mem inside)
    exact ⟨span, range, (hull.inside input .refl).mem inside⟩

/-- Only the set of the given spans counts. -/
theorem congr (canonical : Canonical inputs ranges)
    (same : ∀ span, span ∈ inputs ↔ span ∈ others) : Canonical others ranges := by
  have linkedEq : Linked inputs = Linked others := by simp only [Linked, same]
  obtain ⟨ordered, increasing, hull_mem, filled_iff, caret_iff⟩ := canonical
  simp only [same, linkedEq] at hull_mem filled_iff caret_iff
  exact ⟨ordered, increasing, hull_mem, filled_iff, caret_iff⟩

/-- There is one canonical form. -/
theorem unique (one : Canonical inputs ranges) (other : Canonical inputs otherRanges) :
    ranges = otherRanges := by
  have : Std.Irrefl Span.Before := ⟨fun _ before => before.asymm before⟩
  have : Std.Antisymm Span.Before := ⟨fun _ _ low high => absurd high low.asymm⟩
  have subset : ∀ {first second : List Span}, Canonical inputs first → Canonical inputs second →
      ∀ span ∈ first, span ∈ second := by
    intro first second firstCanonical secondCanonical span member
    by_cases filled : span.Filled
    · exact ((secondCanonical.filled_iff span).mpr
        ((firstCanonical.filled_iff span).mp ⟨member, filled⟩)).1
    · have caret := Span.eq_point_of_not_filled (firstCanonical.ordered span member) filled
      rw [caret] at member ⊢
      exact (secondCanonical.caret_iff _).mpr ((firstCanonical.caret_iff _).mp member)
  exact one.increasing.eq_of_mem_iff other.increasing fun span =>
    ⟨subset one other span, subset other one span⟩

end Canonical

/-- Lists with the same members have the same normal form. -/
theorem ofSpans_eq_of_mem_iff {first second : List Span}
    (same : ∀ span, span ∈ first ↔ span ∈ second) : ofSpans first = ofSpans second := by
  have sameFlipped : ∀ span, span ∈ first.map Span.flip ↔ span ∈ second.map Span.flip := by
    simp only [List.mem_map, same, implies_true]
  exact TextSelection.ext
    (((canonical_ofSpans first).congr sameFlipped).unique (canonical_ofSpans second))

/-- Normalising gives the canonical form of the spans given. It holds the same offsets,
depends neither on the order nor on the direction of the spans nor on how often one is
given, and is its own canonical form. -/
theorem ofSpans_canonical_form (spans : List Span) :
    Canonical (spans.map Span.flip) (ofSpans spans).ranges ∧
      (∀ offset, (∃ span ∈ (ofSpans spans).ranges, offset ∈ span) ↔
        ∃ span ∈ spans.map Span.flip, offset ∈ span) ∧
      (∀ others : List Span,
        (∀ span, span ∈ others.map Span.flip ↔ span ∈ spans.map Span.flip) →
          ofSpans others = ofSpans spans) ∧
      ofSpans (ofSpans spans).ranges = ofSpans spans := by
  have canonical := canonical_ofSpans spans
  refine ⟨canonical, fun offset => canonical.exists_mem_iff, ?_, ?_⟩
  · intro others same
    have otherCanonical := (canonical_ofSpans others).congr same
    exact TextSelection.ext (otherCanonical.unique canonical)
  · exact (normal_ofSpans spans).ofSpans_eq_self

-- Two spans that only touch stay apart, and so does a caret at the border; a span that
-- runs backwards, one inside another and a repeated one are joined.
example : (ofSpans [⟨14, 15⟩, ⟨6, 2⟩, ⟨4, 5⟩, ⟨14, 15⟩, ⟨9, 9⟩, ⟨9, 12⟩, ⟨12, 13⟩]).ranges =
    [⟨2, 6⟩, ⟨9, 9⟩, ⟨9, 12⟩, ⟨12, 13⟩, ⟨14, 15⟩] := by
  cbv

end TextSelection

end TreeLens
