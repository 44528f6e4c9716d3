import Mathlib.Data.List.Chain
import TreeLens.Selection.Ranges

/-!
# Normal selections

A normalised selection holds spans that do not run backwards and lie apart: each
one stops at or before the start of the next, and no span is repeated. Nothing
is left to be flipped, put in order or joined in such a selection, so it is its
own normal form, and cutting it down to a text that holds all of it changes
nothing.
-/

namespace TreeLens

namespace Span

/-- The first span is over before the second begins, and they differ. Only a
point can touch itself, so the second condition is about points. -/
def Apart (first second : Span) : Prop :=
  first.stop ≤ second.start ∧ first ≠ second

/-- Spans that lie apart stand in order. -/
theorem Apart.precedes {first second : Span} (apart : first.Apart second)
    (firstOrdered : first.Ordered) (secondOrdered : second.Ordered) :
    first.precedes second = true := by
  obtain ⟨before, -⟩ := apart
  simp only [Ordered] at firstOrdered secondOrdered
  rw [precedes_iff]
  omega

theorem precedes_trans {first second third : Span} (low : first.precedes second = true)
    (high : second.precedes third = true) : first.precedes third = true := by
  rw [precedes_iff] at low high ⊢
  omega

/-- A span inside a text is not cut. -/
theorem cut_eq_self {limit : Nat} {span : Span} (ordered : span.Ordered)
    (inside : span.stop ≤ limit) : span.cut limit = span := by
  simp only [Ordered] at ordered
  ext <;> simp only [cut] <;> omega

end Span

namespace TextSelection

/-- The spans of a selection do not run backwards and lie apart. -/
structure Normal (selection : TextSelection) : Prop where
  ordered : ∀ span ∈ selection.ranges, span.Ordered
  apart : selection.ranges.IsChain Span.Apart

/-- Joining keeps the start of the span it begins with and never pulls in its
stop. What comes out lies apart, in whatever order the spans came. -/
theorem joinFrom_spec (last : Span) (rest : List Span) (ordered : last.Ordered)
    (restOrdered : ∀ span ∈ rest, span.Ordered) :
    ∃ head tail, joinFrom last rest = head :: tail ∧ head.start = last.start ∧
      last.stop ≤ head.stop ∧ (∀ span ∈ head :: tail, span.Ordered) ∧
      (head :: tail).IsChain Span.Apart := by
  induction rest generalizing last with
  | nil => exact ⟨last, [], rfl, rfl, Nat.le_refl _, by simpa using ordered, .singleton _⟩
  | cons next rest ih =>
    obtain ⟨nextOrdered, restOrdered⟩ := List.forall_mem_cons.mp restOrdered
    by_cases meets : last = next ∨ next.start < last.stop
    · rw [joinFrom, if_pos meets]
      have grownOrdered : Span.Ordered ⟨last.start, max last.stop next.stop⟩ :=
        Nat.le_trans ordered (Nat.le_max_left _ _)
      obtain ⟨head, tail, joined, startEq, stopLe, allOrdered, chain⟩ :=
        ih ⟨last.start, max last.stop next.stop⟩ grownOrdered restOrdered
      exact ⟨head, tail, joined, startEq, Nat.le_trans (Nat.le_max_left _ _) stopLe,
        allOrdered, chain⟩
    · obtain ⟨head, tail, joined, startEq, stopLe, allOrdered, chain⟩ :=
        ih next nextOrdered restOrdered
      have apart : last.Apart head := by
        constructor
        · rw [startEq]
          exact Nat.not_lt.mp fun overlap => meets (Or.inr overlap)
        · -- A repeated span would be a point, and `next` the same point.
          rintro rfl
          apply meets
          left
          simp only [Span.Ordered] at ordered nextOrdered
          ext <;> omega
      rw [joinFrom, if_neg meets, joined]
      refine ⟨last, head :: tail, rfl, rfl, Nat.le_refl _, ?_, .cons_cons apart chain⟩
      exact List.forall_mem_cons.mpr ⟨ordered, allOrdered⟩

/-- Every normalised selection is normal. -/
theorem normal_ofSpans (spans : List Span) : (ofSpans spans).Normal := by
  have ordered : ∀ span ∈ (spans.map Span.flip).mergeSort Span.precedes, span.Ordered := by
    intro span member
    obtain ⟨original, -, rfl⟩ := List.mem_map.mp (List.mem_mergeSort.mp member)
    exact original.flip_ordered
  unfold ofSpans
  cases sorted : (spans.map Span.flip).mergeSort Span.precedes with
  | nil => exact ⟨by simp [join], .nil⟩
  | cons first rest =>
    rw [sorted] at ordered
    obtain ⟨firstOrdered, restOrdered⟩ := List.forall_mem_cons.mp ordered
    obtain ⟨head, tail, joined, -, -, allOrdered, chain⟩ :=
      joinFrom_spec first rest firstOrdered restOrdered
    constructor
    · simpa only [join, joined] using allOrdered
    · simpa only [join, joined] using chain

/-- Spans that lie apart are not joined. -/
theorem joinFrom_eq_self {last : Span} {rest : List Span}
    (chain : (last :: rest).IsChain Span.Apart) : joinFrom last rest = last :: rest := by
  induction rest generalizing last with
  | nil => rfl
  | cons next rest ih =>
    obtain ⟨⟨before, different⟩, restChain⟩ := List.isChain_cons_cons.mp chain
    have separate : ¬(last = next ∨ next.start < last.stop) := by
      rintro (same | overlap)
      · exact different same
      · exact absurd overlap (Nat.not_lt.mpr before)
    rw [joinFrom, if_neg separate, ih restChain]

/-- The spans of a normal selection stand in order. -/
theorem Normal.pairwise_precedes {selection : TextSelection} (normal : selection.Normal) :
    selection.ranges.Pairwise fun first second => first.precedes second = true := by
  obtain ⟨ordered, apart⟩ := normal
  have : Trans (fun first second : Span => first.precedes second = true)
      (fun first second => first.precedes second = true)
      (fun first second => first.precedes second = true) := ⟨Span.precedes_trans⟩
  apply List.IsChain.pairwise
  apply apart.imp_of_mem_imp
  intro first second firstMem secondMem pair
  exact pair.precedes (ordered first firstMem) (ordered second secondMem)

/-- A normal selection is its own normal form. -/
theorem Normal.ofSpans_eq_self {selection : TextSelection} (normal : selection.Normal) :
    ofSpans selection.ranges = selection := by
  have flipped : selection.ranges.map Span.flip = selection.ranges := by
    rw [List.map_congr_left fun span member => Span.flip_eq_self (normal.ordered span member)]
    exact List.map_id' _
  have joined : join selection.ranges = selection.ranges := by
    cases ranges : selection.ranges with
    | nil => rfl
    | cons first rest =>
      exact joinFrom_eq_self (ranges ▸ normal.apart)
  rw [ofSpans, flipped, List.mergeSort_of_pairwise normal.pairwise_precedes, joined]

/-- No span of a normal selection starts before the first one. -/
theorem Normal.start_le {selection : TextSelection} (normal : selection.Normal) {first span : Span}
    (leads : selection.first? = some first) (member : span ∈ selection.ranges) :
    first.start ≤ span.start := by
  have inOrder := normal.pairwise_precedes
  rw [first?] at leads
  obtain ⟨rest, ranges⟩ := List.head?_eq_some_iff.mp leads
  rw [ranges] at inOrder member
  rcases List.mem_cons.mp member with rfl | later
  · exact Nat.le_refl _
  · have before := Span.precedes_iff.mp (List.rel_of_pairwise_cons inOrder later)
    omega

/-- The hull of a normal selection starts where its first span does. -/
theorem Normal.map_start_hull? {selection : TextSelection} (normal : selection.Normal) :
    selection.hull?.map Span.start = selection.first?.map Span.start := by
  cases leads : selection.first? with
  | none =>
    rw [first?, List.head?_eq_none_iff] at leads
    simp [hull?, leads]
  | some first =>
    have member : first ∈ selection.ranges := List.mem_of_mem_head? leads
    have least : (selection.ranges.map Span.start).min? = some first.start := by
      rw [List.min?_eq_some_iff]
      refine ⟨List.mem_map_of_mem member, ?_⟩
      rintro start startMem
      obtain ⟨span, spanMem, rfl⟩ := List.mem_map.mp startMem
      exact normal.start_le leads spanMem
    have nonempty : selection.ranges.map Span.stop ≠ [] := by
      simpa using List.ne_nil_of_mem member
    obtain ⟨greatest, most⟩ := Option.isSome_iff_exists.mp (List.isSome_max?_of_ne_nil nonempty)
    simp [hull?, least, most]

theorem normal_single {span : Span} (ordered : span.Ordered) : (single span).Normal where
  ordered := by simpa [single] using ordered
  apart := .singleton _

/-- A normal selection fits into a text that all its spans fit into. -/
theorem Normal.clamp_eq_self {selection : TextSelection} (normal : selection.Normal) {limit : Nat}
    (inside : ∀ span ∈ selection.ranges, span.stop ≤ limit) :
    selection.clamp limit = selection := by
  have uncut : selection.ranges.map (Span.cut limit) = selection.ranges := by
    rw [List.map_congr_left fun span member =>
      Span.cut_eq_self (normal.ordered span member) (inside span member)]
    exact List.map_id' _
  rw [clamp, uncut, normal.ofSpans_eq_self]

/-- Joining reaches no further than the spans do. -/
theorem stop_le_of_mem_joinFrom {limit : Nat} {last span : Span} {rest : List Span}
    (inside : last.stop ≤ limit) (restInside : ∀ next ∈ rest, next.stop ≤ limit)
    (member : span ∈ joinFrom last rest) : span.stop ≤ limit := by
  induction rest generalizing last with
  | nil =>
    obtain rfl := List.mem_singleton.mp member
    exact inside
  | cons next rest ih =>
    obtain ⟨nextInside, restInside⟩ := List.forall_mem_cons.mp restInside
    rw [joinFrom] at member
    split at member
    · exact ih (Nat.max_le.mpr ⟨inside, nextInside⟩) restInside member
    · rcases List.mem_cons.mp member with rfl | later
      · exact inside
      · exact ih nextInside restInside later

/-- What is left after the cut lies inside the text. -/
theorem stop_le_of_mem_clamp {limit : Nat} {selection : TextSelection} {span : Span}
    (member : span ∈ (selection.clamp limit).ranges) : span.stop ≤ limit := by
  have inside : ∀ cut ∈ ((selection.ranges.map (Span.cut limit)).map Span.flip).mergeSort
      Span.precedes, cut.stop ≤ limit := by
    intro cut cutMem
    rw [List.mem_mergeSort, List.map_map, List.mem_map] at cutMem
    obtain ⟨original, -, rfl⟩ := cutMem
    simp only [Function.comp, Span.flip, Span.cut]
    omega
  rw [clamp, ofSpans] at member
  cases sorted : ((selection.ranges.map (Span.cut limit)).map Span.flip).mergeSort
      Span.precedes with
  | nil =>
    rw [sorted] at member
    cases member
  | cons first rest =>
    rw [sorted] at member inside
    obtain ⟨firstInside, restInside⟩ := List.forall_mem_cons.mp inside
    exact stop_le_of_mem_joinFrom firstInside restInside member

end TextSelection

end TreeLens
