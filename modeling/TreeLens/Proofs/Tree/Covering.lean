import TreeLens.Proofs.Tree.Lookup
import TreeLens.Proofs.Tree.Pairs

/-!
# Covering nodes

A node covers a span of bytes when it holds the first of them and does not end
before they do. On a tree without defects the nodes that cover a span lie on one path
from the root down, and the last of them in pre-order is the deepest. It is found from
the lookup of the first byte alone: on the path to the located node, seen from below,
it is the first node that ends late enough.
-/

namespace TreeLens

/-- A node holds the first byte of a span and ends no earlier than the span. -/
def Node.Covers (node : Node) (bytes : Span) : Prop :=
  bytes.start ∈ node.full ∧ bytes.stop ≤ node.stop

instance (node : Node) (bytes : Span) : Decidable (node.Covers bytes) :=
  inferInstanceAs (Decidable (bytes.start ∈ node.full ∧ bytes.stop ≤ node.stop))

namespace Lineage

/-- The nodes above a node are less deep. -/
theorem depth_lt_of_mem_above {tree : Tree} {node ancestor : Node} {above : List Node}
    (placed : (node, above) ∈ tree.withAncestors) (isAbove : ancestor ∈ above) :
    (ofTree tree).depth ancestor.index < (ofTree tree).depth node.index := by
  induction above generalizing node with
  | nil => contradiction
  | cons parent above ih =>
    have parentPlaced := Tree.parent_mem_withAncestors placed
    have parentLt : (ofTree tree).depth parent.index < (ofTree tree).depth node.index := by
      rw [depth_ofTree placed, depth_ofTree parentPlaced, List.length_cons]
      exact Nat.lt_succ_self _
    rcases List.mem_cons.mp isAbove with rfl | further
    · exact parentLt
    · exact Nat.lt_trans (ih parentPlaced further) parentLt

end Lineage

namespace Tree

variable {tree : Tree} {bytes : Span}

/-- Of two nodes that share a byte, the first in pre-order is above the other. -/
theorem transGen_isChild_of_mem_full (valid : tree.validate = .ok ()) {first second : Node}
    (firstMember : first ∈ tree.nodes) (secondMember : second ∈ tree.nodes) {offset : Nat}
    (inFirst : offset ∈ first.full) (inSecond : offset ∈ second.full)
    (earlier : first.index < second.index) :
    Relation.TransGen tree.IsChild first.index second.index := by
  obtain ⟨firstAbove, firstPlaced⟩ := exists_mem_withAncestors firstMember
  obtain ⟨secondAbove, secondPlaced⟩ := exists_mem_withAncestors secondMember
  have pairs := pairwise_withAncestors_iff.mp (validate_eq_ok_iff_pairwise_arranged.mp valid).2
  rcases pairs _ firstPlaced _ secondPlaced earlier with ⟨isAbove, -⟩ | ⟨-, apart⟩
  · exact (transGen_isChild_iff firstMember secondPlaced earlier).mpr isAbove
  · exact absurd (Nat.lt_of_lt_of_le inFirst.2 apart) (Nat.not_lt.mpr inSecond.1)

/-- Of two nodes that share a byte, one is the other or above it. -/
theorem isChild_chain_of_mem_full (valid : tree.validate = .ok ()) {first second : Node}
    (firstMember : first ∈ tree.nodes) (secondMember : second ∈ tree.nodes) {offset : Nat}
    (inFirst : offset ∈ first.full) (inSecond : offset ∈ second.full) :
    Relation.ReflTransGen tree.IsChild first.index second.index ∨
      Relation.ReflTransGen tree.IsChild second.index first.index := by
  rcases Nat.lt_trichotomy first.index second.index with earlier | same | later
  · left
    exact (transGen_isChild_of_mem_full valid firstMember secondMember inFirst inSecond
      earlier).to_reflTransGen
  · left
    rw [same]
  · right
    exact (transGen_isChild_of_mem_full valid secondMember firstMember inSecond inFirst
      later).to_reflTransGen

/-- The nodes that cover a span, in pre-order. -/
def covering (tree : Tree) (bytes : Span) : List Node :=
  tree.nodes.filter fun node => node.Covers bytes

/-- A node covers a span, and all other nodes that do are above it and less deep. -/
structure DeepestCover (tree : Tree) (bytes : Span) (node : Node) : Prop where
  member : node ∈ tree.nodes
  covers : node.Covers bytes
  above : ∀ other ∈ tree.nodes, other.Covers bytes →
    Relation.ReflTransGen tree.IsChild other.index node.index
  deepest : ∀ other ∈ tree.nodes, other.Covers bytes → other ≠ node →
    (Lineage.ofTree tree).depth other.index < (Lineage.ofTree tree).depth node.index

/-- On a tree without defects the last node that covers a span is the deepest. -/
theorem deepestCover_of_getLast? (valid : tree.validate = .ok ()) {node : Node}
    (last : (tree.covering bytes).getLast? = some node) : tree.DeepestCover bytes node := by
  obtain ⟨member, covers⟩ := List.mem_filter.mp (List.mem_of_getLast? last)
  rw [decide_eq_true_eq] at covers
  have earlier : ∀ other ∈ tree.nodes, other.Covers bytes → other ≠ node →
      other.index < node.index := by
    intro other otherMember otherCovers different
    apply Nat.lt_of_le_of_ne
    · exact index_le_of_getLast?_filter last otherMember (decide_eq_true otherCovers)
    · exact fun sameIndex => different (eq_of_index_eq otherMember member sameIndex)
  have descends : ∀ other ∈ tree.nodes, other.Covers bytes → other ≠ node →
      Relation.TransGen tree.IsChild other.index node.index :=
    fun other otherMember otherCovers different =>
      transGen_isChild_of_mem_full valid otherMember member otherCovers.1 covers.1
        (earlier other otherMember otherCovers different)
  refine ⟨member, covers, ?_, ?_⟩
  · intro other otherMember otherCovers
    by_cases same : other = node
    · rw [same]
    · exact (descends other otherMember otherCovers same).to_reflTransGen
  · intro other otherMember otherCovers different
    obtain ⟨above, placed⟩ := exists_mem_withAncestors member
    have descendant := descends other otherMember otherCovers different
    rw [transGen_isChild_iff otherMember placed (earlier other otherMember otherCovers different)]
      at descendant
    exact Lineage.depth_lt_of_mem_above placed descendant

/-- The root covers every span of the source that begins before its end. -/
theorem root_covers (valid : tree.validate = .ok ()) (inside : bytes.start < tree.sourceLength)
    (stopLe : bytes.stop ≤ tree.sourceLength) : tree.root.Covers bytes := by
  have spans := (validate_eq_ok_iff.mp valid).1
  have stopEq : tree.root.stop = tree.sourceLength := congrArg Span.stop spans
  refine ⟨?_, by rwa [stopEq]⟩
  rw [spans]
  exact ⟨Nat.zero_le _, inside⟩

/-- The nodes that cover a span are among those that hold its first byte. -/
theorem covering_eq_filter_scan (tree : Tree) (bytes : Span) :
    tree.covering bytes = (tree.forest.scan bytes.start).filter
      fun candidate => decide (bytes.stop ≤ candidate.stop) := by
  rw [covering, Forest.scan, List.filter_filter]
  congr 1
  funext node
  rw [Bool.eq_iff_iff, Bool.and_eq_true, decide_eq_true_eq, decide_eq_true_eq,
    decide_eq_true_eq]
  exact and_comm

/-- Nothing covers a span that begins at the end of the source. -/
theorem covering_eq_nil (valid : tree.validate = .ok ())
    (past : tree.sourceLength ≤ bytes.start) : tree.covering bytes = [] := by
  rw [covering_eq_filter_scan, (nested_of_validate valid).scan_eq_nil (Or.inr past),
    List.filter_nil]

/-- Something covers every other span of the source. -/
theorem exists_getLast?_covering (valid : tree.validate = .ok ())
    (inside : bytes.start < tree.sourceLength) (stopLe : bytes.stop ≤ tree.sourceLength) :
    ∃ node, (tree.covering bytes).getLast? = some node := by
  have rootCovering : tree.root ∈ tree.covering bytes := by
    apply List.mem_filter.mpr
    rw [decide_eq_true_eq]
    exact ⟨List.mem_cons_self, root_covers valid inside stopLe⟩
  exact ⟨_, List.getLast?_eq_some_getLast (List.ne_nil_of_mem rootCovering)⟩

/-- A byte that a node holds lies before the end of the source. -/
theorem lt_sourceLength_of_mem_full (valid : tree.validate = .ok ()) {node : Node} {offset : Nat}
    (member : node ∈ tree.nodes) (holds : offset ∈ node.full) : offset < tree.sourceLength := by
  apply Nat.not_le.mp
  intro past
  have scanned : node ∈ tree.forest.scan offset :=
    List.mem_filter.mpr ⟨member, decide_eq_true holds⟩
  rw [(nested_of_validate valid).scan_eq_nil (Or.inr past)] at scanned
  contradiction

/-- The located node holds the byte. -/
theorem mem_full_of_locate? (valid : tree.validate = .ok ()) {offset : Nat} {located : Node}
    (found : tree.locate? offset = some located) : offset ∈ located.full := by
  rw [locate?_eq_getLast?_scan valid] at found
  exact of_decide_eq_true (List.mem_filter.mp (List.mem_of_getLast? found)).2

/-- Climbing from the located node to the first one that ends late enough leads to the
last node that covers the span. -/
theorem find?_reverse_pathTo (valid : tree.validate = .ok ()) {located : Node}
    (found : tree.locate? bytes.start = some located) :
    ((Lineage.ofTree tree).pathTo tree located).reverse.find?
        (fun candidate => decide (bytes.stop ≤ candidate.stop)) =
      (tree.covering bytes).getLast? := by
  rw [locate?_eq_getLast?_scan valid] at found
  rw [pathTo_eq_scan valid found, ← List.head?_filter, List.filter_reverse, List.head?_reverse,
    covering_eq_filter_scan]

/-- The climb ends at a node for every span of the source that begins before its end. -/
theorem exists_find?_reverse_pathTo (valid : tree.validate = .ok ())
    (inside : bytes.start < tree.sourceLength) (stopLe : bytes.stop ≤ tree.sourceLength) :
    ∃ located found, tree.locate? bytes.start = some located ∧
      ((Lineage.ofTree tree).pathTo tree located).reverse.find?
        (fun candidate => decide (bytes.stop ≤ candidate.stop)) = some found := by
  obtain ⟨deepest, last⟩ := exists_getLast?_covering valid inside stopLe
  cases located : tree.locate? bytes.start with
  | none =>
    rw [locate?_eq_getLast?_scan valid, List.getLast?_eq_none_iff] at located
    rw [covering_eq_filter_scan, located] at last
    contradiction
  | some node => exact ⟨node, deepest, rfl, (find?_reverse_pathTo valid located).trans last⟩

end Tree

end TreeLens
