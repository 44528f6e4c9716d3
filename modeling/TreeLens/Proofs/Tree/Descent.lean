import TreeLens.Proofs.Tree.Building
import TreeLens.Proofs.Tree.Linking

/-!
# Lookup on any tree

Nodes of a tree may overlap, leave their parents or stand out of order, and the lookup
still has an exact answer. It goes down as long as one child and no other holds the
offset, and gives up where two do. So it finds a node exactly when the path to the node is
the only way down: every node on it holds the offset, each is the only child of its parent
that does, and no child of the last one does. There is at most one such node.

Nothing here depends on the extents. The way down is followed through the lists of
children, and these lead to larger and larger indices, so every way ends.
-/

namespace TreeLens

namespace Tree

variable {tree : Tree} {offset : Nat}

/-- The siblings that hold an offset. -/
def holders (offset : Nat) (siblings : List Node) : List Node :=
  siblings.filter fun sibling => offset ∈ sibling.full

theorem holders_eq_nil_iff {siblings : List Node} :
    holders offset siblings = [] ↔ ∀ sibling ∈ siblings, offset ∉ sibling.full := by
  simp [holders]

theorem holders_cons_of_mem {first : Node} (inside : offset ∈ first.full) (rest : List Node) :
    holders offset (first :: rest) = first :: holders offset rest := by
  simp [holders, inside]

theorem holders_cons_of_not_mem {first : Node} (outside : offset ∉ first.full)
    (rest : List Node) : holders offset (first :: rest) = holders offset rest := by
  simp [holders, outside]

/-- A way down from some siblings: each step is the only one of the siblings that holds the
offset and leads to its children, and at the end of the way no sibling holds it. -/
def Way (tree : Tree) (offset : Nat) : List Node → List Node → Prop
  | siblings, [] => holders offset siblings = []
  | siblings, next :: rest =>
    holders offset siblings = [next] ∧ tree.Way offset (tree.children next.index) rest

theorem way_congr {siblings others : List Node}
    (same : holders offset siblings = holders offset others) (path : List Node) :
    tree.Way offset siblings path ↔ tree.Way offset others path := by
  cases path <;> simp only [Way, same]

/-- Behind a single sibling that holds the offset a way ends at once, or goes on among its
children. -/
theorem exists_way_iff_of_holders_eq_singleton {siblings : List Node} {only node : Node}
    (single : holders offset siblings = [only]) :
    (∃ path, tree.Way offset siblings path ∧ path.getLast? = some node) ↔
      holders offset (tree.children only.index) = [] ∧ only = node ∨
        ∃ path, tree.Way offset (tree.children only.index) path ∧ path.getLast? = some node := by
  constructor
  · rintro ⟨path, way, last⟩
    cases path with
    | nil => contradiction
    | cons next rest =>
      obtain ⟨chosen, restWay⟩ := way
      obtain rfl : only = next := List.singleton_inj.mp (single.symm.trans chosen)
      cases rest with
      | nil => exact Or.inl ⟨restWay, by simpa using last⟩
      | cons second rest => exact Or.inr ⟨_, restWay, by simpa using last⟩
  · rintro (⟨ended, rfl⟩ | ⟨path, way, last⟩)
    · exact ⟨[only], ⟨single, ended⟩, rfl⟩
    · refine ⟨only :: path, ⟨single, way⟩, ?_⟩
      rw [List.getLast?_cons, last]
      rfl

end Tree

namespace Forest

variable {tree : Tree} {offset : Nat}

open TreeLens.Tree (holders)

section Node

variable {value : Node} {below after : Forest Node}

theorem hit_of_not_mem (outside : offset ∉ value.full) :
    (node value below after).hit offset = after.hit offset := by
  rw [hit, if_neg outside]

theorem hit_of_crowded (inside : offset ∈ value.full)
    (crowded : holders offset after.roots ≠ []) :
    (node value below after).hit offset = .ambiguous := by
  have another : after.roots.any (fun sibling => offset ∈ sibling.full) = true := by
    rw [Ne, Tree.holders_eq_nil_iff] at crowded
    simpa using crowded
  rw [hit, if_pos inside, if_pos another]

theorem hit_of_alone (inside : offset ∈ value.full) (alone : holders offset after.roots = []) :
    (node value below after).hit offset = match below.hit offset with
      | .outside => .inside value
      | found => found := by
  have noOther : ¬after.roots.any (fun sibling => offset ∈ sibling.full) = true := by
    rw [Tree.holders_eq_nil_iff] at alone
    simpa using alone
  cases found : below.hit offset <;> rw [hit, if_pos inside, if_neg noOther, found]

end Node

theorem hit_eq_outside_iff {forest : Forest Node} :
    forest.hit offset = .outside ↔ holders offset forest.roots = [] := by
  induction forest with
  | nil => simp [hit, roots, holders]
  | node value below after _ afterOutside =>
    rw [roots]
    by_cases inside : offset ∈ value.full
    · rw [Tree.holders_cons_of_mem inside]
      by_cases alone : holders offset after.roots = []
      · rw [hit_of_alone inside alone]
        cases below.hit offset <;> simp
      · rw [hit_of_crowded inside alone]
        simp
    · rw [hit_of_not_mem inside, Tree.holders_cons_of_not_mem inside, afterOutside]

/-- The lookup finds the end of the way down. The induction is over the siblings, whose
children are those that the tree lists. -/
theorem hit_eq_inside_iff {forest : Forest Node}
    (listed : ∀ entry ∈ forest.entries, tree.children entry.1.index = entry.2) {node : Node} :
    forest.hit offset = .inside node ↔
      ∃ path, tree.Way offset forest.roots path ∧ path.getLast? = some node := by
  induction forest with
  | nil =>
    simp only [hit, reduceCtorEq, false_iff]
    rintro ⟨path, way, last⟩
    cases path <;> simp [Tree.Way, roots, holders] at way last
  | node value below after belowHit afterHit =>
    simp only [entries, List.forall_mem_cons, List.forall_mem_append] at listed
    obtain ⟨valueListed, belowListed, afterListed⟩ := listed
    rw [roots]
    by_cases inside : offset ∈ value.full
    · have first := Tree.holders_cons_of_mem inside after.roots
      by_cases alone : holders offset after.roots = []
      · rw [alone] at first
        rw [Tree.exists_way_iff_of_holders_eq_singleton first, valueListed,
          ← belowHit belowListed, ← hit_eq_outside_iff, hit_of_alone inside alone]
        cases below.hit offset <;> simp
      · -- Two siblings hold the offset, so there is neither a result nor a way.
        rw [hit_of_crowded inside alone]
        simp only [reduceCtorEq, false_iff]
        rintro ⟨path, way, -⟩
        cases path with
        | nil => simp [Tree.Way, first] at way
        | cons next rest => simp [Tree.Way, first, alone] at way
    · rw [hit_of_not_mem inside, afterHit afterListed]
      simp only [Tree.way_congr (Tree.holders_cons_of_not_mem inside after.roots)]

end Forest

namespace Tree

variable {tree : Tree} {offset : Nat} {node upper : Node} {above path : List Node}

theorem locate?_eq_some_iff_way :
    tree.locate? offset = some node ↔
      ∃ path, tree.Way offset [tree.root] path ∧ path.getLast? = some node := by
  rw [locate?, Hit.node?_eq_some_iff]
  exact Forest.hit_eq_inside_iff fun entry => children_of_mem_entries

/-! ## Ways and paths -/

theorem holders_children_eq_singleton_iff {index : Nat} {only : Node} :
    holders offset (tree.children index) = [only] ↔
      only ∈ tree.children index ∧ offset ∈ only.full ∧
        ∀ other ∈ tree.children index, offset ∈ other.full → other = only := by
  have distinct : (holders offset (tree.children index)).Nodup :=
    (tree.nodup_nodes.sublist (tree.children_sublist_nodes index)).filter _
  rw [← List.perm_singleton, List.perm_ext_iff_of_nodup distinct (List.pairwise_singleton _ only)]
  simp only [holders, List.mem_filter, decide_eq_true_eq, List.mem_singleton]
  constructor
  · intro same
    obtain ⟨isChild, inside⟩ := (same only).mpr rfl
    exact ⟨isChild, inside, fun other otherChild otherInside =>
      (same other).mp ⟨otherChild, otherInside⟩⟩
  · rintro ⟨isChild, inside, noOther⟩ other
    constructor
    · rintro ⟨otherChild, otherInside⟩
      exact noOther other otherChild otherInside
    · rintro rfl
      exact ⟨isChild, inside⟩

/-- A child has its parent above it, and what is above that. -/
theorem mem_withAncestors_of_mem_children {child : Node}
    (placed : (upper, above) ∈ tree.withAncestors) (isChild : child ∈ tree.children upper.index) :
    (child, upper :: above) ∈ tree.withAncestors := by
  obtain ⟨childAbove, childPlaced⟩ :=
    exists_mem_withAncestors ((tree.children_sublist_nodes upper.index).subset isChild)
  rw [mem_children_iff childPlaced] at isChild
  cases childAbove with
  | nil => contradiction
  | cons parent rest =>
    have parentPlaced := parent_mem_withAncestors childPlaced
    have sameIndex : parent.index = upper.index := Option.some.inj isChild
    have found := withAncestors_getElem?_index parentPlaced
    rw [sameIndex, withAncestors_getElem?_index placed] at found
    cases found
    exact childPlaced

/-- A node is in one list of children only. -/
theorem eq_of_mem_children {child : Node} {first second : Nat}
    (inFirst : child ∈ tree.children first) (inSecond : child ∈ tree.children second) :
    first = second := by
  obtain ⟨childAbove, placed⟩ :=
    exists_mem_withAncestors ((tree.children_sublist_nodes first).subset inFirst)
  rw [mem_children_iff placed] at inFirst inSecond
  exact Option.some.inj (inFirst.symm.trans inSecond)

theorem root_mem_withAncestors (tree : Tree) : (tree.root, []) ∈ tree.withAncestors := by
  rw [withAncestors_eq]
  exact List.mem_cons_self

theorem root_notMem_children (tree : Tree) (index : Nat) : tree.root ∉ tree.children index := by
  rw [mem_children_iff tree.root_mem_withAncestors]
  simp

namespace Way

theorem inside {siblings : List Node} (way : tree.Way offset siblings path) :
    ∀ step ∈ path, offset ∈ step.full := by
  induction path generalizing siblings with
  | nil => simp
  | cons next rest ih =>
    obtain ⟨single, restWay⟩ := way
    have chosen : next ∈ holders offset siblings := single ▸ List.mem_cons_self
    rw [List.forall_mem_cons]
    exact ⟨of_decide_eq_true (List.mem_filter.mp chosen).2, ih restWay⟩

/-- Every step of a way is the only one of its siblings that holds the offset. -/
theorem only (way : tree.Way offset (tree.children upper.index) path) :
    ∀ step ∈ path, ∀ parent, step ∈ tree.children parent →
      holders offset (tree.children parent) = [step] := by
  induction path generalizing upper with
  | nil => simp
  | cons next rest ih =>
    obtain ⟨single, restWay⟩ := way
    rw [List.forall_mem_cons]
    refine ⟨?_, ih restWay⟩
    intro parent isChild
    rwa [eq_of_mem_children isChild (holders_children_eq_singleton_iff.mp single).1]

/-- No child of the node at the end of a way holds the offset. -/
theorem holders_last {siblings : List Node} (way : tree.Way offset siblings path)
    (last : path.getLast? = some node) : holders offset (tree.children node.index) = [] := by
  induction path generalizing siblings with
  | nil => contradiction
  | cons next rest ih =>
    obtain ⟨-, restWay⟩ := way
    cases rest with
    | nil =>
      obtain rfl : next = node := by simpa using last
      exact restWay
    | cons second rest => exact ih restWay (by simpa using last)

/-- A way that goes on from a node is the rest of the path to its end. -/
theorem pathTo_eq (placed : (upper, above) ∈ tree.withAncestors)
    (way : tree.Way offset (tree.children upper.index) path)
    (last : (upper :: path).getLast? = some node) :
    (Lineage.ofTree tree).pathTo tree node = (upper :: above).reverse ++ path := by
  induction path generalizing upper above with
  | nil =>
    obtain rfl : upper = node := by simpa using last
    rw [Lineage.pathTo_ofTree placed, List.append_nil]
  | cons next rest ih =>
    obtain ⟨single, restWay⟩ := way
    have nextPlaced := mem_withAncestors_of_mem_children placed
      (holders_children_eq_singleton_iff.mp single).1
    rw [ih nextPlaced restWay (by simpa using last)]
    simp

end Way

/-- Steps each of which is the only child that holds the offset make a way, if no child of
the last one does. -/
theorem way_of_isChain {siblings : List Node} {first : Node} {rest : List Node}
    (top : holders offset siblings = [first])
    (chain : (first :: rest).IsChain fun upper lower =>
      holders offset (tree.children upper.index) = [lower])
    (last : (first :: rest).getLast? = some node)
    (deepest : holders offset (tree.children node.index) = []) :
    tree.Way offset siblings (first :: rest) := by
  induction rest generalizing siblings first with
  | nil =>
    obtain rfl : first = node := by simpa using last
    exact ⟨top, deepest⟩
  | cons next rest ih =>
    obtain ⟨step, restChain⟩ := List.isChain_cons_cons.mp chain
    exact ⟨top, ih step restChain (by simpa using last)⟩

/-! ## The only way down -/

/-- The path to a node is the only way down to the offset: every node on it holds the
offset, each but the root is the only child of its parent that does, and no child of the
last one does. -/
structure OnlyWay (tree : Tree) (offset : Nat) (node : Node) : Prop where
  member : node ∈ tree.nodes
  inside : ∀ step ∈ (Lineage.ofTree tree).pathTo tree node, offset ∈ step.full
  only : ∀ step ∈ (Lineage.ofTree tree).pathTo tree node, ∀ parent,
    (Lineage.ofTree tree).parentIn? tree step = some parent →
      ∀ other ∈ tree.children parent.index, offset ∈ other.full → other = step
  deepest : ∀ child ∈ tree.children node.index, offset ∉ child.full

theorem onlyWay_of_way (way : tree.Way offset [tree.root] path)
    (last : path.getLast? = some node) : tree.OnlyWay offset node := by
  have member : node ∈ tree.nodes :=
    mem_nodes_of_locate? (locate?_eq_some_iff_way.mpr ⟨path, way, last⟩)
  cases path with
  | nil => contradiction
  | cons first rest =>
    have stepsInside := way.inside
    have ended := way.holders_last last
    obtain ⟨single, restWay⟩ := way
    obtain rfl : tree.root = first := by
      have chosen : first ∈ holders offset [tree.root] := single ▸ List.mem_cons_self
      exact (List.mem_singleton.mp (List.mem_filter.mp chosen).1).symm
    have pathEq : (Lineage.ofTree tree).pathTo tree node = tree.root :: rest := by
      rw [restWay.pathTo_eq tree.root_mem_withAncestors last]
      rfl
    constructor
    case member => exact member
    case inside => rwa [pathEq]
    case only =>
      intro step onPath parent recorded
      have inTree := Lineage.mem_nodes_of_mem_pathTo member onPath
      have isChild := Lineage.mem_children_of_parentIn? inTree recorded
      rw [pathEq] at onPath
      rcases List.mem_cons.mp onPath with rfl | further
      · exact absurd isChild (tree.root_notMem_children _)
      · exact (holders_children_eq_singleton_iff.mp
          (restWay.only step further parent.index isChild)).2.2
    case deepest => exact holders_eq_nil_iff.mp ended

theorem OnlyWay.exists_way (onlyWay : tree.OnlyWay offset node) :
    ∃ path, tree.Way offset [tree.root] path ∧ path.getLast? = some node := by
  obtain ⟨member, inside, only, deepest⟩ := onlyWay
  have leads := Lineage.leads_pathTo tree member
  have known : node.index < (Lineage.ofTree tree).table.size := by
    rw [Lineage.size_table_ofTree]
    exact index_lt_size member
  have chain : ((Lineage.ofTree tree).pathTo tree node).IsChain fun upper lower =>
      holders offset (tree.children upper.index) = [lower] := by
    apply leads.isChain.imp_of_mem_imp
    intro upper lower _ onPath recorded
    have isChild := Lineage.mem_children_of_parentIn? (leads.mem_nodes lower onPath) recorded
    exact holders_children_eq_singleton_iff.mpr
      ⟨isChild, inside lower onPath, only lower onPath upper recorded⟩
  have last := leads.getLast?_eq
  obtain ⟨rest, pathEq⟩ := List.head?_eq_some_iff.mp (leads.head?_eq known)
  rw [pathEq] at chain last inside
  have top : holders offset [tree.root] = [tree.root] :=
    holders_cons_of_mem (inside tree.root List.mem_cons_self) []
  exact ⟨_, way_of_isChain top chain last (holders_eq_nil_iff.mpr deepest), last⟩

/-- The lookup finds the node to which there is only one way, on every tree. -/
theorem locate?_eq_some_iff_onlyWay :
    tree.locate? offset = some node ↔ tree.OnlyWay offset node := by
  rw [locate?_eq_some_iff_way]
  constructor
  · rintro ⟨path, way, last⟩
    exact onlyWay_of_way way last
  · exact OnlyWay.exists_way

/-! ## Every way ends -/

theorem index_lt_of_mem_children {child : Node} {parent : Nat}
    (isChild : child ∈ tree.children parent) : parent < child.index :=
  (Lineage.ofTree tree).parent_lt
    ((Lineage.parent?_ofTree_eq_some_iff tree).mpr (List.mem_map_of_mem isChild))

/-- A chain of children ends before the indices do. -/
theorem index_add_length_lt_size (member : upper ∈ tree.nodes)
    (chain : (upper :: path).IsChain fun upper lower => lower ∈ tree.children upper.index) :
    upper.index + path.length < tree.size := by
  induction path generalizing upper with
  | nil => exact index_lt_size member
  | cons next rest ih =>
    obtain ⟨isChild, restChain⟩ := List.isChain_cons_cons.mp chain
    have larger := index_lt_of_mem_children isChild
    have bound := ih ((tree.children_sublist_nodes _).subset isChild) restChain
    rw [List.length_cons]
    omega

/-- Whatever calls built a tree, as long as the spans given for its nodes keep to a limit, so
do the ends of the nodes that the lookup adds up. A chain of children from the root down has
no more nodes than the tree, so the lookup ends. It finds a node exactly when the path to the
node is the only way down to the offset; there is at most one such node, and where there is
none the lookup finds nothing. -/
theorem locate?_finds_only_way {calls : List Builder.Call} {sourceLength limit : Nat}
    (completed : (Builder.empty.run calls).2.complete sourceLength = .ok tree)
    (within : ∀ started ∈ (Builder.Log.ofCalls calls).started,
      started.draft.full.start ≤ limit ∧ started.draft.full.stop ≤ limit) (offset : Nat) :
    (∀ node ∈ tree.nodes, node.start + node.extent.length ≤ limit) ∧
      (∀ path : List Node, ((tree.root :: path).IsChain fun upper lower =>
        lower ∈ tree.children upper.index) → (tree.root :: path).length ≤ tree.size) ∧
      (∀ node, tree.locate? offset = some node ↔ tree.OnlyWay offset node) ∧
      (∀ first second, tree.OnlyWay offset first → tree.OnlyWay offset second →
        first = second) ∧
      (tree.locate? offset = none ↔ ∀ node, ¬tree.OnlyWay offset node) := by
  refine ⟨?_, ?_, fun node => locate?_eq_some_iff_onlyWay, ?_, ?_⟩
  · intro node member
    have records : Builder.Records (Builder.Log.ofCalls calls) (Builder.empty.run calls).2 :=
      Builder.Records.empty.run calls
    rw [records.nodes_of_complete completed] at member
    obtain ⟨started, isStarted, rfl⟩ := List.mem_map.mp member
    obtain ⟨startLe, stopLe⟩ := within started isStarted
    exact (started.draft.settledAs_label.bounded limit startLe stopLe).1
  · intro path chain
    have rootMember : tree.root ∈ tree.nodes := by
      rw [nodes_eq]
      exact List.mem_cons_self
    have bound := index_add_length_lt_size rootMember chain
    rw [List.length_cons]
    omega
  · intro first second firstWay secondWay
    rw [← locate?_eq_some_iff_onlyWay] at firstWay secondWay
    exact Option.some.inj (firstWay.symm.trans secondWay)
  · rw [Option.eq_none_iff_forall_ne_some]
    simp only [Ne, locate?_eq_some_iff_onlyWay]

/-- Two words overlap in a file that reaches to the last offset of 64 bits, and the second
begins before the file does. Where both words lie nothing is found. -/
theorem locate?_finds_only_way_beside_overlap :
    let calls : List Builder.Call :=
      [.start ⟨⟨{ kind := "file" }, ⟨4, 9⟩⟩, ⟨4, 18446744073709551615⟩⟩,
        .token ⟨⟨{ kind := "word" }, ⟨6, 9⟩⟩, ⟨6, 12⟩⟩,
        .token ⟨⟨{ kind := "word" }, ⟨0, 4⟩⟩, ⟨0, 8⟩⟩, .finish]
    (∀ started ∈ (Builder.Log.ofCalls calls).started,
      started.draft.full.start ≤ 18446744073709551615 ∧
        started.draft.full.stop ≤ 18446744073709551615) ∧
      ∃ tree, (Builder.empty.run calls).2.complete 10 = .ok tree ∧
        (∃ node, tree.OnlyWay 9 node ∧ node.index = 1) ∧ ∀ node, ¬tree.OnlyWay 7 node := by
  intro calls
  have within : ∀ started ∈ (Builder.Log.ofCalls calls).started,
      started.draft.full.start ≤ 18446744073709551615 ∧
        started.draft.full.stop ≤ 18446744073709551615 := by decide
  refine ⟨within, _, rfl, ⟨_, ((locate?_finds_only_way rfl within 9).2.2.1 _).mp rfl, rfl⟩, ?_⟩
  exact (locate?_finds_only_way rfl within 7).2.2.2.2.mp rfl

end Tree

end TreeLens
