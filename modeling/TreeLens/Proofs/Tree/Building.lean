import TreeLens.Lowering.Tiling
import TreeLens.Proofs.Tree.Children
import TreeLens.Tree.Builder

/-!
# What a builder builds

Calls to a builder may come in any order, and some of them are refused. The
answers tell which ones were not, and from these a log can be kept: the nodes in
the order in which they were started, each with the node that was the innermost
open one at the time. A refused call changes nothing. When the builder gives a
tree, its nodes are those of the log in the same order, and the children of a node
are those that were started while it was the innermost.
-/

namespace TreeLens

namespace Forest

variable {α β : Type}

/-- Every value in pre-order with its record in the lineage. -/
def withKin (parent : Option Nat) (depth position : Nat) (forest : Forest α) :
    List (α × Kin) :=
  forest.toList.zip (forest.kin parent depth position)

@[simp]
theorem length_withKin (parent : Option Nat) (depth position : Nat) (forest : Forest α) :
    (forest.withKin parent depth position).length = forest.size := by
  simp [withKin]

@[simp]
theorem withKin_nil (parent : Option Nat) (depth position : Nat) :
    (nil : Forest α).withKin parent depth position = [] :=
  rfl

theorem withKin_node (parent : Option Nat) (depth position : Nat) (value : α)
    (below after : Forest α) :
    (node value below after).withKin parent depth position =
      (value, ⟨parent, depth⟩) :: (below.withKin (some position) (depth + 1) (position + 1)
        ++ after.withKin parent depth (position + 1 + below.size)) := by
  rw [withKin, toList, kin, List.zip_cons_cons, List.zip_append (by simp)]
  rfl

theorem map_fst_withKin (parent : Option Nat) (depth position : Nat) (forest : Forest α) :
    (forest.withKin parent depth position).map Prod.fst = forest.toList :=
  List.map_fst_zip (by simp)

theorem map_snd_withKin (parent : Option Nat) (depth position : Nat) (forest : Forest α) :
    (forest.withKin parent depth position).map Prod.snd = forest.kin parent depth position :=
  List.map_snd_zip (by simp)

/-- A branch added behind the others is listed behind them. -/
theorem withKin_ofBranches_concat (parent : Option Nat) (depth position : Nat)
    (branches : List (α × Forest α)) (branch : α × Forest α) :
    (ofBranches (branches ++ [branch])).withKin parent depth position =
      (ofBranches branches).withKin parent depth position ++
        (node branch.1 branch.2 nil).withKin parent depth
          (position + (ofBranches branches).size) := by
  induction branches generalizing position with
  | nil => rfl
  | cons first rest ih =>
    simp only [List.cons_append, ofBranches, withKin_node _ _ _ first.1, ih, size,
      List.append_assoc]
    congr 4
    omega

/-- The lineage of a forest depends on its shape only. -/
theorem kin_map (change : α → β) (parent : Option Nat) (depth position : Nat)
    (forest : Forest α) :
    (forest.map change).kin parent depth position = forest.kin parent depth position := by
  induction forest generalizing parent depth position with
  | nil => rfl
  | node value below after belowKin afterKin => simp only [map, kin, belowKin, afterKin, size_map]

end Forest

namespace Builder

/-- A node that was started, as the call and its answer tell it. -/
structure Started where
  index : Nat
  draft : Draft
  /-- The innermost node open at the time, and how many were open. -/
  kin : Kin
deriving DecidableEq, Repr

/-- The node a tree should have for it. -/
def Started.node (started : Started) : Node :=
  ⟨started.draft.label, started.index⟩

/-- What the calls made so far and their answers tell. -/
structure Log where
  /-- The nodes started, in order. -/
  started : List Started := []
  /-- The indices of those still open, the innermost first. -/
  opened : List Nat := []
deriving DecidableEq, Repr

namespace Log

/-- A node was started and got an index. -/
def start (draft : Draft) (index : Nat) (log : Log) : Log where
  started := log.started ++ [⟨index, draft, log.opened.head?, log.opened.length⟩]
  opened := index :: log.opened

/-- The innermost open node was finished. -/
def finish (log : Log) : Log :=
  { log with opened := log.opened.tail }

/-- Take note of a call and its answer. Calls that were refused do not count. -/
def note (log : Log) : Call × Except Defect (Option Nat) → Log
  | (.start draft, .ok (some index)) => log.start draft index
  | (.token draft, .ok (some index)) => (log.start draft index).finish
  | (.finish, .ok none) => log.finish
  | _ => log

/-- The log of calls made to a new builder. -/
def ofCalls (calls : List Call) : Log :=
  (calls.zip (empty.run calls).1).foldl note {}

end Log

section Calls

variable {builder next : Builder} {draft : Draft} {index : Nat}

theorem start_eq_ok_iff : builder.start draft = .ok (index, next) ↔
    builder.root = none ∧ index = builder.count ∧
      next = { builder with
        count := builder.count + 1
        stack := ⟨draft.label, []⟩ :: builder.stack } := by
  rw [start]
  cases builder.root with
  | some _ => simp
  | none => simp [eq_comm]

/-- Closing a node either ends the root or hands the node to the one around it. -/
theorem finish_cases (finished : builder.finish = .ok next) :
    (∃ opened, builder.stack = [opened] ∧
      next = { builder with stack := [], root := some opened.close }) ∨
    (∃ opened parent outer, builder.stack = opened :: parent :: outer ∧
      next = { builder with stack := parent.add opened.close :: outer }) := by
  rw [finish] at finished
  split at finished
  · contradiction
  · exact Or.inl ⟨_, ‹_›, (Except.ok.inj finished).symm⟩
  · exact Or.inr ⟨_, _, _, ‹_›, (Except.ok.inj finished).symm⟩

/-- A node that was just opened can be closed. -/
theorem exists_finish_of_start (opened : builder.start draft = .ok (index, next)) :
    ∃ finished, next.finish = .ok finished := by
  obtain ⟨_, _, rfl⟩ := start_eq_ok_iff.mp opened
  rw [finish]
  cases builder.stack with
  | nil => exact ⟨_, rfl⟩
  | cons parent outer => exact ⟨_, rfl⟩

/-- What a call can come to. -/
inductive Answers (builder : Builder) : Call → Except Defect (Option Nat) → Builder → Prop where
  | refused (call : Call) (defect : Defect) : Answers builder call (.error defect) builder
  | started (draft : Draft) (index : Nat) (next : Builder)
    (opened : builder.start draft = .ok (index, next)) :
    Answers builder (.start draft) (.ok (some index)) next
  | added (draft : Draft) (index : Nat) (next last : Builder)
    (opened : builder.start draft = .ok (index, next)) (closed : next.finish = .ok last) :
    Answers builder (.token draft) (.ok (some index)) last
  | finished (next : Builder) (closed : builder.finish = .ok next) :
    Answers builder .finish (.ok none) next

/-- A call comes to one of the listed things. -/
theorem answers_call (builder : Builder) (call : Call) :
    builder.Answers call (builder.call call).1 (builder.call call).2 := by
  cases call with
  | start draft =>
    rw [Builder.call]
    cases opened : builder.start draft with
    | error defect => exact .refused _ defect
    | ok result => exact .started draft _ _ opened
  | token draft =>
    rw [Builder.call, token]
    cases opened : builder.start draft with
    | error defect => exact .refused _ defect
    | ok result =>
      obtain ⟨last, closed⟩ := exists_finish_of_start opened
      simp only [closed]
      exact .added draft _ _ last opened closed
  | finish =>
    rw [Builder.call]
    cases closed : builder.finish with
    | error defect => exact .refused _ defect
    | ok next => exact .finished next closed

/-- A call that is refused leaves the builder as it was. -/
theorem call_of_error {call : Call} {defect : Defect}
    (refused : (builder.call call).1 = .error defect) : (builder.call call).2 = builder := by
  have way := builder.answers_call call
  rw [refused] at way
  generalize (builder.call call).2 = left at way ⊢
  cases way with
  | refused => rfl

end Calls

/-- Number of nodes on a stack, finished children included. -/
def stackSize : List OpenNode → Nat
  | [] => 0
  | opened :: outer => stackSize outer + 1 + (Forest.ofBranches opened.done.reverse).size

/-- The indices of the open nodes: each comes behind the finished children of the
node around it. -/
def openIndices : List OpenNode → List Nat
  | [] => []
  | _ :: outer => stackSize outer :: openIndices outer

/-- The nodes of a stack in pre-order, each with its record in the lineage. -/
def listStack : List OpenNode → List (Label × Kin)
  | [] => []
  | opened :: outer =>
    listStack outer ++ (opened.label, ⟨(openIndices outer).head?, outer.length⟩) ::
      (Forest.ofBranches opened.done.reverse).withKin (some (stackSize outer)) (outer.length + 1)
        (stackSize outer + 1)

theorem length_openIndices (stack : List OpenNode) : (openIndices stack).length = stack.length := by
  induction stack with
  | nil => rfl
  | cons opened outer ih => rw [openIndices, List.length_cons, List.length_cons, ih]

theorem length_listStack (stack : List OpenNode) : (listStack stack).length = stackSize stack := by
  induction stack with
  | nil => rfl
  | cons opened outer ih =>
    simp only [listStack, stackSize, List.length_append, List.length_cons,
      Forest.length_withKin, ih]
    omega

/-- Handing a finished node to the one around it changes no place. -/
theorem listStack_add_close (opened parent : OpenNode) (outer : List OpenNode) :
    listStack (parent.add opened.close :: outer) = listStack (opened :: parent :: outer) := by
  have doneEq : (parent.add opened.close).done.reverse = parent.done.reverse ++ [opened.close] := by
    simp [OpenNode.add]
  have placeEq : stackSize outer + 1 + (Forest.ofBranches parent.done.reverse).size =
      stackSize (parent :: outer) := rfl
  rw [listStack, doneEq, Forest.withKin_ofBranches_concat, Forest.withKin_node, placeEq]
  simp [listStack, openIndices, OpenNode.add, OpenNode.close]

/-- The nodes a builder holds in pre-order, each with its record. -/
def listed (builder : Builder) : List (Label × Kin) :=
  match builder.root with
  | none => listStack builder.stack
  | some (root, below) => (Forest.node root below .nil).withKin none 0 0

/-- A log and a builder that tell the same. -/
structure Records (log : Log) (builder : Builder) : Prop where
  count_eq : builder.count = log.started.length
  numbered : log.started.map Started.index = List.range log.started.length
  listed_eq : builder.listed = log.started.map fun started => (started.draft.label, started.kin)
  opened_eq : log.opened = openIndices builder.stack
  /-- Nothing is open once there is a root. -/
  alone : ∀ root, builder.root = some root → builder.stack = []

namespace Records

variable {log : Log} {builder next : Builder}

theorem empty : Records {} Builder.empty where
  count_eq := rfl
  numbered := rfl
  listed_eq := rfl
  opened_eq := rfl
  alone := by
    intro root impossible
    contradiction

/-- Before there is a root, the log tells of the nodes on the stack. -/
theorem listStack_eq (records : Records log builder) (noRoot : builder.root = none) :
    listStack builder.stack =
      log.started.map fun started => (started.draft.label, started.kin) := by
  rw [← records.listed_eq, listed, noRoot]

theorem start (records : Records log builder) {draft : Draft} {index : Nat}
    (opened : builder.start draft = .ok (index, next)) :
    Records (log.start draft index) next := by
  obtain ⟨noRoot, rfl, rfl⟩ := start_eq_ok_iff.mp opened
  have listedEq := records.listStack_eq noRoot
  have countEq : builder.count = stackSize builder.stack := by
    rw [records.count_eq, ← length_listStack, listedEq, List.length_map]
  constructor
  case count_eq => simp [Log.start, records.count_eq]
  case numbered => simp [Log.start, records.numbered, records.count_eq, List.range_succ]
  case listed_eq =>
    rw [listed, noRoot]
    simp [Log.start, listStack, listedEq, records.opened_eq, length_openIndices,
      Forest.ofBranches]
  case opened_eq => simp [Log.start, openIndices, countEq, records.opened_eq]
  case alone =>
    intro root impossible
    rw [noRoot] at impossible
    contradiction

theorem finish (records : Records log builder) (closed : builder.finish = .ok next) :
    Records log.finish next := by
  have noRoot : builder.root = none := by
    rw [Option.eq_none_iff_forall_ne_some]
    intro root found
    rw [Builder.finish, records.alone root found] at closed
    contradiction
  have listedEq := records.listStack_eq noRoot
  rcases finish_cases closed with ⟨opened, stackEq, rfl⟩ | ⟨opened, parent, outer, stackEq, rfl⟩
  · constructor
    case count_eq => exact records.count_eq
    case numbered => exact records.numbered
    case listed_eq =>
      rw [stackEq] at listedEq
      rw [Log.finish, ← listedEq]
      simp [listed, listStack, openIndices, stackSize, OpenNode.close, Forest.withKin_node]
    case opened_eq =>
      rw [Log.finish, records.opened_eq, stackEq]
      rfl
    case alone => exact fun _ _ => rfl
  · constructor
    case count_eq => exact records.count_eq
    case numbered => exact records.numbered
    case listed_eq =>
      rw [stackEq] at listedEq
      rw [Log.finish, ← listedEq, ← listStack_add_close, listed, noRoot]
    case opened_eq =>
      rw [Log.finish, records.opened_eq, stackEq]
      rfl
    case alone =>
      intro root impossible
      rw [noRoot] at impossible
      contradiction

/-- One call and its answer. -/
theorem call (records : Records log builder) (call : Call) :
    Records (log.note (call, (builder.call call).1)) (builder.call call).2 := by
  have way := builder.answers_call call
  generalize (builder.call call).1 = answer, (builder.call call).2 = left at way ⊢
  cases way with
  | refused call defect => cases call <;> exact records
  | started draft index _ opened => exact records.start opened
  | added draft index _ _ opened closed => exact (records.start opened).finish closed
  | finished _ closed => exact records.finish closed

/-- Calls and their answers, one after the other. -/
theorem run (records : Records log builder) (calls : List Call) :
    Records ((calls.zip (builder.run calls).1).foldl Log.note log) (builder.run calls).2 := by
  induction calls generalizing log builder with
  | nil => exact records
  | cons first rest ih => exact ih (records.call first)

/-- The tree that comes out has the labels of the log, with the same records. -/
theorem withKin_of_complete (records : Records log builder) {sourceLength : Nat} {tree : Tree}
    (completed : builder.complete sourceLength = .ok tree) :
    (tree.forest.map Node.toLabel).withKin none 0 0 =
      log.started.map fun started => (started.draft.label, started.kin) := by
  rw [← records.listed_eq, listed]
  rw [Builder.complete] at completed
  split at completed
  · rename_i root below _ rootEq
    cases completed
    rw [rootEq, Tree.map_toLabel_forest_ofLabels]
  · contradiction
  · contradiction

theorem nodes_of_complete (records : Records log builder) {sourceLength : Nat} {tree : Tree}
    (completed : builder.complete sourceLength = .ok tree) :
    tree.nodes = log.started.map Started.node := by
  have labels := congrArg (List.map Prod.fst) (records.withKin_of_complete completed)
  rw [Forest.map_fst_withKin, Forest.toList_map, List.map_map] at labels
  change tree.nodes.map Node.toLabel = _ at labels
  have sizeEq : tree.size = log.started.length := by
    rw [← tree.length_nodes, ← List.length_map Node.toLabel, labels, List.length_map]
  have indices : tree.nodes.map Node.index = log.started.map Started.index := by
    rw [tree.map_index_nodes, records.numbered, sizeEq]
  -- A node is its label and its index.
  have separate : Function.Injective fun node : Node => (node.toLabel, node.index) := by
    rintro ⟨label, index⟩ ⟨_, _⟩ equal
    cases equal
    rfl
  apply List.map_injective_iff.mpr separate
  rw [← List.zip_map', labels, indices, List.zip_map', List.map_map]
  rfl

/-- Above each of its nodes the tree has what the log tells. -/
theorem withAncestors_of_complete (records : Records log builder) {sourceLength : Nat}
    {tree : Tree} (completed : builder.complete sourceLength = .ok tree) :
    (tree.withAncestors.map fun entry => (entry.1, Forest.kinOf entry.2)) =
      log.started.map fun started => (started.node, started.kin) := by
  have kin := congrArg (List.map Prod.snd) (records.withKin_of_complete completed)
  rw [Forest.map_snd_withKin, Forest.kin_map, List.map_map] at kin
  have nodes := records.nodes_of_complete completed
  rw [Tree.nodes, ← Forest.map_fst_withAncestors tree.forest []] at nodes
  rw [← List.zip_map', ← List.zip_map', ← nodes]
  refine congrArg _ (Eq.trans ?_ kin)
  exact (Forest.kin_eq_map_withAncestors [] tree.numbered_forest).symm

end Records

/-- A tree is the one a log tells of: it lists the started nodes in order, each
among the children of the node that was innermost when it was started. -/
structure Log.Describes (log : Log) (tree : Tree) : Prop where
  nodes_eq : tree.nodes = log.started.map Started.node
  children_eq : ∀ index, tree.children index =
    (log.started.filter fun started => started.kin.parent = some index).map Started.node
  mem_children_iff : ∀ started ∈ log.started, ∀ index,
    started.node ∈ tree.children index ↔ started.kin.parent = some index
  /-- The first node started is the root, and the only one without a parent. -/
  parent_eq_none_iff : ∀ started ∈ log.started, started.kin.parent = none ↔ started.index = 0
  parent_lt : ∀ started ∈ log.started, ∀ parent,
    started.kin.parent = some parent → parent < started.index
  increasing : ∀ index, ((tree.children index).map Node.index).Pairwise (· < ·)
  below_root : ∀ index < tree.size, Relation.ReflTransGen tree.IsChild 0 index
  /-- A node and its descendants have the indices of an interval. -/
  interval : ∀ index < tree.size, ∃ stop ≤ tree.size, ∀ other,
    Relation.ReflTransGen tree.IsChild index other ↔ index ≤ other ∧ other < stop

namespace Records

variable {log : Log} {builder : Builder} {sourceLength : Nat} {tree : Tree}

/-- Every started node stands in the tree below the node recorded for it. -/
theorem exists_above (records : Records log builder)
    (completed : builder.complete sourceLength = .ok tree) {started : Started}
    (member : started ∈ log.started) :
    ∃ above, (started.node, above) ∈ tree.withAncestors ∧ started.kin = Forest.kinOf above := by
  have listed : (started.node, started.kin) ∈
      log.started.map fun started => (started.node, started.kin) := List.mem_map_of_mem member
  rw [← records.withAncestors_of_complete completed, List.mem_map] at listed
  obtain ⟨⟨node, above⟩, placed, equal⟩ := listed
  obtain ⟨nodeEq, kinEq⟩ := Prod.mk.inj equal
  exact ⟨above, nodeEq ▸ placed, kinEq.symm⟩

theorem children_of_complete (records : Records log builder)
    (completed : builder.complete sourceLength = .ok tree) (index : Nat) :
    tree.children index =
      (log.started.filter fun started => started.kin.parent = some index).map Started.node := by
  let parentIs : Node × Kin → Bool := fun record => record.2.parent = some index
  have recorded := congrArg (fun records => (records.filter parentIs).map Prod.fst)
    (records.withAncestors_of_complete completed)
  simp only [List.filter_map, List.map_map] at recorded
  rw [Tree.children_eq_filter]
  exact recorded

theorem describes (records : Records log builder)
    (completed : builder.complete sourceLength = .ok tree) : log.Describes tree where
  nodes_eq := records.nodes_of_complete completed
  children_eq := records.children_of_complete completed
  mem_children_iff := by
    intro started member index
    obtain ⟨above, placed, kinEq⟩ := records.exists_above completed member
    rw [Tree.mem_children_iff placed, kinEq]
    rfl
  parent_eq_none_iff := by
    intro started member
    obtain ⟨above, placed, kinEq⟩ := records.exists_above completed member
    rw [kinEq]
    exact Option.map_eq_none_iff.trans (Tree.head?_above_eq_none_iff placed)
  parent_lt := by
    intro started member parent isParent
    obtain ⟨above, placed, kinEq⟩ := records.exists_above completed member
    rw [kinEq] at isParent
    exact (Lineage.ofTree tree).parent_lt ((Lineage.parent?_ofTree placed).trans isParent)
  increasing index := List.pairwise_map.mpr (tree.pairwise_index_children index)
  below_root _ inside := tree.reflTransGen_isChild_zero inside
  interval _ inside := tree.exists_interval inside

end Records

end Builder

/-- An extent is what a draft asks for, as far as that is possible: a full span that
runs backwards is empty at its start, and the content is moved into the full span.
Sums of offsets stay within any limit that the full span keeps to, and the bounds of
the content need no further correction. -/
structure Draft.SettledAs (draft : Draft) (extent : Extent) : Prop where
  full_eq : extent.full = ⟨draft.full.start, max draft.full.start draft.full.stop⟩
  clamp_start : Tiling.clamp? extent.full.start extent.full.stop draft.content.start =
    some extent.content.start
  clamp_stop : Tiling.clamp? extent.content.start extent.full.stop draft.content.stop =
    some extent.content.stop
  trivia_le : extent.leading + extent.trailing ≤ extent.length
  content_eq : extent.content = ⟨extent.start + extent.leading, extent.stop - extent.trailing⟩
  min_start : min (extent.start + extent.leading) extent.stop = extent.start + extent.leading
  max_stop : max (extent.stop - extent.trailing) (extent.start + extent.leading) =
    extent.stop - extent.trailing
  bounded : ∀ limit, draft.full.start ≤ limit → draft.full.stop ≤ limit →
    extent.start + extent.length ≤ limit ∧ extent.start + extent.leading ≤ limit

theorem Draft.settledAs_label (draft : Draft) : draft.SettledAs draft.label.extent := by
  have fullEq : draft.label.extent.full =
      ⟨draft.full.start, max draft.full.start draft.full.stop⟩ :=
    Extent.full_ofSpans draft.full draft.content
  have contentEq : draft.label.extent.content = _ :=
    Extent.content_ofSpans draft.full draft.content
  -- The rest holds of all extents, whose parts are in order by construction.
  generalize draft.label.extent = extent at fullEq contentEq ⊢
  have stopEq : extent.start + extent.length = max draft.full.start draft.full.stop :=
    congrArg Span.stop fullEq
  constructor
  case full_eq => exact fullEq
  case clamp_start => rw [fullEq, contentEq, Tiling.clamp?, if_pos (Nat.le_max_left _ _)]
  case clamp_stop =>
    rw [fullEq, contentEq, Tiling.clamp?, if_pos]
    dsimp only
    omega
  case bounded =>
    intro limit startLe stopLe
    simp only [Extent.length] at stopEq ⊢
    omega
  case content_eq =>
    simp only [Extent.content, Extent.stop, Extent.length, Span.mk.injEq, true_and]
    omega
  all_goals
    simp only [Extent.stop, Extent.length]
    omega

namespace Builder

/-- A refused call leaves any builder as it was. Whatever calls are made to a new
builder, the tree that comes out is the one their log tells of, and every node has
settled the spans given for it. -/
theorem complete_run (calls : List Call) :
    (∀ (builder : Builder) (call : Call) (defect : Defect),
      (builder.call call).1 = .error defect → (builder.call call).2 = builder) ∧
    ∀ (sourceLength : Nat) (tree : Tree), (empty.run calls).2.complete sourceLength = .ok tree →
      (Log.ofCalls calls).Describes tree ∧
      ∀ started ∈ (Log.ofCalls calls).started, started.draft.SettledAs started.node.extent := by
  refine ⟨fun _ _ _ refused => call_of_error refused, ?_⟩
  intro sourceLength tree completed
  refine ⟨(Records.empty.run calls).describes completed, ?_⟩
  intro started _
  exact started.draft.settledAs_label

/-- Three calls are refused: to finish before and after everything else, and to start
a node behind the root. The group has a full span that runs backwards, and the content
of the word lies before its full span, which ends at the last offset of 64 bits. -/
theorem complete_run_refusals :
    let calls : List Call :=
      [.finish, .start ⟨⟨{ kind := "file" }, ⟨2, 8⟩⟩, ⟨0, 10⟩⟩,
        .start ⟨⟨{ kind := "group" }, ⟨1, 9⟩⟩, ⟨7, 3⟩⟩,
        .token ⟨⟨{ kind := "word" }, ⟨0, 4⟩⟩, ⟨18446744073709551614, 18446744073709551615⟩⟩,
        .finish, .token ⟨⟨{ kind := "end" }, ⟨10, 10⟩⟩, ⟨9, 10⟩⟩, .finish, .finish,
        .start ⟨⟨{ kind := "file" }, ⟨0, 0⟩⟩, ⟨0, 0⟩⟩]
    let log := Log.ofCalls calls
    (log.started.map fun started => (started.index, started.kin.parent)) =
        [(0, none), (1, some 0), (2, some 1), (3, some 0)] ∧
      ∃ tree, (empty.run calls).2.complete 10 = .ok tree ∧ log.Describes tree ∧
        ∀ started ∈ log.started, started.draft.SettledAs started.node.extent := by
  intro calls log
  exact ⟨by decide, _, rfl, (complete_run calls).2 10 _ rfl⟩

end Builder

end TreeLens
