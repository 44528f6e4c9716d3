import TreeLens.Proofs.Naming
import TreeLens.Proofs.Text.Boundary

/-!
# What a selection step can do

A text event and a tree event go one of five ways each. The two relations here
list them with everything that is known in each case, and the transition always
takes one of the listed ways; later modules split on these cases and do not open
the transition again.

Two facts about what a step leaves behind follow at once: the tree selection
names a node of the parse, and the phase is idle unless a notification went
out. A third is about spans: the span a node shows as does not run backwards,
so it stands for itself under either way of choosing a target.
-/

namespace TreeLens

namespace Extent

theorem full_ordered (extent : Extent) : extent.full.Ordered :=
  Nat.le_add_right _ _

theorem content_ordered (extent : Extent) : extent.content.Ordered :=
  Nat.le_add_right _ _

end Extent

namespace TextSelection

/-- One span that does not run backwards is its own hull. -/
theorem hull?_single {span : Span} (ordered : span.Ordered) :
    (single span).hull? = some span := by
  have stopMax : max span.start span.stop = span.stop := Nat.max_eq_right ordered
  simp [hull?, single, stopMax]

end TextSelection

namespace Context

/-- The span a node shows as does not run backwards. -/
theorem nativeSpan?_ordered {context : Context} {node : Node} {span : Span}
    (shown : context.nativeSpan? node = some span) : span.Ordered := by
  apply Text.spanToNative_ordered shown
  split
  · exact node.extent.full_ordered
  · exact node.extent.content_ordered

/-- One ordered span stands for itself under either policy. -/
theorem target?_single (context : Context) {span : Span} (ordered : span.Ordered) :
    context.target? (.single span) = some span := by
  rw [target?]
  cases context.policy.multiRange with
  | first => rfl
  | enclosing => exact TextSelection.hull?_single ordered

/-- A tree selection that is empty or names a node of the parse. -/
def Names (context : Context) (tree : Option NodeId) : Prop :=
  ∀ id, tree = some id → ∃ node, context.snapshot.resolve? id = some node

theorem names_none (context : Context) : context.Names none := by
  intro id impossible
  contradiction

theorem names_of_resolve? {context : Context} {id : NodeId} {node : Node}
    (resolved : context.snapshot.resolve? id = some node) : context.Names (some id) := by
  intro other same
  cases same
  exact ⟨node, resolved⟩

/-- A span selects nothing or a node that has a name. -/
theorem names_of_pick? {context : Context} {target : Span} {picked : Option Node}
    (mapped : context.pick? target = some picked) :
    context.Names (picked.map context.snapshot.id) := by
  cases picked with
  | none => exact context.names_none
  | some node =>
    exact names_of_resolve? (Snapshot.resolve?_id (mem_nodes_of_pick? mapped))

/-- The node that a lookup finds for a text selection. There is none if the selection
stands for no span, or for one that cannot be looked up. -/
def found? (context : Context) (selection : TextSelection) : Option Node :=
  (context.target? selection).bind fun target => (context.pick? target).join

theorem found?_eq_some_iff {context : Context} {selection : TextSelection} {node : Node} :
    context.found? selection = some node ↔
      ∃ target, context.target? selection = some target ∧
        context.pick? target = some (some node) := by
  simp only [found?, Option.bind_eq_some_iff, Option.join_eq_some_iff]

theorem names_found? (context : Context) (selection : TextSelection) :
    context.Names ((context.found? selection).map context.snapshot.id) := by
  cases found : context.found? selection with
  | none => exact context.names_none
  | some node =>
    obtain ⟨target, -, mapped⟩ := found?_eq_some_iff.mp found
    exact names_of_pick? mapped

/-- The name of the node that was found leads back to it. -/
theorem bind_resolve?_found? (context : Context) (selection : TextSelection) :
    ((context.found? selection).map context.snapshot.id).bind context.snapshot.resolve? =
      context.found? selection := by
  cases found : context.found? selection with
  | none => rfl
  | some node =>
    obtain ⟨target, -, mapped⟩ := found?_eq_some_iff.mp found
    exact Snapshot.resolve?_id (mem_nodes_of_pick? mapped)

end Context

namespace SelectionState

/-- The selected node that shows as a span is the one the state names. -/
theorem current?_eq_some_iff {state : SelectionState} {context : Context} {target : Span}
    {node : Node} :
    state.current? context target = some node ↔
      ∃ id, state.tree = some id ∧ context.snapshot.resolve? id = some node ∧
        context.nativeSpan? node = some target := by
  simp only [current?, Option.bind_eq_bind, Option.bind_eq_some_iff, Option.ite_none_right_eq_some,
    Option.some.injEq]
  constructor
  · rintro ⟨id, selected, found, resolved, shown, rfl⟩
    exact ⟨id, selected, resolved, shown⟩
  · rintro ⟨id, selected, resolved, shown⟩
    exact ⟨id, selected, node, resolved, shown, rfl⟩

/-- The node a state keeps is the one it has selected. -/
theorem id_of_current? {state : SelectionState} {context : Context} {target : Span} {node : Node}
    (shown : state.current? context target = some node) :
    some (context.snapshot.id node) = state.tree := by
  obtain ⟨id, selected, resolved, -⟩ := current?_eq_some_iff.mp shown
  rw [selected, Snapshot.id_of_resolve? resolved]

/-- The ways a text event can go. -/
inductive TextStep (state : SelectionState) (context : Context) (selection : TextSelection) :
    Transition → Prop where
  | cleared (noTarget : context.target? selection = none) :
    TextStep state context selection (.quiet ⟨.idle, selection, none⟩ .cleared)
  | kept (target : Span) (node : Node)
    (reduced : context.target? selection = some target)
    (shown : state.current? context target = some node) :
    TextStep state context selection
      (.quiet ⟨.idle, selection, some (context.snapshot.id node)⟩ .consistent)
  | unmappable (target : Span)
    (reduced : context.target? selection = some target)
    (notShown : state.current? context target = none)
    (unmapped : context.pick? target = none) :
    TextStep state context selection (.drop state .unmappable)
  | agreed (target : Span) (picked : Option Node)
    (reduced : context.target? selection = some target)
    (notShown : state.current? context target = none)
    (mapped : context.pick? target = some picked)
    (same : picked.map context.snapshot.id = state.tree) :
    TextStep state context selection
      (.quiet ⟨.idle, selection, picked.map context.snapshot.id⟩ .consistent)
  | passedOn (target : Span) (picked : Option Node)
    (reduced : context.target? selection = some target)
    (notShown : state.current? context target = none)
    (mapped : context.pick? target = some picked)
    (different : picked.map context.snapshot.id ≠ state.tree) :
    TextStep state context selection
      (.propagate ⟨.idle, selection, picked.map context.snapshot.id⟩
        (.tree (picked.map context.snapshot.id)))

/-- A text event goes one of the listed ways. -/
theorem textStep (state : SelectionState) (context : Context) (selection : TextSelection) :
    TextStep state context selection (state.textChanged context selection) := by
  unfold textChanged
  cases reduced : context.target? selection with
  | none => exact .cleared reduced
  | some target =>
    cases shown : state.current? context target with
    | some node =>
      simp only [shown]
      exact .kept target node reduced shown
    | none =>
      cases mapped : context.pick? target with
      | none =>
        simp only [shown, mapped]
        exact .unmappable target reduced shown mapped
      | some picked =>
        by_cases same : picked.map context.snapshot.id = state.tree
        · simp only [shown, mapped, if_pos same]
          exact .agreed target picked reduced shown mapped same
        · simp only [shown, mapped, if_neg same]
          exact .passedOn target picked reduced shown mapped same

/-- The ways a tree event can go. -/
inductive TreeStep (state : SelectionState) (context : Context) :
    Option NodeId → Transition → Prop where
  | cleared : TreeStep state context none (.quiet ⟨.idle, .empty, none⟩ .cleared)
  | stale (id : NodeId) (unresolved : context.snapshot.resolve? id = none) :
    TreeStep state context (some id) (.drop state .staleNode)
  | unmappable (id : NodeId) (node : Node)
    (resolved : context.snapshot.resolve? id = some node)
    (unmapped : context.nativeSpan? node = none) :
    TreeStep state context (some id) (.drop state .unmappable)
  | agreed (id : NodeId) (node : Node) (span : Span)
    (resolved : context.snapshot.resolve? id = some node)
    (shown : context.nativeSpan? node = some span)
    (same : .single span = state.text) :
    TreeStep state context (some id) (.quiet ⟨.idle, .single span, some id⟩ .consistent)
  | passedOn (id : NodeId) (node : Node) (span : Span)
    (resolved : context.snapshot.resolve? id = some node)
    (shown : context.nativeSpan? node = some span)
    (different : .single span ≠ state.text) :
    TreeStep state context (some id)
      (.propagate ⟨.idle, .single span, some id⟩ (.text (.single span)))

/-- A tree event goes one of the listed ways. -/
theorem treeStep (state : SelectionState) (context : Context) (selection : Option NodeId) :
    TreeStep state context selection (state.treeChanged context selection) := by
  unfold treeChanged
  cases selection with
  | none => exact .cleared
  | some id =>
    cases resolved : context.snapshot.resolve? id with
    | none =>
      simp only [resolved]
      exact .stale id resolved
    | some node =>
      cases shown : context.nativeSpan? node with
      | none =>
        simp only [resolved, shown]
        exact .unmappable id node resolved shown
      | some span =>
        by_cases same : TextSelection.single span = state.text
        · simp only [resolved, shown, if_pos same]
          exact .agreed id node span resolved shown same
        · simp only [resolved, shown, if_neg same]
          exact .passedOn id node span resolved shown same

/-! ## Transitions -/

theorem transition_of_propagating {state : SelectionState} (context : Context) (event : Event)
    (busy : state.phase = .propagating) :
    state.transition context event = .drop state .reentrant := by
  unfold transition
  rw [busy]

theorem transition_text {state : SelectionState} (context : Context) (selection : TextSelection)
    (idle : state.phase = .idle) :
    state.transition context (.text selection) = state.textChanged context selection := by
  unfold transition
  rw [idle]

theorem transition_tree {state : SelectionState} (context : Context) (selection : Option NodeId)
    (idle : state.phase = .idle) :
    state.transition context (.tree selection) = state.treeChanged context selection := by
  unfold transition
  rw [idle]

/-- The selected node is kept if it shows as the reported span, whatever else lies there. -/
theorem transition_text_of_current? {state : SelectionState} {context : Context}
    {selection : TextSelection} {target : Span} {node : Node} (idle : state.phase = .idle)
    (reduced : context.target? selection = some target)
    (shown : state.current? context target = some node) :
    state.transition context (.text selection) =
      .quiet ⟨.idle, selection, state.tree⟩ .consistent := by
  rw [transition_text context selection idle, ← id_of_current? shown]
  simp only [textChanged, reduced, shown]

/-- A node that can be shown is selected together with its text, and the text view is told
unless it had that text selected already. -/
theorem transition_tree_of_shown {state : SelectionState} {context : Context} {id : NodeId}
    {node : Node} {span : Span} (idle : state.phase = .idle)
    (resolved : context.snapshot.resolve? id = some node)
    (shown : context.nativeSpan? node = some span) :
    state.transition context (.tree (some id)) =
      if .single span = state.text then .quiet ⟨.idle, .single span, some id⟩ .consistent
      else .propagate ⟨.idle, .single span, some id⟩ (.text (.single span)) := by
  rw [transition_tree context (some id) idle]
  simp only [treeChanged, resolved, shown]

/-- A transition keeps the tree selection among the nodes of the parse. -/
theorem names_transition {state : SelectionState} {context : Context}
    (names : context.Names state.tree) (event : Event) :
    context.Names (state.transition context event).state.tree := by
  cases phase : state.phase with
  | propagating =>
    rw [transition_of_propagating context event phase]
    exact names
  | idle =>
    cases event with
    | text selection =>
      rw [transition_text context selection phase]
      have way := state.textStep context selection
      generalize state.textChanged context selection = next at way ⊢
      cases way with
      | cleared => exact context.names_none
      | kept target node _ shown =>
        rw [id_of_current? shown]
        exact names
      | unmappable => exact names
      | agreed target picked _ _ mapped => exact Context.names_of_pick? mapped
      | passedOn target picked _ _ mapped => exact Context.names_of_pick? mapped
    | tree selection =>
      rw [transition_tree context selection phase]
      have way := state.treeStep context selection
      generalize state.treeChanged context selection = next at way ⊢
      cases way with
      | cleared => exact context.names_none
      | stale => exact names
      | unmappable => exact names
      | agreed id node span resolved => exact Context.names_of_resolve? resolved
      | passedOn id node span resolved => exact Context.names_of_resolve? resolved

/-- Where no node is selected, a text event selects the one that a lookup finds, also if
that is none at all. -/
theorem tree_transition_text {state : SelectionState} (context : Context)
    (selection : TextSelection) (idle : state.phase = .idle) (unselected : state.tree = none) :
    (state.transition context (.text selection)).state.tree =
      (context.found? selection).map context.snapshot.id := by
  rw [transition_text context selection idle]
  have way := state.textStep context selection
  generalize state.textChanged context selection = next at way ⊢
  cases way with
  | cleared noTarget => simp [Context.found?, noTarget, Transition.quiet]
  | kept target node _ shown =>
    obtain ⟨id, selected, -⟩ := current?_eq_some_iff.mp shown
    rw [unselected] at selected
    contradiction
  | unmappable target reduced _ unmapped =>
    simp [Context.found?, reduced, unmapped, Transition.drop, unselected]
  | agreed target picked reduced _ mapped =>
    simp [Context.found?, reduced, mapped, Transition.quiet]
  | passedOn target picked reduced _ mapped =>
    simp [Context.found?, reduced, mapped, Transition.propagate]

end SelectionState

/-- What a transition says of itself fits the state it leaves: it passed something on
exactly if there is a notification, which begins the phase that drops events, and it
dropped its event only if nothing changed. -/
structure Transition.Faithful (next : Transition) (state : SelectionState) : Prop where
  propagated_iff : next.outcome = .propagated ↔ next.emitted.isSome
  propagating_iff : next.state.phase = .propagating ↔
    next.emitted.isSome ∨ state.phase = .propagating
  dropped : ∀ reason, next.outcome = .dropped reason → next.state = state ∧ next.emitted = none

namespace SelectionState

theorem faithful_drop (state : SelectionState) (reason : DropReason) :
    (Transition.drop state reason).Faithful state := by
  constructor <;> simp [Transition.drop]

/-- A quiet transition that is not a drop leaves an idle state. -/
theorem faithful_quiet {state : SelectionState} (idle : state.phase = .idle)
    (text : TextSelection) (tree : Option NodeId) {outcome : Outcome}
    (quiet : outcome = .consistent ∨ outcome = .cleared) :
    (Transition.quiet ⟨.idle, text, tree⟩ outcome).Faithful state := by
  rcases quiet with rfl | rfl <;> constructor <;> simp [Transition.quiet, idle]

theorem faithful_propagate (state next : SelectionState) (event : Event) :
    (Transition.propagate next event).Faithful state := by
  constructor <;> simp [Transition.propagate]

theorem faithful_transition (state : SelectionState) (context : Context) (event : Event) :
    (state.transition context event).Faithful state := by
  cases phase : state.phase with
  | propagating =>
    rw [transition_of_propagating context event phase]
    exact faithful_drop state _
  | idle =>
    cases event with
    | text selection =>
      rw [transition_text context selection phase]
      have way := state.textStep context selection
      generalize state.textChanged context selection = next at way ⊢
      cases way with
      | cleared => exact faithful_quiet phase _ _ (Or.inr rfl)
      | kept => exact faithful_quiet phase _ _ (Or.inl rfl)
      | unmappable => exact faithful_drop state _
      | agreed => exact faithful_quiet phase _ _ (Or.inl rfl)
      | passedOn => exact faithful_propagate state _ _
    | tree selection =>
      rw [transition_tree context selection phase]
      have way := state.treeStep context selection
      generalize state.treeChanged context selection = next at way ⊢
      cases way with
      | cleared => exact faithful_quiet phase _ _ (Or.inr rfl)
      | stale => exact faithful_drop state _
      | unmappable => exact faithful_drop state _
      | agreed => exact faithful_quiet phase _ _ (Or.inl rfl)
      | passedOn => exact faithful_propagate state _ _

/-- From an idle state only a notification ends the idle phase. -/
theorem idle_transition {state : SelectionState} {context : Context} {event : Event}
    (idle : state.phase = .idle) (silent : (state.transition context event).emitted = none) :
    (state.transition context event).state.phase = .idle := by
  have busy := (state.faithful_transition context event).propagating_iff
  rw [silent, idle] at busy
  cases phase : (state.transition context event).state.phase with
  | idle => rfl
  | propagating => simp [phase] at busy

end SelectionState

end TreeLens
