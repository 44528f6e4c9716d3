import TreeLens.Proofs.Selection.Outcome

/-!
# Reporting an event again

A view may report a selection that it has reported before. Once the state is settled, the
second report finds everything as the first one left it: nobody is told, and nothing
changes. What was passed on the first time is consistent now, and any other outcome is the
same again.

The second report often goes another way than the first. A node that the lookup found may
be the one that is kept the second time, because the state now has it selected; what both
ways have in common is that the node is the selected one.
-/

namespace TreeLens

/-- What becomes of an event that is reported again. -/
def Outcome.repeated : Outcome → Outcome
  | propagated => consistent
  | outcome => outcome

namespace SelectionState

/-- The state has the selection that the event reports. -/
def Reflects (state : SelectionState) : Event → Prop
  | .text selection => state.text = selection
  | .tree selection => state.tree = selection

theorem settle_eq_self {state : SelectionState} (idle : state.phase = .idle) :
    state.settle = state :=
  SelectionState.ext idle.symm rfl rfl

section TextEvents

variable {state : SelectionState} {context : Context} {selection : TextSelection} {target : Span}

/-- A selection is consistent with the node that it picks, whether that node is looked up
or kept. -/
theorem transition_text_of_pick? {picked : Option Node} (idle : state.phase = .idle)
    (reduced : context.target? selection = some target)
    (mapped : context.pick? target = some picked)
    (selected : state.tree = picked.map context.snapshot.id) :
    state.transition context (.text selection) =
      .quiet ⟨.idle, selection, state.tree⟩ .consistent := by
  cases shown : state.current? context target with
  | some node => exact transition_text_of_current? idle reduced shown
  | none =>
    rw [transition_text context selection idle]
    simp only [textChanged, reduced, shown, mapped, selected, if_true]

/-- However a text event went, the settled state answers it with itself. -/
theorem TextStep.transition_settle {next : Transition} (idle : state.phase = .idle)
    (way : TextStep state context selection next) :
    next.state.settle.transition context (.text selection) =
      .quiet next.state.settle next.outcome.repeated := by
  cases way with
  | cleared noTarget =>
    rw [transition_text context selection rfl]
    simp only [textChanged, noTarget]
    rfl
  | kept target node reduced shown =>
    rw [id_of_current? shown]
    -- Which node is kept depends on the tree selection alone.
    exact transition_text_of_current? rfl reduced shown
  | unmappable target reduced notShown unmapped =>
    rw [Transition.drop, settle_eq_self idle, transition_text context selection idle]
    simp only [textChanged, reduced, notShown, unmapped]
    rfl
  | agreed target picked reduced _ mapped | passedOn target picked reduced _ mapped =>
    exact transition_text_of_pick? rfl reduced mapped rfl

end TextEvents

/-- However a tree event went, the settled state answers it with itself. -/
theorem TreeStep.transition_settle {state : SelectionState} {context : Context}
    {selection : Option NodeId} {next : Transition} (idle : state.phase = .idle)
    (way : TreeStep state context selection next) :
    next.state.settle.transition context (.tree selection) =
      .quiet next.state.settle next.outcome.repeated := by
  cases way with
  | cleared => rfl
  | stale id unresolved =>
    rw [Transition.drop, settle_eq_self idle, transition_tree context (some id) idle]
    simp only [treeChanged, unresolved]
    rfl
  | unmappable id node resolved unmapped =>
    rw [Transition.drop, settle_eq_self idle, transition_tree context (some id) idle]
    simp only [treeChanged, resolved, unmapped]
    rfl
  | agreed id node span resolved shown | passedOn id node span resolved shown =>
    rw [transition_tree_of_shown rfl resolved shown]
    exact if_pos rfl

/-- An event that is not dropped brings the selection it reports. -/
theorem reflects_settle_transition {state : SelectionState} {context : Context} {event : Event}
    (idle : state.phase = .idle)
    (taken : (state.transition context event).outcome.isDropped = false) :
    (state.transition context event).state.settle.Reflects event := by
  cases event with
  | text selection => exact text_transition_of_admits idle (admits_of_not_isDropped idle taken)
  | tree selection =>
    cases selection with
    | none =>
      rw [transition_tree context none idle]
      rfl
    | some id =>
      obtain ⟨_, _, -, -, selected, -⟩ := transition_tree_of_not_isDropped idle taken
      exact selected

/-- Events are idempotent. The first report is dropped or leaves a state that has the
reported selection; once that state is settled, a second report of the same event is told
to nobody and leaves the state as it is, with the same outcome, except that nothing has to
be passed on any more. -/
theorem transition_idempotent {state : SelectionState} (idle : state.phase = .idle)
    (context : Context) (event : Event) :
    let next := state.transition context event
    let again := next.state.settle.transition context event
    (next.outcome.isDropped = true ∨ next.state.settle.Reflects event) ∧
      again.emitted = none ∧ again.state.settle = next.state.settle ∧
      again.outcome = next.outcome.repeated := by
  intro next again
  have unchanged : again = .quiet next.state.settle next.outcome.repeated := by
    cases event with
    | text selection =>
      have way := state.textStep context selection
      rw [← transition_text context selection idle] at way
      exact way.transition_settle idle
    | tree selection =>
      have way := state.treeStep context selection
      rw [← transition_tree context selection idle] at way
      exact way.transition_settle idle
  refine ⟨?_, ?_⟩
  · cases dropped : next.outcome.isDropped with
    | true => exact Or.inl rfl
    | false => exact Or.inr (reflects_settle_transition idle dropped)
  · rw [unchanged]
    exact ⟨rfl, rfl, rfl⟩

/-- A caret and a span that runs backwards stand for their hull. The first report selects
the inner node by lookup, and the second keeps it, since it shows as just that hull. -/
theorem transition_idempotent_of_hull :
    let tree := Tree.ofLabels ⟨{ kind := "file" }, ⟨0, 0, 4, 0⟩⟩
      (.node ⟨{ kind := "name" }, ⟨1, 0, 2, 0⟩⟩ .nil .nil) 4
    let context : Context := ⟨Snapshot.ofTree ⟨1⟩ "abcd" tree, .utf8, ⟨.enclosing, false⟩⟩
    let event := Event.text ⟨[⟨3, 3⟩, ⟨1, 0⟩]⟩
    let next := ({} : SelectionState).transition context event
    let again := next.state.settle.transition context event
    context.target? ⟨[⟨3, 3⟩, ⟨1, 0⟩]⟩ = some ⟨1, 3⟩ ∧
      next.emitted = some (.tree (some ⟨⟨1⟩, 1⟩)) ∧ again.emitted = none ∧
      again.state.settle = next.state.settle ∧ again.outcome = .consistent := by
  intro tree context event next again
  have idle : ({} : SelectionState).phase = .idle := rfl
  have passedOn : next.outcome = .propagated := by decide +kernel
  obtain ⟨-, silent, unchanged, outcome⟩ := transition_idempotent idle context event
  refine ⟨by decide, by decide +kernel, silent, unchanged, ?_⟩
  rw [outcome, passedOn]
  rfl

end SelectionState

end TreeLens
