import TreeLens.Proofs.Selection.Step
import TreeLens.Proofs.Text.Inverse

/-!
# What becomes of an event

An idle state drops a text event for one reason only: the span that the selection stands
for does not start at a character boundary of the parsed text. A selection that shows the
node in place is kept without a lookup, but no node shows as a span that starts elsewhere,
so nothing is kept that the lookup would have refused. A tree event is dropped if its name
is not understood or its node cannot be shown.

An event that is not dropped brings the selection of its own view, and the other view is
told exactly if its selection became another one. An event that empties its own selection
is the exception: it empties the other one without a word.
-/

namespace TreeLens

/-- Whether an event was dropped, for whatever reason. -/
def Outcome.isDropped : Outcome → Bool
  | dropped _ => true
  | _ => false

theorem Outcome.isDropped_iff {outcome : Outcome} :
    outcome.isDropped = true ↔ ∃ reason, outcome = .dropped reason := by
  cases outcome <;> simp [isDropped]

theorem TextSelection.hull?_eq_none_iff {selection : TextSelection} :
    selection.hull? = none ↔ selection.ranges = [] := by
  cases ranges : selection.ranges with
  | nil => simp [hull?, ranges]
  | cons first rest => simp [hull?, ranges]

namespace Context

/-- Every selection but the empty one stands for a span. -/
theorem target?_eq_none_iff {context : Context} {selection : TextSelection} :
    context.target? selection = none ↔ selection.ranges = [] := by
  rw [target?]
  cases context.policy.multiRange with
  | first => exact List.head?_eq_none_iff
  | enclosing => exact TextSelection.hull?_eq_none_iff

/-- A text selection that stands for nothing, or for a span that starts at a
character boundary of the parsed text. -/
def Admits (context : Context) (selection : TextSelection) : Prop :=
  ∀ target, context.target? selection = some target →
    (Text.toByte context.encoding context.snapshot.source target.start).isSome

/-- Only the start of a span decides whether it can be looked up. -/
theorem isSome_pick? (context : Context) (target : Span) :
    (context.pick? target).isSome =
      (Text.toByte context.encoding context.snapshot.source target.start).isSome := by
  unfold pick?
  cases Text.toByte context.encoding context.snapshot.source target.start with
  | none => rfl
  | some start =>
    cases located : context.snapshot.locate? start with
    | none => simp [located]
    | some node =>
      cases context.policy.multiRange with
      | first => simp [located]
      | enclosing =>
        cases Text.toByte context.encoding context.snapshot.source target.stop <;>
          simp [located]

/-- A span that a node shows as starts at a character boundary. -/
theorem isSome_pick?_of_nativeSpan? {context : Context} {node : Node} {span : Span}
    (shown : context.nativeSpan? node = some span) : (context.pick? span).isSome := by
  obtain ⟨start, -⟩ := Text.spanToNative_eq_some_iff.mp shown
  rw [isSome_pick?, Text.toByte_eq_some_iff.mpr start]
  rfl

theorem admits_iff {context : Context} {selection : TextSelection} :
    context.Admits selection ↔
      ∀ target, context.target? selection = some target → (context.pick? target).isSome := by
  simp only [Admits, isSome_pick?]

theorem not_admits_iff_of_target? {context : Context} {selection : TextSelection} {target : Span}
    (reduced : context.target? selection = some target) :
    ¬context.Admits selection ↔
      Text.toByte context.encoding context.snapshot.source target.start = none := by
  simp [Admits, reduced]

end Context

namespace SelectionState

variable {state : SelectionState} {context : Context}

section TextEvents

variable {selection : TextSelection}

/-- A selection that the parsed text admits is not dropped, but taken over as it is. -/
theorem transition_of_admits (idle : state.phase = .idle) (admitted : context.Admits selection) :
    (state.transition context (.text selection)).state.text = selection ∧
      (state.transition context (.text selection)).outcome.isDropped = false := by
  rw [transition_text context selection idle]
  have way := state.textStep context selection
  generalize state.textChanged context selection = next at way ⊢
  cases way with
  | unmappable target reduced _ unmapped =>
    have mapped := Context.admits_iff.mp admitted target reduced
    rw [unmapped] at mapped
    contradiction
  | _ => exact ⟨rfl, rfl⟩

theorem text_transition_of_admits (idle : state.phase = .idle)
    (admitted : context.Admits selection) :
    (state.transition context (.text selection)).state.text = selection :=
  (transition_of_admits idle admitted).1

/-- A selection that the parsed text does not admit is dropped. -/
theorem transition_of_not_admits (idle : state.phase = .idle)
    (refused : ¬context.Admits selection) :
    state.transition context (.text selection) = .drop state .unmappable := by
  rw [Context.admits_iff] at refused
  simp only [Classical.not_forall] at refused
  obtain ⟨target, reduced, unmapped⟩ := refused
  rw [transition_text context selection idle]
  have way := state.textStep context selection
  generalize state.textChanged context selection = next at way ⊢
  cases way with
  | cleared noTarget =>
    rw [reduced] at noTarget
    contradiction
  | kept other node otherReduced shown =>
    obtain rfl := Option.some.inj (reduced.symm.trans otherReduced)
    obtain ⟨id, -, -, mapped⟩ := current?_eq_some_iff.mp shown
    exact absurd (Context.isSome_pick?_of_nativeSpan? mapped) unmapped
  | unmappable => rfl
  | agreed other picked otherReduced _ mapped =>
    obtain rfl := Option.some.inj (reduced.symm.trans otherReduced)
    exact absurd (Option.isSome_of_eq_some mapped) unmapped
  | passedOn other picked otherReduced _ mapped =>
    obtain rfl := Option.some.inj (reduced.symm.trans otherReduced)
    exact absurd (Option.isSome_of_eq_some mapped) unmapped

theorem isDropped_transition_text_iff (idle : state.phase = .idle) :
    (state.transition context (.text selection)).outcome.isDropped = true ↔
      ¬context.Admits selection := by
  constructor
  · intro dropped admitted
    rw [(transition_of_admits idle admitted).2] at dropped
    contradiction
  · intro refused
    rw [transition_of_not_admits idle refused]
    rfl

theorem admits_of_not_isDropped (idle : state.phase = .idle)
    (taken : (state.transition context (.text selection)).outcome.isDropped = false) :
    context.Admits selection :=
  Classical.not_not.mp (mt (isDropped_transition_text_iff idle).mpr (Bool.eq_false_iff.mp taken))

/-- The tree view is told of a selection with spans exactly if the node became another
one. -/
theorem emitted_transition_text (idle : state.phase = .idle) (nonempty : selection.ranges ≠ [])
    (admitted : context.Admits selection) :
    (state.transition context (.text selection)).emitted =
      if (state.transition context (.text selection)).state.tree = state.tree then none
      else some (.tree (state.transition context (.text selection)).state.tree) := by
  rw [transition_text context selection idle]
  have way := state.textStep context selection
  generalize state.textChanged context selection = next at way ⊢
  cases way with
  | cleared noTarget => exact absurd (Context.target?_eq_none_iff.mp noTarget) nonempty
  | kept target node _ shown => exact (if_pos (id_of_current? shown)).symm
  | unmappable target reduced _ unmapped =>
    have mapped := Context.admits_iff.mp admitted target reduced
    rw [unmapped] at mapped
    contradiction
  | agreed target picked _ _ _ same => exact (if_pos same).symm
  | passedOn target picked _ _ _ different => exact (if_neg different).symm

end TextEvents

section TreeEvents

variable {id : NodeId}

/-- A name is refused if it is not understood, or if its node cannot be shown. -/
theorem isDropped_transition_tree_iff (idle : state.phase = .idle) :
    (state.transition context (.tree (some id))).outcome.isDropped = true ↔
      context.snapshot.resolve? id = none ∨
        ∃ node, context.snapshot.resolve? id = some node ∧ context.nativeSpan? node = none := by
  rw [transition_tree context (some id) idle]
  have way := state.treeStep context (some id)
  generalize state.treeChanged context (some id) = next at way ⊢
  cases way with
  | stale _ unresolved => exact iff_of_true rfl (Or.inl unresolved)
  | unmappable _ node resolved unmapped =>
    exact iff_of_true rfl (Or.inr ⟨node, resolved, unmapped⟩)
  | agreed _ node span resolved shown => simp [Transition.quiet, Outcome.isDropped, resolved, shown]
  | passedOn _ node span resolved shown =>
    simp [Transition.propagate, Outcome.isDropped, resolved, shown]

/-- A node that is not refused is selected with the one span it shows as, and the text view
is told exactly if it had another selection. -/
theorem transition_tree_of_not_isDropped (idle : state.phase = .idle)
    (taken : (state.transition context (.tree (some id))).outcome.isDropped = false) :
    ∃ node span, context.snapshot.resolve? id = some node ∧
      context.nativeSpan? node = some span ∧
      (state.transition context (.tree (some id))).state.tree = some id ∧
      (state.transition context (.tree (some id))).state.text = .single span ∧
      (state.transition context (.tree (some id))).emitted =
        if .single span = state.text then none else some (.text (.single span)) := by
  rw [transition_tree context (some id) idle] at taken ⊢
  have way := state.treeStep context (some id)
  generalize state.treeChanged context (some id) = next at taken way ⊢
  cases way with
  | stale | unmappable => contradiction
  | agreed _ node span resolved shown same =>
    exact ⟨node, span, resolved, shown, rfl, rfl, (if_pos same).symm⟩
  | passedOn _ node span resolved shown different =>
    exact ⟨node, span, resolved, shown, rfl, rfl, (if_neg different).symm⟩

end TreeEvents

/-- A dropped event changes nothing. -/
theorem state_transition_of_isDropped {event : Event}
    (dropped : (state.transition context event).outcome.isDropped = true) :
    (state.transition context event).state = state := by
  obtain ⟨reason, outcome⟩ := Outcome.isDropped_iff.mp dropped
  exact ((state.faithful_transition context event).dropped reason outcome).1

/-- What a transition says of itself fits what it does. Of an idle state, an event that
selects something is dropped exactly if it cannot be understood: a text selection if the
span it stands for does not start at a character boundary, a node if its name leads
nowhere or its bytes cut a character. Otherwise it is taken over as reported, and the
other view is told of its own new selection exactly if that is another one. -/
theorem transition_accounts (state : SelectionState) (context : Context) (event : Event) :
    let next := state.transition context event
    next.Faithful state ∧
      (state.phase = .idle → ∀ selection, event = .text selection → selection.ranges ≠ [] →
        ∃ target, context.target? selection = some target ∧
          (next.outcome.isDropped = true ↔
            Text.toByte context.encoding context.snapshot.source target.start = none) ∧
          (next.outcome.isDropped = false →
            next.state.text = selection ∧
              next.emitted =
                if next.state.tree = state.tree then none else some (.tree next.state.tree))) ∧
      (state.phase = .idle → ∀ id, event = .tree (some id) →
        (next.outcome.isDropped = true ↔
          context.snapshot.resolve? id = none ∨
            ∃ node, context.snapshot.resolve? id = some node ∧
              context.nativeSpan? node = none) ∧
          (next.outcome.isDropped = false →
            ∃ node span, context.snapshot.resolve? id = some node ∧
              context.nativeSpan? node = some span ∧
              next.state.tree = some id ∧ next.state.text = .single span ∧
              next.emitted =
                if next.state.text = state.text then none else some (.text next.state.text))) := by
  intro next
  refine ⟨state.faithful_transition context event, ?_, ?_⟩
  · rintro idle selection rfl nonempty
    have reducible : context.target? selection ≠ none := mt Context.target?_eq_none_iff.mp nonempty
    obtain ⟨target, reduced⟩ := Option.ne_none_iff_exists'.mp reducible
    refine ⟨target, reduced, (isDropped_transition_text_iff idle).trans
      (Context.not_admits_iff_of_target? reduced), ?_⟩
    intro taken
    have admitted := admits_of_not_isDropped idle taken
    exact ⟨text_transition_of_admits idle admitted,
      emitted_transition_text idle nonempty admitted⟩
  · rintro idle id rfl
    refine ⟨isDropped_transition_tree_iff idle, ?_⟩
    intro taken
    obtain ⟨node, span, resolved, shown, tree, text, emitted⟩ :=
      transition_tree_of_not_isDropped idle taken
    refine ⟨node, span, resolved, shown, tree, text, ?_⟩
    rw [text]
    exact emitted

/-- Carets in the middle and at the end of a character of two units stand for a span that
starts in the middle, and are dropped. Its node is selected by name, and the text view is
told of both units. -/
theorem transition_accounts_within_character :
    let tree := Tree.ofLabels ⟨{ kind := "file" }, ⟨0, 0, 4, 0⟩⟩ .nil 4
    let context : Context := ⟨Snapshot.ofTree ⟨1⟩ "😀" tree, .utf16, ⟨.enclosing, false⟩⟩
    let state : SelectionState := ⟨.idle, .caret 0, none⟩
    let carets : TextSelection := ⟨[⟨1, 1⟩, ⟨2, 2⟩]⟩
    let refused := state.transition context (.text carets)
    let named := state.transition context (.tree (some ⟨⟨1⟩, 0⟩))
    refused.outcome.isDropped = true ∧ refused.state = state ∧ refused.emitted = none ∧
      named.outcome.isDropped = false ∧ named.emitted = some (.text (.single ⟨0, 2⟩)) := by
  intro tree context state carets refused named
  obtain ⟨faithful, ofText, -⟩ := transition_accounts state context (.text carets)
  obtain ⟨target, reduced, dropped_iff, -⟩ := ofText rfl carets rfl (by decide)
  obtain rfl : (⟨1, 2⟩ : Span) = target := Option.some.inj reduced
  have dropped : refused.outcome.isDropped = true := dropped_iff.mpr (by decide)
  obtain ⟨reason, outcome⟩ := Outcome.isDropped_iff.mp dropped
  obtain ⟨unchanged, silent⟩ := faithful.dropped reason outcome
  refine ⟨dropped, unchanged, silent, ?_⟩
  obtain ⟨-, -, ofTree⟩ := transition_accounts state context (.tree (some ⟨⟨1⟩, 0⟩))
  obtain ⟨-, taken⟩ := ofTree rfl ⟨⟨1⟩, 0⟩ rfl
  have notDropped : named.outcome.isDropped = false := by decide
  obtain ⟨_, _, -, -, -, -, emitted⟩ := taken notDropped
  have both : named.state.text = .single ⟨0, 2⟩ := by decide
  rw [both] at emitted
  exact ⟨notDropped, emitted⟩

end SelectionState

end TreeLens
