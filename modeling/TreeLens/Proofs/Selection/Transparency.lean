import TreeLens.Proofs.Selection.SameBytes
import TreeLens.Selection.Transition

/-!
# The encoding does not show

Two sessions over the same parse with the same policy count positions in
different units. Their states agree when they have the same phase, select the
same node and select the same bytes of the text, each written in its own units.
Agreeing events take agreeing states to agreeing states, with the same outcome,
and what is passed on agrees as well; so two runs of agreeing events stay
together at every step.

A transition meets units in four places only, and each of them sees the bytes
behind the units: the target of a selection, the node a target picks, the span a
node shows as, and the comparison of two selections.
-/

namespace TreeLens

namespace Context

variable {snapshot : Snapshot} {policy : Policy} {first second : Encoding}

/-- Selections of the same bytes stand for the same bytes under either policy. -/
theorem rel_target? (policy : Policy) {left right : TextSelection}
    (same : left.SameBytes snapshot.source first second right) :
    Option.Rel (Text.SameBytes snapshot.source first second)
      (target? ⟨snapshot, first, policy⟩ left) (target? ⟨snapshot, second, policy⟩ right) := by
  unfold target?
  cases policy.multiRange with
  | first => exact same.first?
  | enclosing => exact same.hull?

/-- A node shows as the same bytes. -/
theorem rel_nativeSpan? (snapshot : Snapshot) (policy : Policy) (first second : Encoding)
    (node : Node) :
    Option.Rel (Text.SameBytes snapshot.source first second)
      (nativeSpan? ⟨snapshot, first, policy⟩ node)
      (nativeSpan? ⟨snapshot, second, policy⟩ node) :=
  Text.rel_spanToNative snapshot.source first second _

/-- Spans of the same bytes pick the same node. -/
theorem pick?_eq {left right : Span}
    (same : Text.SameBytes snapshot.source first second left right) :
    pick? ⟨snapshot, first, policy⟩ left = pick? ⟨snapshot, second, policy⟩ right := by
  obtain ⟨start, leftStart, rightStart⟩ := same.start.exists_toByte
  obtain ⟨stop, leftStop, rightStop⟩ := same.stop.exists_toByte
  simp only [pick?, leftStart, rightStart, leftStop, rightStop]

/-- A node shows as the one span exactly when it shows as the other. -/
theorem nativeSpan?_eq_some_iff {left right : Span} {node : Node}
    (same : Text.SameBytes snapshot.source first second left right) :
    nativeSpan? ⟨snapshot, first, policy⟩ node = some left ↔
      nativeSpan? ⟨snapshot, second, policy⟩ node = some right := by
  have shown := rel_nativeSpan? snapshot policy first second node
  generalize nativeSpan? ⟨snapshot, first, policy⟩ node = leftShown at shown ⊢
  generalize nativeSpan? ⟨snapshot, second, policy⟩ node = rightShown at shown ⊢
  cases shown with
  | none => simp
  | some spans => rw [Option.some.injEq, Option.some.injEq, spans.eq_iff same]

end Context

/-- Two states with the same phase and node, and the same bytes selected, each
in its own encoding. -/
structure SelectionState.Agrees (source : String) (first second : Encoding)
    (left right : SelectionState) : Prop where
  phase : left.phase = right.phase
  text : left.text.SameBytes source first second right.text
  tree : left.tree = right.tree

/-- The same tree event, or text events of the same bytes. -/
inductive Event.Agrees (source : String) (first second : Encoding) : Event → Event → Prop where
  | tree (selection : Option NodeId) : Agrees source first second (.tree selection) (.tree selection)
  | text {left right : TextSelection} (same : left.SameBytes source first second right) :
    Agrees source first second (.text left) (.text right)

/-- Two transitions with the same outcome that leave agreeing states and pass on
agreeing events or none. -/
structure Transition.Agrees (source : String) (first second : Encoding)
    (left right : Transition) : Prop where
  outcome : left.outcome = right.outcome
  state : left.state.Agrees source first second right.state
  emitted : Option.Rel (Event.Agrees source first second) left.emitted right.emitted

namespace Transition

variable {source : String} {first second : Encoding} {left right : SelectionState}

theorem agrees_drop (states : left.Agrees source first second right) (reason : DropReason) :
    (drop left reason).Agrees source first second (drop right reason) :=
  ⟨rfl, states, .none⟩

theorem agrees_quiet (states : left.Agrees source first second right) (outcome : Outcome) :
    (quiet left outcome).Agrees source first second (quiet right outcome) :=
  ⟨rfl, states, .none⟩

theorem agrees_propagate {event event' : Event}
    (states : left.Agrees source first second right)
    (events : event.Agrees source first second event') :
    (propagate left event).Agrees source first second (propagate right event') :=
  ⟨rfl, ⟨rfl, states.text, states.tree⟩, .some events⟩

end Transition

namespace SelectionState

variable {snapshot : Snapshot} {first second : Encoding} {left right : SelectionState}

theorem current?_eq (policy : Policy) {leftTarget rightTarget : Span}
    (states : left.Agrees snapshot.source first second right)
    (targets : Text.SameBytes snapshot.source first second leftTarget rightTarget) :
    left.current? ⟨snapshot, first, policy⟩ leftTarget =
      right.current? ⟨snapshot, second, policy⟩ rightTarget := by
  simp only [current?, states.tree, Context.nativeSpan?_eq_some_iff targets]

/-- Text events of the same bytes keep states in agreement. -/
theorem agrees_textChanged (policy : Policy) {leftText rightText : TextSelection}
    (states : left.Agrees snapshot.source first second right)
    (same : leftText.SameBytes snapshot.source first second rightText) :
    (left.textChanged ⟨snapshot, first, policy⟩ leftText).Agrees snapshot.source first second
      (right.textChanged ⟨snapshot, second, policy⟩ rightText) := by
  unfold textChanged
  have targets := Context.rel_target? policy same
  generalize Context.target? ⟨snapshot, first, policy⟩ leftText = leftTarget at targets ⊢
  generalize Context.target? ⟨snapshot, second, policy⟩ rightText = rightTarget at targets ⊢
  cases targets with
  | none =>
    apply Transition.agrees_quiet
    exact ⟨rfl, same, rfl⟩
  | some spans =>
    simp only [current?_eq policy states spans, Context.pick?_eq spans, states.tree]
    split
    · apply Transition.agrees_quiet
      exact ⟨rfl, same, rfl⟩
    · split
      · exact Transition.agrees_drop states .unmappable
      · split
        · apply Transition.agrees_quiet
          exact ⟨rfl, same, rfl⟩
        · apply Transition.agrees_propagate
          · exact ⟨rfl, same, rfl⟩
          · exact .tree _

/-- One tree event keeps states in agreement. -/
theorem agrees_treeChanged (policy : Policy)
    (states : left.Agrees snapshot.source first second right) (selection : Option NodeId) :
    (left.treeChanged ⟨snapshot, first, policy⟩ selection).Agrees snapshot.source first second
      (right.treeChanged ⟨snapshot, second, policy⟩ selection) := by
  unfold treeChanged
  cases selection with
  | none =>
    apply Transition.agrees_quiet
    exact ⟨rfl, .nil, rfl⟩
  | some id =>
    dsimp only
    cases snapshot.resolve? id with
    | none => exact Transition.agrees_drop states .staleNode
    | some node =>
      dsimp only
      have shown := Context.rel_nativeSpan? snapshot policy first second node
      generalize Context.nativeSpan? ⟨snapshot, first, policy⟩ node = leftShown at shown ⊢
      generalize Context.nativeSpan? ⟨snapshot, second, policy⟩ node = rightShown at shown ⊢
      cases shown with
      | none => exact Transition.agrees_drop states .unmappable
      | some spans =>
        have same := TextSelection.sameBytes_single.mpr spans
        dsimp only
        simp only [same.eq_iff states.text]
        split
        · apply Transition.agrees_quiet
          exact ⟨rfl, same, rfl⟩
        · apply Transition.agrees_propagate
          · exact ⟨rfl, same, rfl⟩
          · exact .text same

/-- Agreeing events keep states in agreement. -/
theorem agrees_transition (policy : Policy) {leftEvent rightEvent : Event}
    (states : left.Agrees snapshot.source first second right)
    (events : leftEvent.Agrees snapshot.source first second rightEvent) :
    (left.transition ⟨snapshot, first, policy⟩ leftEvent).Agrees snapshot.source first second
      (right.transition ⟨snapshot, second, policy⟩ rightEvent) := by
  unfold transition
  rw [states.phase]
  cases right.phase with
  | propagating => exact Transition.agrees_drop states .reentrant
  | idle =>
    cases events with
    | tree selection => exact agrees_treeChanged policy states selection
    | text same => exact agrees_textChanged policy states same

theorem Agrees.settle {source : String} (states : left.Agrees source first second right) :
    left.settle.Agrees source first second right.settle :=
  ⟨rfl, states.text, states.tree⟩

/-- Apply events in order and settle after each of them. -/
def follow (context : Context) (state : SelectionState) : List Event → List Transition
  | [] => []
  | event :: events =>
    let step := state.transition context event
    step :: follow context step.state.settle events

/-- Runs of agreeing events from agreeing states agree at every step. Spans of
the same bytes give agreeing events in any case, also after normalisation. -/
theorem forall₂_follow_agrees (snapshot : Snapshot) (policy : Policy) (first second : Encoding)
    {leftEvents rightEvents : List Event}
    (states : left.Agrees snapshot.source first second right)
    (events : List.Forall₂ (Event.Agrees snapshot.source first second) leftEvents rightEvents) :
    List.Forall₂ (Transition.Agrees snapshot.source first second)
        (follow ⟨snapshot, first, policy⟩ left leftEvents)
        (follow ⟨snapshot, second, policy⟩ right rightEvents) ∧
      ∀ spans spans', List.Forall₂ (Text.SameBytes snapshot.source first second) spans spans' →
        Event.Agrees snapshot.source first second (.text ⟨spans⟩) (.text ⟨spans'⟩) ∧
          Event.Agrees snapshot.source first second (.text (.ofSpans spans))
            (.text (.ofSpans spans')) := by
  constructor
  · induction events generalizing left right with
    | nil => exact .nil
    | cons event _ ih =>
      have steps := agrees_transition policy states event
      exact .cons steps (ih steps.state.settle)
  · intro spans spans' same
    have selections : TextSelection.SameBytes snapshot.source first second ⟨spans⟩ ⟨spans'⟩ := same
    exact ⟨.text selections, .text selections.ofSpans⟩

/-- A letter of two bytes and an emoji, reported backwards and out of order, and
then a node: bytes and UTF-16 units lead through agreeing runs. -/
theorem follow_agrees_letter_and_emoji :
    let tree := Tree.ofLabels ⟨{ kind := "file" }, ⟨0, 0, 6, 0⟩⟩
      (.node ⟨{ kind := "name" }, ⟨2, 0, 4, 0⟩⟩ .nil .nil) 6
    let snapshot := Snapshot.ofTree ⟨1⟩ "é😀" tree
    List.Forall₂ (Transition.Agrees "é😀" .utf8 .utf16)
      (follow ⟨snapshot, .utf8, ⟨.enclosing, false⟩⟩ {}
        [.text (.ofSpans [⟨6, 2⟩, ⟨0, 2⟩]), .tree (some ⟨⟨1⟩, 1⟩)])
      (follow ⟨snapshot, .utf16, ⟨.enclosing, false⟩⟩ {}
        [.text (.ofSpans [⟨3, 1⟩, ⟨0, 1⟩]), .tree (some ⟨⟨1⟩, 1⟩)]) := by
  intro tree snapshot
  have spans : TextSelection.SameBytes "é😀" .utf8 .utf16 ⟨[⟨6, 2⟩, ⟨0, 2⟩]⟩ ⟨[⟨3, 1⟩, ⟨0, 1⟩]⟩ :=
    .cons ⟨⟨6, 2⟩, by decide, by decide⟩ (.cons ⟨⟨0, 2⟩, by decide, by decide⟩ .nil)
  have states : SelectionState.Agrees "é😀" .utf8 .utf16 {} {} := ⟨rfl, .nil, rfl⟩
  exact (forall₂_follow_agrees snapshot ⟨.enclosing, false⟩ .utf8 .utf16 states
    (.cons (.text spans.ofSpans) (.cons (.tree (some ⟨⟨1⟩, 1⟩)) .nil))).1

end SelectionState

end TreeLens
