import TreeLens.Selection.State
import TreeLens.Snapshot
import TreeLens.Text.Index

/-!
# Selection transitions

A transition takes the selection state and one event, and answers with the next
state and at most one notification for the other view. While a notification is
under way all events are dropped; the phase ends when the state is settled.
-/

namespace TreeLens

/-- What a transition needs to know about the current parse. -/
structure Context where
  snapshot : Snapshot
  encoding : Encoding
  policy : Policy

namespace Context

/-- The native span a node shows as, if its bytes lie on character
boundaries. -/
def nativeSpan? (context : Context) (node : Node) : Option Span :=
  Text.spanToNative context.encoding context.snapshot.source
    (if context.policy.includeTrivia then node.full else node.content)

/-- The one native span a text selection stands for. -/
def target? (context : Context) (selection : TextSelection) : Option Span :=
  match context.policy.multiRange with
  | .first => selection.first?
  | .enclosing => selection.hull?

/-- The node a native span selects. The outer option is empty when the start of
the span is no character boundary, the inner one when no node is there. -/
def pick? (context : Context) (target : Span) : Option (Option Node) := do
  let start ← Text.toByte context.encoding context.snapshot.source target.start
  match context.snapshot.locate? start with
  | none => return none
  | some node =>
    match context.policy.multiRange with
    | .first => return some node
    | .enclosing =>
      match Text.toByte context.encoding context.snapshot.source target.stop with
      | none => return some node
      | some stop =>
        let covering := (context.snapshot.pathTo node).reverse.find? fun candidate =>
          decide (stop ≤ candidate.stop)
        return some (covering.getD node)

end Context

/-- Why an event changed nothing. -/
inductive DropReason where
  /-- It came while a notification was under way. -/
  | reentrant
  /-- It named a node of another parse. -/
  | staleNode
  /-- It does not fall on character boundaries. -/
  | unmappable
deriving DecidableEq, Repr

/-- What became of an event. -/
inductive Outcome where
  /-- The other view has to be told. -/
  | propagated
  /-- The other view agrees already. -/
  | consistent
  /-- The selection was emptied on both sides. -/
  | cleared
  | dropped (reason : DropReason)
deriving DecidableEq, Repr

/-- The outcome in one word. -/
def Outcome.name : Outcome → String
  | propagated => "propagated"
  | consistent => "consistent"
  | cleared => "cleared"
  | dropped .reentrant => "dropped:reentrant"
  | dropped .staleNode => "dropped:stale_node"
  | dropped .unmappable => "dropped:unmappable"

/-- The result of a transition. -/
structure Transition where
  state : SelectionState
  /-- Notification for the view that did not report the event. -/
  emitted : Option Event
  outcome : Outcome
deriving DecidableEq, Repr

namespace Transition

/-- The event is dropped and the state kept. -/
def drop (state : SelectionState) (reason : DropReason) : Transition :=
  ⟨state, none, .dropped reason⟩

/-- The other view need not be told. -/
def quiet (state : SelectionState) (outcome : Outcome) : Transition :=
  ⟨state, none, outcome⟩

/-- The other view is told. -/
def propagate (state : SelectionState) (event : Event) : Transition :=
  ⟨{ state with phase := .propagating }, some event, .propagated⟩

end Transition

namespace SelectionState

/-- Whether no notification is under way. -/
def isIdle (state : SelectionState) : Bool :=
  state.phase = .idle

/-- End the phase in which a notification is under way. -/
def settle (state : SelectionState) : SelectionState :=
  { state with phase := .idle }

/-- The selected node, if it shows as exactly the given span. -/
def current? (state : SelectionState) (context : Context) (target : Span) : Option Node := do
  let id ← state.tree
  let node ← context.snapshot.resolve? id
  if context.nativeSpan? node = some target then some node else none

/-- The text view reports a selection. -/
def textChanged (state : SelectionState) (context : Context) (selection : TextSelection) :
    Transition :=
  match context.target? selection with
  | none => .quiet ⟨.idle, selection, none⟩ .cleared
  | some target =>
    match state.current? context target with
    | some node => .quiet ⟨.idle, selection, some (context.snapshot.id node)⟩ .consistent
    | none =>
      match context.pick? target with
      | none => .drop state .unmappable
      | some picked =>
        let tree := picked.map context.snapshot.id
        if tree = state.tree then
          .quiet ⟨.idle, selection, tree⟩ .consistent
        else
          .propagate ⟨.idle, selection, tree⟩ (.tree tree)

/-- The tree view reports a selection. -/
def treeChanged (state : SelectionState) (context : Context) (selection : Option NodeId) :
    Transition :=
  match selection with
  | none => .quiet ⟨.idle, .empty, none⟩ .cleared
  | some id =>
    match context.snapshot.resolve? id with
    | none => .drop state .staleNode
    | some node =>
      match context.nativeSpan? node with
      | none => .drop state .unmappable
      | some span =>
        let text := TextSelection.single span
        if text = state.text then
          .quiet ⟨.idle, text, some id⟩ .consistent
        else
          .propagate ⟨.idle, text, some id⟩ (.text text)

/-- Apply one event. -/
def transition (state : SelectionState) (context : Context) (event : Event) : Transition :=
  match state.phase with
  | .propagating => .drop state .reentrant
  | .idle =>
    match event with
    | .text selection => state.textChanged context selection
    | .tree selection => state.treeChanged context selection

/-- Fit the selections to a new parse: the text selection is cut down to the
new text, and the tree selection is derived from it again. -/
def resync (state : SelectionState) (context : Context) : Transition :=
  let text := state.text.clamp (context.encoding.textLength context.snapshot.source)
  let picked := (context.target? text).bind fun target => (context.pick? target).join
  let tree := picked.map context.snapshot.id
  if tree = none ∧ state.tree = none then
    .quiet ⟨.idle, text, tree⟩ .consistent
  else
    .propagate ⟨.idle, text, tree⟩ (.tree tree)

/-- Apply an event, then settle and feed every notification back as an event,
for as long as there are notifications and at most `limit` transitions in all. -/
def quiesce (context : Context) : Nat → SelectionState → Event → List Transition
  | 0, _, _ => []
  | limit + 1, state, event =>
    let step := state.transition context event
    match step.emitted with
    | none => [step]
    | some echo => step :: quiesce context limit step.state.settle echo

end SelectionState

end TreeLens
