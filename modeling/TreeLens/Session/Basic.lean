import TreeLens.Details
import TreeLens.Document
import TreeLens.Selection.Transition

/-!
# Sessions

A session holds a document, its current parse and the two selections. Views
report events to it, and its observers are told what the other view has to
show. An observer may answer a notification with an event of its own; that
event arrives while the notification is still under way and is dropped.

Parsing is left to a function that may fail. A session does not change when it
does.
-/

namespace TreeLens

/-- Turns a text into a tree, or fails. -/
abbrev SourceParser := String → Except Fault Tree

/-- An observer answers each notification with an event of its own or with
nothing. Its answer may depend on all notifications it has received, of which
the last is the one to answer. -/
abbrev Observer := List Event → Option Event

/-- An observer and the notifications it has received, in order. -/
structure Subscription where
  observer : Observer
  received : List Event := []

/-- A parse that was made of a certain revision of the text. -/
structure ParseOutcome where
  revision : Revision
  text : String
  tree : Tree

/-- One document with its parse and its selections. -/
structure Session where
  document : Document
  snapshot : Snapshot
  /-- The lines of the parsed text. -/
  lines : Text.LineIndex
  selection : SelectionState := {}
  encoding : Encoding := default
  policy : Policy := default
  /-- The observers in the order in which they subscribed. -/
  subscriptions : List Subscription := []
  /-- The generation the next parse will start. -/
  nextGeneration : Generation

/-- What came of a change: the outcome, the notifications that were delivered
with the number of the observer they went to, and what became of the events the
observers answered with. -/
structure Report where
  outcome : Outcome
  delivered : List (Nat × Event) := []
  echoes : List Outcome := []

namespace Session

/-- Parse a document and open a session on it, whose first parse starts the
given generation. -/
def start (parse : SourceParser) (document : Document) (generation : Generation) :
    Except Fault Session :=
  (parse document.text).map fun tree =>
    { document := document
      snapshot := Snapshot.ofTree generation document.text tree
      lines := ⟨document.text⟩
      nextGeneration := generation.next }

/-- Choose encoding and policy. -/
def configure (encoding : Encoding) (policy : Policy) (session : Session) : Session :=
  { session with encoding := encoding, policy := policy }

/-- What transitions need to know. -/
def context (session : Session) : Context :=
  ⟨session.snapshot, session.encoding, session.policy⟩

/-- Add an observer. -/
def subscribe (observer : Observer) (session : Session) : Session :=
  { session with subscriptions := session.subscriptions ++ [⟨observer, []⟩] }

/-- Change the policy. The selections stay as they are. -/
def setPolicy (policy : Policy) (session : Session) : Session :=
  { session with policy := policy }

/-- The selected node. -/
def selected? (session : Session) : Option Node :=
  session.selection.tree.bind session.snapshot.resolve?

/-- The details of a node. -/
def details? (session : Session) (node : Node) : Option Details :=
  Details.of? session.snapshot.source session.lines node

/-- Hand an event to an observer. -/
def notify (event : Event) (subscription : Subscription) : Subscription :=
  { subscription with received := subscription.received ++ [event] }

/-- What an observer answers to the last notification it received. -/
def answer? (subscription : Subscription) : Option Event :=
  subscription.observer subscription.received

/-- Take over the state of a transition, notify the observers and settle. -/
def deliver (step : Transition) (session : Session) : Session × Report :=
  match step.emitted with
  | none => ({ session with selection := step.state }, { outcome := step.outcome })
  | some event =>
    let notified := session.subscriptions.map (notify event)
    let echoes := (notified.filterMap answer?).map fun feedback =>
      (step.state.transition session.context feedback).outcome
    ({ session with selection := step.state.settle, subscriptions := notified },
      { outcome := step.outcome
        delivered := (List.range notified.length).map fun observer => (observer, event)
        echoes := echoes })

/-- A view reports an event. -/
def handle (event : Event) (session : Session) : Session × Report :=
  session.deliver (session.selection.transition session.context event)

/-- Replace the parse and fit the selections to it. -/
def install (text : String) (tree : Tree) (session : Session) : Session × Report :=
  let installed := { session with
    snapshot := Snapshot.ofTree session.nextGeneration text tree
    lines := ⟨text⟩
    nextGeneration := session.nextGeneration.next }
  installed.deliver (session.selection.settle.resync installed.context)

/-- Replace the text and parse it at once. The text is parsed before anything
is replaced. -/
def setText (parse : SourceParser) (text : String) (session : Session) :
    Session × Except Fault Report :=
  match parse text with
  | .error fault => (session, .error fault)
  | .ok tree =>
    let edited := { session with document := session.document.update text }
    let (installed, report) := edited.install text tree
    (installed, .ok report)

/-- Replace the text and keep the parse. -/
def editText (text : String) (session : Session) : Session :=
  { session with document := session.document.update text }

/-- Install a parse made elsewhere, unless the text has changed since. -/
def applyParse (outcome : ParseOutcome) (session : Session) : Session × Except Fault Report :=
  if outcome.revision = session.document.revision then
    let (installed, report) := session.install outcome.text outcome.tree
    (installed, .ok report)
  else
    (session, .error (.staleParse outcome.revision.number session.document.revision.number))

end Session

end TreeLens
