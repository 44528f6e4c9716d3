import TreeLens.Tree.Extent

/-!
# Nodes

What is known about a node grows in steps. A parser reports a tag and the span
of the content. A draft adds the full span, trivia included. Once the spans are
reconciled the node has a label, and its place in pre-order makes it a node of
a tree.
-/

namespace TreeLens

/-- What a node is, apart from where it lies. -/
@[ext]
structure Tag where
  /-- Name of the grammar symbol. -/
  kind : String
  /-- The role the node plays in its parent, if it has a name. -/
  field : Option String := none
  /-- Named nodes are grammar rules, the others are literal tokens. -/
  named : Bool := true
  /-- Made by error recovery from text that does not parse. -/
  error : Bool := false
  /-- Made up by error recovery, without any text. -/
  missing : Bool := false
deriving DecidableEq, Repr, Inhabited

/-- A node as a parser reports it: its span has no trivia. -/
structure Parsed extends Tag where
  content : Span
deriving DecidableEq, Repr, Inhabited

/-- A node about to be built. The two spans need not fit each other. -/
structure Draft extends Parsed where
  full : Span
deriving DecidableEq, Repr, Inhabited

/-- A node whose place in the source is settled. -/
structure Label extends Tag where
  extent : Extent
deriving DecidableEq, Repr, Inhabited

/-- A node of a tree. -/
structure Node extends Label where
  /-- Position in pre-order. -/
  index : Nat
deriving DecidableEq, Repr, Inhabited

/-- Settle a draft by moving its content into its full span. -/
def Draft.label (draft : Draft) : Label where
  toTag := draft.toTag
  extent := Extent.ofSpans draft.full draft.content

namespace Label

/-- First byte of the node, trivia included. -/
def start (label : Label) : Nat :=
  label.extent.start

/-- First byte after the node, trivia included. -/
def stop (label : Label) : Nat :=
  label.extent.stop

/-- The bytes of the node, trivia included. -/
def full (label : Label) : Span :=
  label.extent.full

/-- The bytes of the node without trivia. -/
def content (label : Label) : Span :=
  label.extent.content

/-- What a path shows for the node: its kind, in quotes if it is a literal
token. -/
def caption (label : Label) : String :=
  if label.named then label.kind else "\"" ++ label.kind ++ "\""

end Label

namespace Node

/-- Kind, bytes and index on one line. -/
def brief (node : Node) : String :=
  node.kind ++ "@" ++ node.full.render ++ "#" ++ toString node.index

end Node

end TreeLens
