import TreeLens.Span

/-!
# Defects of trees

What can be wrong with a tree: the calls that were to build it do not nest, or
the spans of its nodes do not.
-/

namespace TreeLens

/-- A reason to call a tree malformed. -/
inductive Defect where
  /-- A node was started although the root was finished. -/
  | startAfterRoot (kind : String)
  /-- A node was to be finished although none was open. -/
  | nothingOpen
  /-- Nodes were still open at the end. -/
  | leftOpen (count : Nat)
  /-- There was no node at all. -/
  | noRoot
  /-- The root does not span the source. -/
  | rootSpan (span : Span) (sourceLength : Nat)
  /-- A child begins before its parent or before the end of the child to its
  left. -/
  | overlap (child : Nat) (kind : String) (span : Span) (parent : Nat)
  /-- A child ends after its parent. -/
  | escape (child : Nat) (kind : String) (span : Span) (parent : Nat) (parentSpan : Span)
deriving DecidableEq, Repr

/-- The defect in words. -/
def Defect.describe : Defect → String
  | startAfterRoot kind => "node `" ++ kind ++ "` started after the root was finished"
  | nothingOpen => "finish_node called without an open node"
  | leftOpen count => toString count ++ " node(s) left open"
  | noRoot => "tree has no root"
  | rootSpan span sourceLength =>
    "root spans " ++ span.render ++ ", source is " ++ toString sourceLength ++ " bytes"
  | overlap child kind span parent =>
    "child " ++ toString child ++ " `" ++ kind ++ "` at " ++ span.render
      ++ " overlaps or precedes its previous sibling in node " ++ toString parent
  | escape child kind span parent parentSpan =>
    "child " ++ toString child ++ " `" ++ kind ++ "` at " ++ span.render
      ++ " escapes parent " ++ toString parent ++ " at " ++ parentSpan.render

end TreeLens
