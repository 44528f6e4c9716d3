import TreeLens.Lineage

/-!
# Linking

A lineage can be made in one walk from the root along the lists of children. The
nodes still to visit wait on a stack; the children of a node are put there in
order, so the last of them is visited first. A visit notes the parent it came
from and the number of ancestors. A node that was visited before keeps the note
of its first visit, and the walk records that it came there again.
-/

namespace TreeLens

/-- A node to visit, and what the way to it tells about its ancestors. -/
structure Visit where
  index : Nat
  kin : Kin
deriving DecidableEq, Repr

/-- A walk under way. -/
structure Linking where
  /-- The notes by position; a node has none before its visit. -/
  notes : Array (Option Kin)
  /-- The nodes to visit, the next one first. -/
  waiting : List Visit
  /-- The nodes the walk came to again after their visit, the latest first. -/
  repeated : List Nat
deriving DecidableEq, Repr

namespace Linking

/-- The walk before the visit of the root. -/
def start (tree : Tree) : Linking where
  notes := Array.replicate tree.size none
  waiting := [⟨tree.root.index, ⟨none, 0⟩⟩]
  repeated := []

/-- Siblings to visit, the last one first. -/
def visits (kin : Kin) (siblings : List Node) : List Visit :=
  (siblings.map fun sibling => ⟨sibling.index, kin⟩).reverse

/-- A first visit leaves one node fewer without a note. -/
theorem countP_isNone_setIfInBounds_lt {notes : Array (Option Kin)} {index : Nat}
    (unvisited : notes[index]? = some none) (kin : Kin) :
    (notes.setIfInBounds index (some kin)).countP Option.isNone <
      notes.countP Option.isNone := by
  obtain ⟨inside, noNote⟩ := Array.getElem?_eq_some_iff.mp unvisited
  have positive : 0 < notes.countP Option.isNone :=
    Array.countP_pos_iff.mpr ⟨none, Array.mem_of_getElem? unvisited, rfl⟩
  rw [Array.setIfInBounds, dif_pos inside, Array.countP_set inside, noNote]
  exact Nat.sub_lt positive Nat.one_pos

/-- Visit nodes until none is waiting. There is no result if one of them has no
position in the notes. -/
def run (tree : Tree) : Linking → Option Linking
  | ⟨notes, [], repeated⟩ => some ⟨notes, [], repeated⟩
  | ⟨notes, visit :: rest, repeated⟩ =>
    match _noted : notes[visit.index]? with
    | none => none
    | some (some _) => run tree ⟨notes, rest, visit.index :: repeated⟩
    | some none =>
      let below : Kin := ⟨some visit.index, visit.kin.depth + 1⟩
      run tree ⟨notes.setIfInBounds visit.index (some visit.kin),
        visits below (tree.children visit.index) ++ rest, repeated⟩
termination_by linking => (linking.notes.countP Option.isNone, linking.waiting.length)
decreasing_by
  · exact Prod.Lex.right _ (Nat.lt_succ_self _)
  · exact Prod.Lex.left _ _ (countP_isNone_setIfInBounds_lt _noted visit.kin)

end Linking

end TreeLens
