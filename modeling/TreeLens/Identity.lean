/-!
# Identities

Every parse that is accepted starts a new generation. A node is named by its
generation and its pre-order position, so the names of one parse mean nothing
to another.
-/

namespace TreeLens

/-- Number of a parse. -/
structure Generation where
  number : Nat
deriving DecidableEq, Repr, Inhabited

/-- The generation in words. -/
def Generation.render (generation : Generation) : String :=
  "g" ++ toString generation.number

/-- The generation after this one. -/
def Generation.next (generation : Generation) : Generation :=
  ⟨generation.number + 1⟩

/-- The name of a node within one parse. -/
structure NodeId where
  generation : Generation
  index : Nat
deriving DecidableEq, Repr, Inhabited

/-- The name in words. -/
def NodeId.render (id : NodeId) : String :=
  id.generation.render ++ "#" ++ toString id.index

end TreeLens
