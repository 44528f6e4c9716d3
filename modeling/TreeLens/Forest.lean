/-!
# Ordered forests

A forest is empty, or it has a first node, the forest below that node and the
forest of that node's later siblings. One induction over this form reaches
every node, and the order of the constructors' arguments is pre-order: a node,
then everything below it, then everything after it.
-/

namespace TreeLens

universe u v

/-- An ordered forest in first-child, next-sibling form. -/
inductive Forest (α : Type u) where
  | nil
  | node (value : α) (below after : Forest α)
deriving DecidableEq, Repr

namespace Forest

variable {α : Type u} {β : Type v}

/-- Number of nodes. -/
def size : Forest α → Nat
  | nil => 0
  | node _ below after => 1 + below.size + after.size

/-- The values in pre-order. -/
def toList : Forest α → List α
  | nil => []
  | node value below after => value :: (below.toList ++ after.toList)

/-- The values at the top, in order. -/
def roots : Forest α → List α
  | nil => []
  | node value _ after => value :: after.roots

/-- The first value at the top. -/
def first? : Forest α → Option α
  | nil => none
  | node value _ _ => some value

/-- The values that have nothing below them, in order. -/
def leaves : Forest α → List α
  | nil => []
  | node value nil after => value :: after.leaves
  | node _ below after => below.leaves ++ after.leaves

/-- Every value in pre-order, with the values directly below it. -/
def entries : Forest α → List (α × List α)
  | nil => []
  | node value below after => (value, below.roots) :: (below.entries ++ after.entries)

/-- Replace every value. -/
def map (change : α → β) : Forest α → Forest β
  | nil => nil
  | node value below after => node (change value) (below.map change) (after.map change)

/-- Replace every value, with its pre-order position at hand. Positions are
counted from `position`. -/
def mapIdxFrom (change : Nat → α → β) (position : Nat) : Forest α → Forest β
  | nil => nil
  | node value below after =>
    node (change position value) (below.mapIdxFrom change (position + 1))
      (after.mapIdxFrom change (position + 1 + below.size))

@[simp]
theorem length_toList (forest : Forest α) : forest.toList.length = forest.size := by
  induction forest with
  | nil => rfl
  | node value below after belowLength afterLength =>
    simp only [toList, size, List.length_cons, List.length_append, belowLength, afterLength]
    omega

@[simp]
theorem size_mapIdxFrom (change : Nat → α → β) (position : Nat) (forest : Forest α) :
    (forest.mapIdxFrom change position).size = forest.size := by
  induction forest generalizing position with
  | nil => rfl
  | node value below after belowSize afterSize =>
    simp only [mapIdxFrom, size, belowSize, afterSize]

/-- The values of a forest changed by position are the values of its list
changed by position. -/
theorem toList_mapIdxFrom (change : Nat → α → β) (position : Nat) (forest : Forest α) :
    (forest.mapIdxFrom change position).toList =
      forest.toList.mapIdx fun index => change (position + index) := by
  induction forest generalizing position with
  | nil => rfl
  | node value below after belowList afterList =>
    simp only [mapIdxFrom, toList, belowList, afterList, List.mapIdx_cons, List.mapIdx_append,
      length_toList, Nat.add_zero]
    congr 2 <;> · congr 1; funext index; congr 1; omega

/-- The forest with the given branches side by side. -/
def ofBranches : List (α × Forest α) → Forest α
  | [] => nil
  | (value, below) :: rest => node value below (ofBranches rest)

/-- Put a row in front of branches that were read from later rows: the branches
that are deeper than the row, up to the first that is not, go below it. -/
def addRow (row : Nat × α) (branches : List (Nat × α × Forest α)) : List (Nat × α × Forest α) :=
  let deeper := fun branch : Nat × α × Forest α => decide (row.1 < branch.1)
  (row.1, row.2, ofBranches ((branches.takeWhile deeper).map Prod.snd)) ::
    branches.dropWhile deeper

/-- Read a forest from its values in pre-order, each with its depth. -/
def ofRows (rows : List (Nat × α)) : Forest α :=
  ofBranches ((rows.foldr addRow []).map Prod.snd)

/-- Every value in pre-order with its depth, counted from `depth`. -/
def toRows (depth : Nat) : Forest α → List (Nat × α)
  | nil => []
  | node value below after => (depth, value) :: (below.toRows (depth + 1) ++ after.toRows depth)

end Forest

end TreeLens
