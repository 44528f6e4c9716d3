import TreeLens.Language.Registry

/-!
# The parser pool

Parsers that are not in use wait in a pool, under the identifier they were
returned with. Asking for a parser takes a waiting one and makes a new one only
if there is none.
-/

namespace TreeLens

/-- A parser, made for one language. -/
structure Parser where
  language : String
  grammar : Grammar

/-- The waiting parsers of every language, the latest first. -/
structure Pool where
  idle : String → List Parser

namespace Pool

/-- No parser is waiting. -/
def empty : Pool := ⟨fun _ => []⟩

/-- Number of parsers waiting under an identifier. -/
def size (pool : Pool) (id : String) : Nat :=
  (pool.idle id).length

/-- Replace the parsers waiting under one identifier. -/
def set (id : String) (parsers : List Parser) (pool : Pool) : Pool :=
  ⟨fun other => if other = id then parsers else pool.idle other⟩

/-- Make a parser for a registered language. -/
def create (registry : Registry) (id : String) : Except Fault Parser :=
  (registry.require id).map fun grammar => ⟨id, grammar⟩

/-- Take a parser. Only making a new one can fail. -/
def acquire (registry : Registry) (id : String) (pool : Pool) : Except Fault (Parser × Pool) :=
  match pool.idle id with
  | parser :: rest => .ok (parser, pool.set id rest)
  | [] => (create registry id).map fun parser => (parser, pool)

/-- Return a parser under an identifier. -/
def release (id : String) (parser : Parser) (pool : Pool) : Pool :=
  pool.set id (parser :: pool.idle id)

/-- Let all waiting parsers go. -/
def clear (_pool : Pool) : Pool :=
  empty

/-- What becomes of the outline a parser answered for a text. -/
def treeOf (id text : String) (answer : Option Outline) : Except Fault Tree :=
  match answer with
  | none => .error (.parse id "parser returned no tree")
  | some outline =>
    match (outline.lower text).run with
    | some (.ok tree) => .ok tree
    | some (.error defect) => .error (.ofDefect defect)
    | none => .error (.internal "children do not fit their parent")

/-- Parse a text with a parser from the pool. The parser goes back to the pool
whether or not there was a tree. -/
def parse (registry : Registry) (id text : String) (pool : Pool) : Except Fault Tree × Pool :=
  match pool.acquire registry id with
  | .error fault => (.error fault, pool)
  | .ok (parser, taken) =>
    (treeOf id text (parser.grammar.parse? text), taken.release id parser)

end Pool

end TreeLens
