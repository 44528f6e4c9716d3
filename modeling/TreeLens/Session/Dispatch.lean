import TreeLens.Language.Pool
import TreeLens.Session.Background

/-!
# How requested parses run

A request is worked off in turns: it takes a parser from the pool, parses with it,
returns it and answers, and resolves at last. Turns of different requests may come in
any order, with new requests and cancellations between them. A parse notices a
cancellation only now and then, while it runs; the answer is looked at once more when
the request resolves.
-/

namespace TreeLens

/-- What a request comes to. -/
abbrev Answer := Except Fault (Option ParseOutcome)

/-- How far a request has come. -/
inductive Stage where
  /-- It has no parser yet. -/
  | waiting
  | parsing (parser : Parser)
  /-- The parser has stopped, with or without an outline. -/
  | parsed (parser : Parser) (outline : Option Outline)
  /-- The answer is there, the parser is back in the pool. -/
  | answered (answer : Answer)
  | resolved (answer : Answer)

namespace Request

/-- What a request delivers when it has a tree. -/
def outcome (request : Request) (tree : Tree) : ParseOutcome :=
  ⟨request.revision, request.text, tree⟩

/-- One turn of a request, with a pool at hand. A parse that is told to stop stops only
if the request was cancelled by then. -/
def advance (registry : Registry) (language : String) (stop : Bool) (request : Request)
    (pool : Pool) : Stage → Stage × Pool
  | .waiting =>
    match pool.acquire registry language with
    | .error fault => (.answered (.error fault), pool)
    | .ok (parser, taken) => (.parsing parser, taken)
  | .parsing parser =>
    let outline := if stop && request.cancelled then none else parser.grammar.parse? request.text
    (.parsed parser outline, pool)
  | .parsed parser outline =>
    let answer : Answer :=
      if outline.isNone && request.cancelled then
        .ok none
      else
        (Pool.treeOf language request.text outline).map fun tree => some (request.outcome tree)
    (.answered answer, pool.release language parser)
  | .answered answer => (.resolved (if request.cancelled then .ok none else answer), pool)
  | .resolved answer => (.resolved answer, pool)

end Request

/-- The requests for parses in one language, and how far each of them has come. -/
structure Dispatch where
  pool : Pool
  background : Background := {}
  /-- The stages of the requests, in the order of the requests. -/
  stages : List Stage := []

/-- What can happen to requests. -/
inductive Move where
  /-- Request a parse. -/
  | schedule (revision : Revision) (text : String)
  /-- Cancel the live request. -/
  | cancel
  /-- A request takes a turn. -/
  | advance (number : Nat) (stop : Bool)
deriving DecidableEq, Repr

namespace Move

def schedules : Move → Bool
  | schedule _ _ => true
  | _ => false

/-- Whether nothing requested before may be delivered any more. -/
def supersedes : Move → Bool
  | schedule _ _ => true
  | cancel => true
  | advance _ _ => false

/-- Whether a certain request takes a turn. -/
def advances (number : Nat) : Move → Bool
  | advance other _ => other = number
  | _ => false

end Move

namespace Dispatch

/-- Make one move. -/
def step (registry : Registry) (language : String) (dispatch : Dispatch) : Move → Dispatch
  | .schedule revision text =>
    { dispatch with
      background := dispatch.background.schedule revision text
      stages := dispatch.stages ++ [.waiting] }
  | .cancel => { dispatch with background := dispatch.background.cancel }
  | .advance number stop =>
    match dispatch.background.requests[number]?, dispatch.stages[number]? with
    | some request, some stage =>
      let (next, pool) := request.advance registry language stop dispatch.pool stage
      { dispatch with pool := pool, stages := dispatch.stages.set number next }
    | _, _ => dispatch

/-- Make moves in order. -/
def run (registry : Registry) (language : String) (dispatch : Dispatch) (moves : List Move) :
    Dispatch :=
  moves.foldl (step registry language) dispatch

/-- What a request has come to, once it has resolved. -/
def answer? (dispatch : Dispatch) (number : Nat) : Option Answer :=
  match dispatch.stages[number]? with
  | some (.resolved answer) => some answer
  | _ => none

end Dispatch

end TreeLens
