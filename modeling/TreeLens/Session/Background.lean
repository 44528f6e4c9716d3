import TreeLens.Session.Basic

/-!
# Parsing in the background

Parses are requested for a certain revision of the text and finish later. A new
request takes the place of the one before it, and a request can be cancelled;
one that was cancelled or superseded before it finished comes to nothing,
whatever its parse would have answered.
-/

namespace TreeLens

/-- A request to parse a text. -/
structure Request where
  revision : Revision
  text : String
  /-- Whether it was cancelled or superseded. -/
  cancelled : Bool := false
deriving DecidableEq, Repr

/-- All requests made so far. -/
structure Background where
  /-- The requests in the order in which they were made. -/
  requests : List Request := []
  /-- The number of the request that has been neither superseded nor
  cancelled. -/
  live : Option Nat := none
deriving DecidableEq, Repr

namespace Background

/-- Cancel the live request, if there is one. -/
def cancel (background : Background) : Background :=
  match background.live with
  | none => background
  | some number =>
    { requests := background.requests.modify number fun request =>
        { request with cancelled := true }
      live := none }

/-- Request a parse. The request's number is the number of requests before it. -/
def schedule (revision : Revision) (text : String) (background : Background) : Background :=
  let superseded := background.cancel
  { requests := superseded.requests ++ [{ revision := revision, text := text }]
    live := some superseded.requests.length }

/-- What a request comes to when its parse finishes now. A cancelled request
comes to nothing, also when its parse would have failed. -/
def finish (parse : SourceParser) (number : Nat) (background : Background) :
    Except Fault (Option ParseOutcome) :=
  match background.requests[number]? with
  | none => .ok none
  | some request =>
    if request.cancelled then
      .ok none
    else
      (parse request.text).map fun tree => some ⟨request.revision, request.text, tree⟩

end Background

end TreeLens
