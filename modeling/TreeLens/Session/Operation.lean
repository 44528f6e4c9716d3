import TreeLens.Session.Basic

/-!
# Session operations

Everything that can be done to a session, as one type, and runs of any number
of operations. Every operation leaves a session behind, also one that fails.
-/

namespace TreeLens

/-- One operation on a session. Operations that parse bring the parser that
answers this call. -/
inductive Operation where
  | subscribe (observer : Observer)
  | setPolicy (policy : Policy)
  | handle (event : Event)
  | setText (parse : SourceParser) (text : String)
  | editText (text : String)
  | applyParse (outcome : ParseOutcome)

/-- What an operation answers: the outcome of a change of selection, or the
fault that prevented it. Operations that leave the selections alone answer with
nothing. -/
structure Performed where
  session : Session
  answer : Option (Except Fault Report)

namespace Performed

/-- A step that answers, with the session it left behind. -/
def answered (step : Session × Except Fault Report) : Performed :=
  ⟨step.1, some step.2⟩

/-- The notifications that were delivered, with the observers they went to. -/
def delivered (performed : Performed) : List (Nat × Event) :=
  match performed.answer with
  | some (.ok report) => report.delivered
  | _ => []

end Performed

namespace Session

/-- Perform one operation. -/
def perform (session : Session) : Operation → Performed
  | .subscribe observer => ⟨session.subscribe observer, none⟩
  | .setPolicy policy => ⟨session.setPolicy policy, none⟩
  | .handle event => .answered ((session.handle event).map id .ok)
  | .setText parse text => .answered (session.setText parse text)
  | .editText text => ⟨session.editText text, none⟩
  | .applyParse outcome => .answered (session.applyParse outcome)

/-- Perform operations in order. -/
def run (session : Session) (operations : List Operation) : Session :=
  operations.foldl (fun current operation => (current.perform operation).session) session

end Session

end TreeLens
