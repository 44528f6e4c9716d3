import TreeLens.Proofs.Session.Freshness

/-!
# Observers

Observers may answer a notification with any event, and what they answer may depend
on everything they were told. None of it reaches the session: a notification goes
out only while the state is in the phase that drops all events, whether it comes
from an event or from a new parse. So a session goes the same way as one without
observers, operation by operation, and the events it emits are the same.

Each of these events goes to all observers there are, in the order in which they
subscribed. What an observer has received in the end is therefore what the session
emitted since the observer subscribed.
-/

namespace TreeLens

namespace SelectionState

/-- An event that is passed on leaves the state in the phase that drops events. -/
theorem propagating_transition {state : SelectionState} {context : Context}
    {event notification : Event}
    (emits : (state.transition context event).emitted = some notification) :
    (state.transition context event).state.phase = .propagating := by
  rw [(state.faithful_transition context event).propagating_iff, emits]
  exact Or.inl rfl

theorem propagating_resync {state : SelectionState} {context : Context} {notification : Event}
    (emits : (state.resync context).emitted = some notification) :
    (state.resync context).state.phase = .propagating := by
  unfold resync at emits ⊢
  dsimp only at emits ⊢
  split at emits
  · contradiction
  · rw [if_neg (by assumption)]
    rfl

end SelectionState

namespace Operation

/-- Whether an operation adds an observer. -/
def isSubscribe : Operation → Bool
  | .subscribe _ => true
  | _ => false

/-- The operations that are left when nobody subscribes. -/
def unobserved (operations : List Operation) : List Operation :=
  operations.filter fun operation => !operation.isSubscribe

theorem subscribe_or (operation : Operation) :
    (∃ observer, operation = .subscribe observer) ∨ operation.isSubscribe = false := by
  cases operation with
  | subscribe observer => exact Or.inl ⟨observer, rfl⟩
  | setPolicy | handle | setText | editText | applyParse => exact Or.inr rfl

theorem unobserved_cons {operation : Operation} (other : operation.isSubscribe = false)
    (operations : List Operation) :
    unobserved (operation :: operations) = operation :: unobserved operations := by
  simp [unobserved, other]

end Operation

namespace Performed

/-- The outcome of an operation or its fault, without what observers had to do
with it. -/
def outcome? (performed : Performed) : Option (Except Fault Outcome) :=
  performed.answer.map (Except.map Report.outcome)

/-- What became of the events that observers answered with. -/
def echoes (performed : Performed) : List Outcome :=
  match performed.answer with
  | some (.ok report) => report.echoes
  | _ => []

end Performed

/-- A subscription that has received further events. -/
def Subscription.hear (events : List Event) (subscription : Subscription) : Subscription :=
  { subscription with received := subscription.received ++ events }

namespace Session

/-- The session without its observers. -/
def unobserved (session : Session) : Session :=
  { session with subscriptions := [] }

/-- The event that is emitted when a parse is installed. -/
def emittedBy? (session : Session) (text : String) (tree : Tree) : Option Event :=
  (session.selection.settle.resync
    ⟨Snapshot.ofTree session.nextGeneration text tree, session.encoding, session.policy⟩).emitted

/-- The event that an operation emits. Observers play no part in it. -/
def emitted? (session : Session) : Operation → Option Event
  | .handle event => (session.selection.transition session.context event).emitted
  | .setText parse text => (parse text).toOption.bind fun tree => session.emittedBy? text tree
  | .applyParse outcome =>
    if outcome.revision = session.document.revision then
      session.emittedBy? outcome.text outcome.tree
    else
      none
  | _ => none

/-- The events that operations emit, in order. -/
def emissions (session : Session) : List Operation → List Event
  | [] => []
  | operation :: operations =>
    (session.emitted? operation).toList ++
      (session.perform operation).session.emissions operations

/-! ## Deliveries -/

/-- What observers have to do with an operation that emits an event or none. An
event is delivered to all of them, the earlier ones first, and whatever they answer
is dropped. -/
inductive Announces (session : Session) : Operation → Option Event → Performed → Prop where
  | subscribed (observer : Observer) :
    Announces session (.subscribe observer) none ⟨session.subscribe observer, none⟩
  | silent (operation : Operation) (performed : Performed)
    (other : operation.isSubscribe = false)
    (subscriptions : performed.session.subscriptions = session.subscriptions)
    (delivered : performed.delivered = []) (echoes : performed.echoes = []) :
    Announces session operation none performed
  | told (operation : Operation) (event : Event) (performed : Performed)
    (other : operation.isSubscribe = false)
    (subscriptions : performed.session.subscriptions = session.subscriptions.map (.hear [event]))
    (delivered : performed.delivered =
      (List.range session.subscriptions.length).map fun observer => (observer, event))
    (echoes : performed.echoes =
      (performed.session.subscriptions.filterMap answer?).map fun _ => .dropped .reentrant) :
    Announces session operation (some event) performed

/-- A transition that notifies only in the phase that drops events is announced, and
the answers are dropped. -/
theorem announces_deliver {session ready : Session} {operation : Operation} {step : Transition}
    (other : operation.isSubscribe = false)
    (subscriptions : ready.subscriptions = session.subscriptions)
    (guarded : ∀ event, step.emitted = some event → step.state.phase = .propagating) :
    session.Announces operation step.emitted (.answered ((ready.deliver step).map id .ok)) := by
  unfold deliver
  cases emitted : step.emitted with
  | none => exact .silent operation _ other subscriptions rfl rfl
  | some event =>
    have dropped : ∀ feedback, (step.state.transition ready.context feedback).outcome =
        .dropped .reentrant := by
      intro feedback
      rw [SelectionState.transition_of_propagating _ feedback (guarded event emitted)]
      rfl
    apply Announces.told operation event _ other
    · rw [← subscriptions]
      rfl
    · simp [Performed.delivered, Performed.answered, subscriptions]
    · simp [Performed.echoes, Performed.answered, dropped]

theorem announces_install {session ready : Session} {operation : Operation}
    (other : operation.isSubscribe = false)
    (subscriptions : ready.subscriptions = session.subscriptions) (text : String) (tree : Tree) :
    session.Announces operation (ready.emittedBy? text tree)
      (.answered ((ready.install text tree).map id .ok)) :=
  announces_deliver other subscriptions fun _ => SelectionState.propagating_resync

/-- Every operation announces the event it emits. -/
theorem announces_perform (session : Session) (operation : Operation) :
    session.Announces operation (session.emitted? operation) (session.perform operation) := by
  cases operation with
  | subscribe observer => exact .subscribed observer
  | setPolicy policy => exact .silent _ _ rfl rfl rfl rfl
  | handle event => exact announces_deliver rfl rfl fun _ => SelectionState.propagating_transition
  | setText parse text =>
    rw [perform, emitted?]
    cases parsed : parse text with
    | error fault =>
      rw [setText_of_error parsed]
      exact .silent _ _ rfl rfl rfl rfl
    | ok tree =>
      rw [setText_of_ok parsed]
      let edited := { session with document := session.document.update text }
      exact @announces_install session edited (.setText parse text) rfl rfl text tree
  | editText text => exact .silent _ _ rfl rfl rfl rfl
  | applyParse outcome =>
    rw [perform, emitted?]
    by_cases current : outcome.revision = session.document.revision
    · rw [applyParse_of_current current, if_pos current]
      exact announces_install rfl rfl outcome.text outcome.tree
    · rw [applyParse_of_stale current, if_neg current]
      exact .silent _ _ rfl rfl rfl rfl

/-! ## The way of the session -/

theorem emitted?_unobserved (session : Session) (operation : Operation) :
    session.unobserved.emitted? operation = session.emitted? operation := by
  cases operation <;> rfl

/-- The second operation leaves the same behind as the first, without observers. -/
def SameBut (observed alone : Performed) : Prop :=
  observed.session.unobserved = alone.session ∧ observed.outcome? = alone.outcome?

theorem sameBut_deliver (step : Transition) (session : Session) :
    SameBut (.answered ((session.deliver step).map id .ok))
      (.answered ((session.unobserved.deliver step).map id .ok)) := by
  unfold deliver
  cases step.emitted with
  | none => exact ⟨rfl, rfl⟩
  | some event => exact ⟨rfl, rfl⟩

theorem sameBut_install (session : Session) (text : String) (tree : Tree) :
    SameBut (.answered ((session.install text tree).map id .ok))
      (.answered ((session.unobserved.install text tree).map id .ok)) :=
  sameBut_deliver _ _

/-- Apart from subscriptions, operations leave the same behind with or without
observers. -/
theorem sameBut_perform (session : Session) {operation : Operation}
    (other : operation.isSubscribe = false) :
    SameBut (session.perform operation) (session.unobserved.perform operation) := by
  cases operation with
  | subscribe observer => contradiction
  | setPolicy policy => exact ⟨rfl, rfl⟩
  | handle event => exact sameBut_deliver _ session
  | setText parse text =>
    rw [perform, perform]
    cases parsed : parse text with
    | error fault =>
      rw [setText_of_error parsed, setText_of_error parsed]
      exact ⟨rfl, rfl⟩
    | ok tree =>
      rw [setText_of_ok parsed, setText_of_ok parsed]
      exact sameBut_install { session with document := session.document.update text } text tree
  | editText text => exact ⟨rfl, rfl⟩
  | applyParse outcome =>
    rw [perform, perform]
    by_cases current : outcome.revision = session.document.revision
    · have alone : outcome.revision = session.unobserved.document.revision := current
      rw [applyParse_of_current current, applyParse_of_current alone]
      exact sameBut_install session outcome.text outcome.tree
    · have alone : outcome.revision ≠ session.unobserved.document.revision := current
      rw [applyParse_of_stale current, applyParse_of_stale alone]
      exact ⟨rfl, rfl⟩

/-! ## Runs -/

/-- A run with observers leaves the session behind that the run without them
leaves. -/
theorem unobserved_run (session : Session) (operations : List Operation) :
    (session.run operations).unobserved =
      session.unobserved.run (Operation.unobserved operations) := by
  induction operations generalizing session with
  | nil => rfl
  | cons operation operations ih =>
    rw [run_cons, ih]
    rcases operation.subscribe_or with ⟨observer, rfl⟩ | other
    · rfl
    · rw [Operation.unobserved_cons other, run_cons, (session.sameBut_perform other).1]

theorem emissions_unobserved (session : Session) (operations : List Operation) :
    session.unobserved.emissions (Operation.unobserved operations) =
      session.emissions operations := by
  induction operations generalizing session with
  | nil => rfl
  | cons operation operations ih =>
    rw [emissions, ← ih]
    rcases operation.subscribe_or with ⟨observer, rfl⟩ | other
    · rfl
    · rw [Operation.unobserved_cons other, emissions, emitted?_unobserved,
        (session.sameBut_perform other).1]

/-- Whoever is subscribed hears what a run emits. -/
theorem subscriptions_run {session : Session} {number : Nat} {subscription : Subscription}
    (subscribed : session.subscriptions[number]? = some subscription)
    (operations : List Operation) :
    (session.run operations).subscriptions[number]? =
      some (subscription.hear (session.emissions operations)) := by
  induction operations generalizing session subscription with
  | nil => simpa [Subscription.hear, emissions, run] using subscribed
  | cons operation operations ih =>
    rw [run_cons, emissions]
    have way := session.announces_perform operation
    generalize session.emitted? operation = emitted, session.perform operation = performed
      at way ⊢
    cases way with
    | subscribed observer =>
      apply ih
      exact List.getElem?_append_left (List.getElem?_eq_some_iff.mp subscribed).1 ▸ subscribed
    | silent _ _ _ subscriptions =>
      apply ih
      rw [subscriptions]
      exact subscribed
    | told _ event _ _ subscriptions =>
      have heard : performed.session.subscriptions[number]? = some (subscription.hear [event]) := by
        rw [subscriptions, List.getElem?_map, subscribed]
        rfl
      rw [ih heard]
      simp [Subscription.hear]

/-- Only subscriptions add observers. -/
theorem length_subscriptions_run (session : Session) (operations : List Operation) :
    (session.run operations).subscriptions.length =
      session.subscriptions.length + operations.countP Operation.isSubscribe := by
  induction operations generalizing session with
  | nil => rfl
  | cons operation operations ih =>
    rw [run_cons, ih, List.countP_cons]
    have way := session.announces_perform operation
    generalize session.emitted? operation = emitted, session.perform operation = performed
      at way ⊢
    cases way with
    | subscribed observer =>
      simp only [subscribe, List.length_append, List.length_singleton, Operation.isSubscribe,
        if_true]
      omega
    | silent _ _ other subscriptions => simp [subscriptions, other]
    | told _ event _ other subscriptions => simp [subscriptions, other]

/-- An observer that subscribes in the course of a run hears what is emitted from
then on. -/
theorem subscriptions_run_subscribe (session : Session) (before after : List Operation)
    (observer : Observer) :
    (session.run (before ++ .subscribe observer :: after)).subscriptions[
        (session.run before).subscriptions.length]? =
      some ⟨observer, (session.run before).unobserved.emissions (Operation.unobserved after)⟩ := by
  have subscribed : ((session.run before).subscribe observer).subscriptions[
      (session.run before).subscriptions.length]? = some ⟨observer, []⟩ := by
    simp [subscribe]
  have heard := subscriptions_run subscribed after
  rw [← emissions_unobserved] at heard
  rw [run_append, run_cons]
  exact heard

/-- Observers have no influence on a session. After any operations it is what the
session without observers is after the operations that are no subscriptions, and the
next operation has the same outcome or fault. Observers that were there before have
received the events that were emitted, those that subscribed on the way the ones
emitted since, and the next operation delivers its event to all of them in order and
drops what they answer. -/
theorem run_unobserved (session : Session) (operations : List Operation) :
    let observed := session.run operations
    let alone := session.unobserved.run (Operation.unobserved operations)
    observed.unobserved = alone ∧
    (∀ operation, operation.isSubscribe = false →
      (observed.perform operation).outcome? = (alone.perform operation).outcome?) ∧
    (∀ (number : Nat) (subscription : Subscription),
      session.subscriptions[number]? = some subscription →
      observed.subscriptions[number]? = some (subscription.hear
        (session.unobserved.emissions (Operation.unobserved operations)))) ∧
    (∀ before observer after, operations = before ++ .subscribe observer :: after →
      observed.subscriptions[session.subscriptions.length +
          before.countP Operation.isSubscribe]? =
        some ⟨observer, (session.unobserved.run (Operation.unobserved before)).emissions
          (Operation.unobserved after)⟩) ∧
    observed.subscriptions.length =
      session.subscriptions.length + operations.countP Operation.isSubscribe ∧
    ∀ operation, observed.Announces operation (alone.emitted? operation)
      (observed.perform operation) := by
  intro observed alone
  have same : observed.unobserved = alone := unobserved_run session operations
  refine ⟨same, ?_, ?_, ?_, length_subscriptions_run session operations, ?_⟩
  · intro operation other
    rw [← same]
    exact (observed.sameBut_perform other).2
  · intro number subscription subscribed
    rw [emissions_unobserved]
    exact subscriptions_run subscribed operations
  · rintro before observer after rfl
    rw [← length_subscriptions_run, ← unobserved_run]
    exact subscriptions_run_subscribe session before after observer
  · intro operation
    rw [← same, emitted?_unobserved]
    exact observed.announces_perform operation

/-- An observer that answers every notification hears of a selection and then of a
new parse. One that subscribes in between hears of the parse only. -/
theorem run_unobserved_of_answers :
    let file := Tree.ofLabels ⟨{ kind := "file" }, ⟨0, 0, 2, 0⟩⟩ .nil 2
    let session : Session :=
      { document := { text := "ab" }
        snapshot := Snapshot.ofTree ⟨1⟩ "ab" file
        lines := ⟨"ab"⟩
        nextGeneration := ⟨2⟩ }
    let answering : Observer := fun _ => some (.text (.caret 1))
    let watching : Observer := fun _ => none
    let select : Operation := .handle (.text (.caret 0))
    let replace : Operation := .setText (fun _ => .ok file) "ba"
    let observed := session.run [.subscribe answering, select, .subscribe watching, replace]
    observed.unobserved = session.run [select, replace] ∧
      observed.subscriptions[0]? =
        some ⟨answering, [.tree (some ⟨⟨1⟩, 0⟩), .tree (some ⟨⟨2⟩, 0⟩)]⟩ ∧
      observed.subscriptions[1]? = some ⟨watching, [.tree (some ⟨⟨2⟩, 0⟩)]⟩ ∧
      (observed.perform replace).echoes = [.dropped .reentrant] := by
  intro file session answering watching select replace observed
  obtain ⟨same, -, -, late, -⟩ :=
    run_unobserved session [.subscribe answering, select, .subscribe watching, replace]
  have early : session.emissions [select, replace] =
      [.tree (some ⟨⟨1⟩, 0⟩), .tree (some ⟨⟨2⟩, 0⟩)] := by decide +kernel
  have last : (session.run [select]).emissions [replace] = [.tree (some ⟨⟨2⟩, 0⟩)] := by
    decide +kernel
  refine ⟨same, ?_, ?_, ?_⟩
  · rw [← early]
    exact late [] answering [select, .subscribe watching, replace] rfl
  · rw [← last]
    exact late [.subscribe answering, select] watching [replace] rfl
  · decide +kernel

end Session

end TreeLens
