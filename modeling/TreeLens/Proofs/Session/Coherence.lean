import TreeLens.Proofs.Selection.Step
import TreeLens.Session.Operation

/-!
# Coherence of sessions

Between two operations a session is coherent: no notification is under way, the
tree selection is empty or names a node of the current parse, and the lines are
those of the parsed text. Installing a parse makes any session coherent, since
both selections are fitted to the new parse; every other operation keeps what is
there. The revision counts the operations that changed the text.

An operation fails in two cases only, and then it leaves the session as it was.
-/

namespace TreeLens

namespace SelectionState

/-- Fitting the selections to a parse cuts the text selection down to the parsed text. -/
theorem text_resync (state : SelectionState) (context : Context) :
    (state.resync context).state.text =
      state.text.clamp (context.encoding.textLength context.snapshot.source) := by
  unfold resync
  dsimp only
  split <;> rfl

/-- The node is looked up anew. -/
theorem tree_resync (state : SelectionState) (context : Context) :
    (state.resync context).state.tree =
      (context.found? (state.resync context).state.text).map context.snapshot.id := by
  rw [text_resync]
  unfold resync
  dsimp only
  split <;> rfl

/-- The tree view is told of its selection unless it had none and has none now. -/
theorem emitted_resync (state : SelectionState) (context : Context) :
    (state.resync context).emitted =
      if (state.resync context).state.tree = none ∧ state.tree = none then none
      else some (.tree (state.resync context).state.tree) := by
  rw [tree_resync, text_resync]
  exact apply_ite Transition.emitted _ _ _

/-- Fitting the selections to a parse leaves a tree selection of that parse. -/
theorem names_resync (state : SelectionState) (context : Context) :
    context.Names (state.resync context).state.tree := by
  rw [tree_resync]
  exact context.names_found? _

theorem idle_resync {state : SelectionState} {context : Context}
    (silent : (state.resync context).emitted = none) :
    (state.resync context).state.phase = .idle := by
  unfold resync at silent ⊢
  dsimp only at silent ⊢
  split at silent
  · rw [if_pos (by assumption)]
    rfl
  · contradiction

end SelectionState

/-- Whether an operation replaces the text of the document. -/
def Operation.changesText : Operation → Bool
  | .editText _ => true
  | .setText parse text => (parse text).isOk
  | _ => false

/-- The text an operation gives the document, if it gives it one. -/
def Operation.newText? : Operation → Option String
  | .editText text => some text
  | .setText parse text => if (parse text).isOk then some text else none
  | _ => none

theorem Operation.isSome_newText? (operation : Operation) :
    operation.newText?.isSome = operation.changesText := by
  cases operation with
  | setText parse text =>
    rw [newText?, changesText]
    cases (parse text).isOk <;> rfl
  | subscribe | setPolicy | handle | editText | applyParse => rfl

namespace Session

/-- What holds between two operations. -/
structure Coherent (session : Session) : Prop where
  idle : session.selection.phase = .idle
  names : session.context.Names session.selection.tree
  lines : session.lines = ⟨session.snapshot.source⟩

/-- The operations that fail, each with its fault. -/
def Refuses (session : Session) (fault : Fault) : Operation → Prop
  | .setText parse text => parse text = .error fault
  | .applyParse outcome =>
    outcome.revision ≠ session.document.revision ∧
      fault = .staleParse outcome.revision.number session.document.revision.number
  | _ => False

/-! ## Single steps -/

/-- Delivering a transition replaces the selections and tells the observers, and
does nothing else. -/
theorem deliver_frame (step : Transition) (session : Session) :
    (session.deliver step).1 =
      { session with
        selection := (session.deliver step).1.selection
        subscriptions := (session.deliver step).1.subscriptions } := by
  unfold deliver
  cases step.emitted <;> rfl

/-- A delivered transition leaves a coherent session, provided it leaves a named
tree selection and is idle when it does not notify. -/
theorem coherent_deliver {step : Transition} {session : Session}
    (lines : session.lines = ⟨session.snapshot.source⟩)
    (names : session.context.Names step.state.tree)
    (idle : step.emitted = none → step.state.phase = .idle) :
    (session.deliver step).1.Coherent := by
  unfold deliver
  cases emitted : step.emitted with
  | none => exact ⟨idle emitted, names, lines⟩
  | some event => exact ⟨rfl, names, lines⟩

theorem Coherent.handle {session : Session} (coherent : session.Coherent) (event : Event) :
    (session.handle event).1.Coherent := by
  apply coherent_deliver coherent.lines
  · exact SelectionState.names_transition coherent.names event
  · exact SelectionState.idle_transition coherent.idle

/-- A session is coherent once a parse was installed, whatever it was before. -/
theorem coherent_install (session : Session) (text : String) (tree : Tree) :
    (session.install text tree).1.Coherent := by
  apply coherent_deliver rfl
  · exact SelectionState.names_resync _ _
  · exact SelectionState.idle_resync

/-- Installing a parse does not touch the document. -/
theorem document_install (session : Session) (text : String) (tree : Tree) :
    (session.install text tree).1.document = session.document := by
  rw [install, deliver_frame]

theorem setText_of_error {parse : SourceParser} {text : String} {fault : Fault}
    (parsed : parse text = .error fault) (session : Session) :
    session.setText parse text = (session, .error fault) := by
  rw [setText, parsed]

theorem setText_of_ok {parse : SourceParser} {text : String} {tree : Tree}
    (parsed : parse text = .ok tree) (session : Session) :
    session.setText parse text =
      (({ session with document := session.document.update text }).install text tree).map
        id .ok := by
  rw [setText, parsed]
  rfl

theorem applyParse_of_stale {outcome : ParseOutcome} {session : Session}
    (stale : outcome.revision ≠ session.document.revision) :
    session.applyParse outcome = (session,
      .error (.staleParse outcome.revision.number session.document.revision.number)) :=
  if_neg stale

theorem applyParse_of_current {outcome : ParseOutcome} {session : Session}
    (current : outcome.revision = session.document.revision) :
    session.applyParse outcome =
      (session.install outcome.text outcome.tree).map id .ok :=
  if_pos current

/-! ## Operations -/

theorem Coherent.perform {session : Session} (coherent : session.Coherent)
    (operation : Operation) : (session.perform operation).session.Coherent := by
  cases operation with
  | subscribe observer => exact ⟨coherent.idle, coherent.names, coherent.lines⟩
  | setPolicy policy => exact ⟨coherent.idle, coherent.names, coherent.lines⟩
  | handle event => exact coherent.handle event
  | setText parse text =>
    change (session.setText parse text).1.Coherent
    cases parsed : parse text with
    | error fault =>
      rw [setText_of_error parsed]
      exact coherent
    | ok tree =>
      rw [setText_of_ok parsed]
      exact coherent_install _ text tree
  | editText text => exact ⟨coherent.idle, coherent.names, coherent.lines⟩
  | applyParse outcome =>
    change (session.applyParse outcome).1.Coherent
    by_cases current : outcome.revision = session.document.revision
    · rw [applyParse_of_current current]
      exact coherent_install session outcome.text outcome.tree
    · rw [applyParse_of_stale current]
      exact coherent

/-- The document takes the text that an operation gives it, and no operation changes it
otherwise. -/
theorem document_perform (session : Session) (operation : Operation) :
    (session.perform operation).session.document =
      match operation.newText? with
      | some text => session.document.update text
      | none => session.document := by
  cases operation with
  | subscribe observer => rfl
  | setPolicy policy => rfl
  | handle event =>
    change (session.deliver _).1.document = session.document
    rw [deliver_frame]
  | setText parse text =>
    change (session.setText parse text).1.document = _
    rw [Operation.newText?]
    cases parsed : parse text with
    | error fault =>
      rw [setText_of_error parsed]
      rfl
    | ok tree =>
      rw [setText_of_ok parsed]
      exact document_install _ text tree
  | editText text => rfl
  | applyParse outcome =>
    change (session.applyParse outcome).1.document = session.document
    by_cases current : outcome.revision = session.document.revision
    · rw [applyParse_of_current current]
      exact document_install session outcome.text outcome.tree
    · rw [applyParse_of_stale current]

/-- An operation adds one to the revision if it changes the text, and leaves it
alone otherwise. -/
theorem revision_perform (session : Session) (operation : Operation) :
    (session.perform operation).session.document.revision.number =
      session.document.revision.number + if operation.changesText then 1 else 0 := by
  rw [document_perform, ← operation.isSome_newText?]
  cases operation.newText? with
  | none => rfl
  | some text => rfl

/-- An operation fails exactly in the listed cases. -/
theorem perform_eq_error_iff {session : Session} {operation : Operation} {fault : Fault} :
    (session.perform operation).answer = some (.error fault) ↔
      session.Refuses fault operation := by
  cases operation with
  | subscribe observer => simp [perform, Refuses]
  | setPolicy policy => simp [perform, Refuses]
  | handle event => simp [perform, Performed.answered, Refuses]
  | setText parse text =>
    rw [perform, Performed.answered, Refuses, Option.some.injEq]
    cases parsed : parse text with
    | error other =>
      rw [setText_of_error parsed]
      simp
    | ok tree =>
      rw [setText_of_ok parsed]
      simp
  | editText text => simp [perform, Refuses]
  | applyParse outcome =>
    rw [perform, Performed.answered, Refuses, Option.some.injEq]
    by_cases current : outcome.revision = session.document.revision
    · rw [applyParse_of_current current]
      simp [current]
    · rw [applyParse_of_stale current]
      simp [current, eq_comm]

/-- An operation that fails leaves the session behind that it found, and no
observer hears of it. -/
theorem perform_of_refuses {session : Session} {operation : Operation} {fault : Fault}
    (refused : session.Refuses fault operation) :
    (session.perform operation).session = session ∧
      (session.perform operation).delivered = [] := by
  have failed := perform_eq_error_iff.mpr refused
  refine ⟨?_, by rw [Performed.delivered, failed]⟩
  cases operation with
  | setText parse text => exact congrArg Prod.fst (setText_of_error refused session)
  | applyParse outcome => exact congrArg Prod.fst (applyParse_of_stale refused.1)
  | subscribe | setPolicy | handle | editText => exact refused.elim

/-! ## Runs -/

theorem run_cons (session : Session) (operation : Operation) (operations : List Operation) :
    session.run (operation :: operations) =
      (session.perform operation).session.run operations :=
  rfl

theorem Coherent.run {session : Session} (coherent : session.Coherent)
    (operations : List Operation) : (session.run operations).Coherent := by
  induction operations generalizing session with
  | nil => exact coherent
  | cons operation operations ih => exact ih (coherent.perform operation)

theorem revision_run (session : Session) (operations : List Operation) :
    (session.run operations).document.revision.number =
      session.document.revision.number + operations.countP Operation.changesText := by
  induction operations generalizing session with
  | nil => rfl
  | cons operation operations ih =>
    rw [run_cons, ih, revision_perform, List.countP_cons]
    omega

theorem start_of_ok {parse : SourceParser} {document : Document} {tree : Tree}
    (parsed : parse document.text = .ok tree) (generation : Generation) :
    Session.start parse document generation = .ok
      { document := document
        snapshot := Snapshot.ofTree generation document.text tree
        lines := ⟨document.text⟩
        nextGeneration := generation.next } := by
  rw [Session.start, parsed]
  rfl

/-- A session opens with a parse of the text of its document. -/
theorem exists_of_start {parse : SourceParser} {document : Document} {generation : Generation}
    {opened : Session} (started : Session.start parse document generation = .ok opened) :
    ∃ tree, parse document.text = .ok tree ∧
      opened =
        { document := document
          snapshot := Snapshot.ofTree generation document.text tree
          lines := ⟨document.text⟩
          nextGeneration := generation.next } := by
  cases parsed : parse document.text with
  | error fault =>
    rw [Session.start, parsed] at started
    contradiction
  | ok tree =>
    rw [start_of_ok parsed] at started
    exact ⟨tree, rfl, (Except.ok.inj started).symm⟩

/-- A session that was just opened is coherent, with any encoding and policy. -/
theorem coherent_start {parse : SourceParser} {document : Document} {generation : Generation}
    {opened : Session} (started : Session.start parse document generation = .ok opened)
    (encoding : Encoding) (policy : Policy) : (opened.configure encoding policy).Coherent := by
  obtain ⟨tree, _, rfl⟩ := exists_of_start started
  exact ⟨rfl, Context.names_none _, rfl⟩

/-- After any operations a session is coherent and its revision counts the
changes of the text; an operation fails only when its parser does or when it
brings a parse of another revision, and then nothing changes and nobody is
told. -/
theorem run_coherent (parse : SourceParser) (document : Document) (generation : Generation)
    (encoding : Encoding) (policy : Policy) (operations : List Operation)
    {opened session : Session}
    (started : Session.start parse document generation = .ok opened)
    (ran : (opened.configure encoding policy).run operations = session) :
    session.Coherent ∧
      session.document.revision.number =
        document.revision.number + operations.countP Operation.changesText ∧
      ∀ operation fault,
        ((session.perform operation).answer = some (.error fault) ↔
          session.Refuses fault operation) ∧
        (session.Refuses fault operation →
          (session.perform operation).session = session ∧
            (session.perform operation).delivered = []) := by
  subst ran
  refine ⟨(coherent_start started encoding policy).run operations, ?_, ?_⟩
  · obtain ⟨tree, _, rfl⟩ := exists_of_start started
    exact revision_run _ operations
  · intro operation fault
    exact ⟨perform_eq_error_iff, perform_of_refuses⟩

/-- Two edits, of which the second one fails to parse, and an event in between
count as one change, and the parse of the first text is refused. -/
theorem run_coherent_after_failed_parse :
    let blank : Tree := Tree.ofLabels ⟨{ kind := "file" }, ⟨0, 0, 0, 0⟩⟩ .nil 0
    let failing : SourceParser := fun _ => .error (.parse "plain" "no tree")
    let late : Operation := .applyParse ⟨⟨0⟩, "", blank⟩
    ∃ opened session : Session,
      Session.start (fun _ => .ok blank) { text := "" } ⟨1⟩ = .ok opened ∧
        (opened.configure .utf8 default).run
          [.editText "a", .handle (.text (.caret 0)), .setText failing "b"] = session ∧
        session.Coherent ∧ session.document.revision.number = 1 ∧
        (session.perform late).answer = some (.error (.staleParse 0 1)) ∧
        (session.perform late).session = session := by
  intro blank failing late
  refine ⟨_, _, rfl, rfl, ?_⟩
  obtain ⟨coherent, revision, failures⟩ := run_coherent (fun _ => .ok blank) { text := "" } ⟨1⟩
    .utf8 default [.editText "a", .handle (.text (.caret 0)), .setText failing "b"] rfl rfl
  obtain ⟨answered, unchanged⟩ := failures late (.staleParse 0 1)
  have refused : (⟨0⟩ : Revision) ≠ ⟨1⟩ ∧ Fault.staleParse 0 1 = .staleParse 0 1 := by decide
  exact ⟨coherent, revision, answered.mpr refused, (unchanged refused).1⟩

end Session

end TreeLens
