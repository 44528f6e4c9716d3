import TreeLens.Proofs.Selection.Normal
import TreeLens.Proofs.Selection.Outcome
import TreeLens.Proofs.Session.Freshness

/-!
# Selections made while a parse is pending

Between an edit and the parse of the edited text, the text view shows a text that
the session has no tree of. A selection reported in that time is judged by the
parse in place: the start of the span it stands for has to be a character
boundary of the text that was parsed last. If it is, the selection is kept as it
is, and the new parse, when it comes, finds it whole and selects its node. If it
is not, the report is dropped although the selection is one of the edited text,
and the new parse finds the selection that was there before.
-/

namespace TreeLens

namespace Context

/-- The tree selection a text selection leads to where nothing was selected. -/
def choice (context : Context) (selection : TextSelection) : Option NodeId :=
  (({} : SelectionState).transition context (.text selection)).state.tree

/-- Where nothing was selected, the node is the one the lookup finds. -/
theorem choice_eq (context : Context) (selection : TextSelection) :
    context.choice selection = (context.found? selection).map context.snapshot.id :=
  SelectionState.tree_transition_text context selection rfl rfl

end Context

namespace SelectionState

/-- Selections are fitted to a parse by cutting the text selection down and
choosing its node as if nothing had been selected. -/
theorem settle_resync (state : SelectionState) (context : Context) :
    (state.resync context).state.settle =
      ⟨.idle, state.text.clamp (context.encoding.textLength context.snapshot.source),
        context.choice
          (state.text.clamp (context.encoding.textLength context.snapshot.source))⟩ := by
  rw [Context.choice_eq, ← text_resync, ← tree_resync]
  rfl

end SelectionState

namespace TextSelection

/-- A normalised selection whose bounds are all indices of a text fits into that
text. -/
theorem clamp_ofSpans {encoding : Encoding} {text : String} {spans : List Span}
    (mapped : ∀ span ∈ (ofSpans spans).ranges, (Text.spanToBytes encoding text span).isSome) :
    (ofSpans spans).clamp (encoding.textLength text) = ofSpans spans := by
  apply (normal_ofSpans spans).clamp_eq_self
  intro span member
  obtain ⟨bytes, converted⟩ := Option.isSome_iff_exists.mp (mapped span member)
  exact Text.le_textLength_of_toByte (Text.spanToBytes_eq_some_iff.mp converted).2

end TextSelection

namespace Session

theorem text_deliver (step : Transition) (session : Session) :
    (session.deliver step).1.selection.text = step.state.text := by
  unfold deliver
  cases step.emitted <;> rfl

/-- Once a transition was delivered its state is settled. -/
theorem selection_deliver {step : Transition} (session : Session)
    (idle : step.emitted = none → step.state.phase = .idle) :
    (session.deliver step).1.selection = step.state.settle := by
  unfold deliver
  cases emitted : step.emitted with
  | none => exact SelectionState.ext (idle emitted) rfl rfl
  | some event => rfl

theorem context_install (session : Session) (text : String) (tree : Tree) :
    (session.install text tree).1.context =
      ⟨Snapshot.ofTree session.nextGeneration text tree, session.encoding, session.policy⟩ := by
  rw [install, deliver_frame]
  rfl

/-- A new parse finds the text selection, cut down to its text, and chooses the
node. -/
theorem selection_install (session : Session) (text : String) (tree : Tree) :
    (session.install text tree).1.selection =
      ⟨.idle, session.selection.text.clamp (session.encoding.textLength text),
        (session.install text tree).1.context.choice
          (session.selection.text.clamp (session.encoding.textLength text))⟩ := by
  rw [context_install, install, selection_deliver _ SelectionState.idle_resync,
    SelectionState.settle_resync]
  rfl

theorem handle_of_not_admits {session : Session} {selection : TextSelection}
    (idle : session.selection.phase = .idle) (refused : ¬session.context.Admits selection) :
    session.handle (.text selection) =
      (session, { outcome := .dropped .unmappable }) := by
  rw [handle, SelectionState.transition_of_not_admits idle refused]
  rfl

/-- A selection of the edited text that is reported before the parse of that text
is there, once the parse was applied: if the text parsed before admits the
selection, the session has it, with the node it selects in the new parse. If not,
the report was dropped, and the session has the selection from before the edit,
cut down to the edited text, with its node. -/
theorem applyParse_pending_selection (parse : SourceParser) (document : Document)
    (generation : Generation) (encoding : Encoding) (policy : Policy)
    (operations : List Operation) {opened session edited : Session}
    (started : Session.start parse document generation = .ok opened)
    (ran : (opened.configure encoding policy).run operations = session)
    (text : String) (tree : Tree) (spans : List Span) {selection : TextSelection}
    (normalised : TextSelection.ofSpans spans = selection)
    (mapped : ∀ span ∈ selection.ranges,
      (Text.spanToBytes session.encoding text span).isSome)
    (changed : session.editText text = edited) :
    ∃ final report,
      (edited.handle (.text selection)).1.applyParse
          ⟨edited.document.revision, text, tree⟩ = (final, .ok report) ∧
        final.snapshot = Snapshot.ofTree session.nextGeneration text tree ∧
        (session.context.Admits selection →
          final.selection = ⟨.idle, selection, final.context.choice selection⟩) ∧
        (¬session.context.Admits selection →
          edited.handle (.text selection) = (edited, { outcome := .dropped .unmappable }) ∧
            final.selection =
              ⟨.idle, session.selection.text.clamp (session.encoding.textLength text),
                final.context.choice
                  (session.selection.text.clamp (session.encoding.textLength text))⟩) := by
  have idle : session.selection.phase = .idle :=
    ran ▸ ((coherent_start started encoding policy).run operations).idle
  subst normalised changed
  generalize reportedEq : (session.editText text).handle (.text (.ofSpans spans)) = reported
  have frame : reported.1 =
      { session.editText text with
        selection := reported.1.selection
        subscriptions := reported.1.subscriptions } := by
    rw [← reportedEq]
    exact deliver_frame _ _
  have current : (session.editText text).document.revision = reported.1.document.revision := by
    rw [frame]
  have sameEncoding : reported.1.encoding = session.encoding := by
    rw [frame]
    rfl
  refine ⟨(reported.1.install text tree).1, (reported.1.install text tree).2,
    applyParse_of_current current, ?_, ?_, ?_⟩
  · rw [snapshot_install, frame]
    rfl
  · intro admitted
    have taken : reported.1.selection.text = .ofSpans spans := by
      rw [← reportedEq, handle, text_deliver]
      exact SelectionState.text_transition_of_admits idle admitted
    rw [selection_install, taken, sameEncoding, TextSelection.clamp_ofSpans mapped]
  · intro refused
    have dropped : (session.editText text).handle (.text (.ofSpans spans)) =
        (session.editText text, { outcome := .dropped .unmappable }) :=
      handle_of_not_admits idle refused
    rw [← reportedEq, dropped, selection_install]
    exact ⟨rfl, rfl⟩

/-- A selection that begins in the text parsed before and reaches past its end is
kept. -/
theorem applyParse_pending_past_the_end :
    let short := Tree.ofLabels ⟨{ kind := "file" }, ⟨0, 0, 2, 0⟩⟩ .nil 2
    let long := Tree.ofLabels ⟨{ kind := "file" }, ⟨0, 0, 3, 0⟩⟩
      (.node ⟨{ kind := "name" }, ⟨1, 0, 2, 0⟩⟩ .nil .nil) 3
    let session : Session :=
      { document := { text := "ab" }
        snapshot := Snapshot.ofTree ⟨1⟩ "ab" short
        lines := ⟨"ab"⟩
        nextGeneration := ⟨2⟩ }
    let edited := session.editText "abc"
    let final := ((edited.handle (.text (.single ⟨1, 3⟩))).1.applyParse
      ⟨edited.document.revision, "abc", long⟩).1
    Session.start (fun _ => .ok short) { text := "ab" } ⟨1⟩ = .ok session ∧
      TextSelection.ofSpans [⟨3, 1⟩] = .single ⟨1, 3⟩ ∧
      session.context.Admits (.single ⟨1, 3⟩) ∧
      final.selection = ⟨.idle, .single ⟨1, 3⟩, final.context.choice (.single ⟨1, 3⟩)⟩ ∧
      final.context.choice (.single ⟨1, 3⟩) = some ⟨⟨2⟩, 1⟩ := by
  intro short long session edited final
  have started : Session.start (fun _ => .ok short) { text := "ab" } ⟨1⟩ = .ok session := rfl
  have ran : (session.configure .utf16 default).run [] = session := rfl
  have changed : session.editText "abc" = edited := rfl
  have normalised : TextSelection.ofSpans [⟨3, 1⟩] = .single ⟨1, 3⟩ := by decide +kernel
  have admitted : session.context.Admits (.single ⟨1, 3⟩) := by
    intro target reduced
    obtain rfl : (⟨1, 3⟩ : Span) = target := Option.some.inj reduced
    decide
  obtain ⟨reached, report, applied, -, kept, -⟩ :=
    applyParse_pending_selection (fun _ => .ok short) { text := "ab" } ⟨1⟩ .utf16 default []
      started ran "abc" long [⟨3, 1⟩] normalised (by decide) changed
  have reachedEq : final = reached := congrArg Prod.fst applied
  refine ⟨started, normalised, admitted, ?_, by decide +kernel⟩
  rw [reachedEq]
  exact kept admitted

/-- A selection of the last letter of a longer text does not survive: the text
parsed before ends where it begins. -/
theorem pending_selection_lost :
    let short := Tree.ofLabels ⟨{ kind := "file" }, ⟨0, 0, 1, 0⟩⟩ .nil 1
    let long := Tree.ofLabels ⟨{ kind := "file" }, ⟨0, 0, 3, 0⟩⟩
      (.node ⟨{ kind := "name" }, ⟨2, 0, 1, 0⟩⟩ .nil .nil) 3
    let session : Session :=
      { document := { text := "a" }
        snapshot := Snapshot.ofTree ⟨1⟩ "a" short
        lines := ⟨"a"⟩
        nextGeneration := ⟨2⟩ }
    let selection := TextSelection.ofSpans [⟨2, 3⟩]
    let edited := session.editText "abc"
    let reported := edited.handle (.text selection)
    let final := reported.1.applyParse ⟨edited.document.revision, "abc", long⟩
    Session.start (fun _ => .ok short) { text := "a" } ⟨1⟩ = .ok session ∧
      (∀ span ∈ selection.ranges, (Text.spanToBytes session.encoding "abc" span).isSome) ∧
      reported.2.outcome = .dropped .unmappable ∧ final.2.isOk ∧
      final.1.context.choice selection = some ⟨⟨2⟩, 1⟩ ∧
      final.1.selection.text ≠ selection ∧ final.1.selection.tree ≠ some ⟨⟨2⟩, 1⟩ := by
  intro short long session selection edited reported final
  constructor
  · rfl
  · decide +kernel

end Session

end TreeLens
