import TreeLens.Proofs.Session.Pending

/-!
# Selecting afresh in a new parse

A new parse voids the tree selection, and the text selection is all that is left to choose a
node by. Fitting the selections to the parse comes to the same as reporting the text
selection, cut down to the new text, where nothing is selected in the tree: the same node
is found, and where a report would be dropped or would empty the selection, none is. The
tree selection of before only decides whether there is something to tell.

For a session this means that its history does not matter. After a change of text it has the
same node selected as one that was just opened on that text, once the same text selection
is reported there; the two parses differ in their generation, which names nodes but finds
none.
-/

namespace TreeLens

namespace Transition

/-- The transition fits the selections of `state` to a parse as if its text selection were
reported where no node is selected. -/
structure Afresh (next : Transition) (state : SelectionState) (context : Context) : Prop where
  text : next.state.text =
    state.text.clamp (context.encoding.textLength context.snapshot.source)
  inside : ∀ span ∈ next.state.text.ranges,
    span.start ≤ context.encoding.textLength context.snapshot.source ∧
      span.stop ≤ context.encoding.textLength context.snapshot.source
  tree : ∀ fresh : SelectionState, fresh.phase = .idle → fresh.tree = none →
    next.state.tree = (fresh.transition context (.text next.state.text)).state.tree
  emitted : next.emitted =
    if next.state.tree = none ∧ state.tree = none then none else some (.tree next.state.tree)

end Transition

namespace SelectionState

theorem afresh_resync (state : SelectionState) (context : Context) :
    (state.resync context).Afresh state context where
  text := state.text_resync context
  inside := by
    intro span member
    rw [text_resync] at member
    have ordered : span.Ordered := (TextSelection.normal_ofSpans _).ordered span member
    have stopInside := TextSelection.stop_le_of_mem_clamp member
    exact ⟨Nat.le_trans ordered stopInside, stopInside⟩
  tree := by
    intro fresh idle unselected
    rw [tree_transition_text context _ idle unselected]
    exact state.tree_resync context
  emitted := state.emitted_resync context

/-- Only the text selection decides what the selections are fitted to. -/
theorem settle_resync_congr {state other : SelectionState} (context : Context)
    (sameText : other.text = state.text) :
    (other.resync context).state.settle = (state.resync context).state.settle := by
  rw [settle_resync, settle_resync, sameText]

end SelectionState

/-- The generation of a parse names its nodes and finds none. -/
theorem Context.found?_ofTree (first second : Generation) (source : String) (tree : Tree)
    (encoding : Encoding) (policy : Policy) (selection : TextSelection) :
    (Context.mk (Snapshot.ofTree first source tree) encoding policy).found? selection =
      (Context.mk (Snapshot.ofTree second source tree) encoding policy).found? selection :=
  rfl

namespace Session

variable {session : Session}

theorem context_handle (session : Session) (event : Event) :
    (session.handle event).1.context = session.context := by
  rw [handle, deliver_frame]
  rfl

/-- Where no node is selected, a report selects the node that a lookup finds. -/
theorem tree_handle_text (selection : TextSelection) (idle : session.selection.phase = .idle)
    (unselected : session.selection.tree = none) :
    (session.handle (.text selection)).1.selection.tree =
      ((session.handle (.text selection)).1.context.found? selection).map
        (session.handle (.text selection)).1.context.snapshot.id := by
  rw [context_handle, handle,
    selection_deliver session (SelectionState.idle_transition idle)]
  exact SelectionState.tree_transition_text session.context selection idle unselected

/-- A new parse selects the node that a lookup finds for the text selection it cut down. -/
theorem tree_install (session : Session) (text : String) (tree : Tree) :
    (session.install text tree).1.selection.tree =
      ((session.install text tree).1.context.found?
        (session.selection.text.clamp (session.encoding.textLength text))).map
        (session.install text tree).1.context.snapshot.id := by
  rw [selection_install]
  exact Context.choice_eq _ _

/-- The selected node, of a session whose tree selection is the name of a found node. -/
theorem selected?_of_found? {selection : TextSelection}
    (named : session.selection.tree =
      (session.context.found? selection).map session.context.snapshot.id) :
    session.selected? = session.context.found? selection ∧
      session.selection.tree.map NodeId.index =
        (session.context.found? selection).map Node.index := by
  constructor
  · rw [selected?, named]
    exact session.context.bind_resolve?_found? selection
  · rw [named, Option.map_map]
    rfl

/-- Fitting the selections to a parse agrees with selecting afresh: the text selection is cut
down to the new text, the node is the one that a report of what is left would select where
none is selected, and the tree selection of before only decides whether the tree view is
told. After a change of text a session therefore has the same node selected as a session
opened on that text, with the same encoding and policy, in which that text selection is
reported. -/
theorem setText_selects_afresh :
    (∀ (state : SelectionState) (context : Context),
      (state.resync context).Afresh state context ∧
        ∀ other : SelectionState, other.text = state.text →
          (other.resync context).state.settle = (state.resync context).state.settle) ∧
      ∀ (session : Session) (parse : SourceParser) (document : Document)
        (generation : Generation) (tree : Tree), parse document.text = .ok tree →
        ∃ changed report opened,
          session.setText parse document.text = (changed, .ok report) ∧
            Session.start parse document generation = .ok opened ∧
            let reported := ((opened.configure session.encoding session.policy).handle
              (.text (session.selection.text.clamp
                (session.encoding.textLength document.text)))).1
            changed.selection.tree.map NodeId.index =
                reported.selection.tree.map NodeId.index ∧
              changed.selected? = reported.selected? := by
  constructor
  · intro state context
    exact ⟨state.afresh_resync context, fun other => SelectionState.settle_resync_congr context⟩
  · intro session parse document generation tree parsed
    let edited := { session with document := session.document.update document.text }
    let opened : Session :=
      { document := document
        snapshot := Snapshot.ofTree generation document.text tree
        lines := ⟨document.text⟩
        nextGeneration := generation.next }
    let selection := session.selection.text.clamp (session.encoding.textLength document.text)
    refine ⟨(edited.install document.text tree).1, (edited.install document.text tree).2, opened,
      setText_of_ok parsed session, start_of_ok parsed generation, ?_⟩
    -- Both nodes are found by the same lookup, in parses that differ in their generation.
    have sameNode : (edited.install document.text tree).1.context.found? selection =
        ((opened.configure session.encoding session.policy).handle
          (.text selection)).1.context.found? selection := by
      rw [context_install, context_handle]
      exact Context.found?_ofTree session.nextGeneration generation document.text tree
        session.encoding session.policy selection
    rcases selected?_of_found? (tree_install edited document.text tree) with ⟨node, index⟩
    rcases selected?_of_found? (tree_handle_text selection
      (show (opened.configure session.encoding session.policy).selection.phase = .idle from rfl)
      rfl) with ⟨reportedNode, reportedIndex⟩
    constructor
    · exact index.trans ((congrArg (Option.map Node.index) sameNode).trans reportedIndex.symm)
    · exact node.trans (sameNode.trans reportedNode.symm)

/-- Of two selected spans the second lies behind the end of the shorter text and is left as a
caret there, so both together are covered by the node that ends with the text, and not by the
deeper one at its start. -/
theorem setText_selects_afresh_behind_the_end :
    let before := Tree.ofLabels ⟨{ kind := "file" }, ⟨0, 0, 4, 0⟩⟩ .nil 4
    let after := Tree.ofLabels ⟨{ kind := "file" }, ⟨0, 0, 2, 0⟩⟩
      (.node ⟨{ kind := "list" }, ⟨0, 0, 2, 0⟩⟩
        (.node ⟨{ kind := "name" }, ⟨0, 0, 1, 0⟩⟩ .nil .nil) .nil) 2
    let session : Session :=
      { document := { text := "abcd" }
        snapshot := Snapshot.ofTree ⟨1⟩ "abcd" before
        lines := ⟨"abcd"⟩
        selection := ⟨.idle, ⟨[⟨0, 1⟩, ⟨3, 4⟩]⟩, some ⟨⟨1⟩, 0⟩⟩
        policy := ⟨.enclosing, false⟩
        nextGeneration := ⟨2⟩ }
    let opened : Session :=
      { document := { text := "ab" }
        snapshot := Snapshot.ofTree ⟨7⟩ "ab" after
        lines := ⟨"ab"⟩
        nextGeneration := ⟨8⟩ }
    let changed := session.setText (fun _ => .ok after) "ab"
    let reported := (opened.configure .utf16 ⟨.enclosing, false⟩).handle
      (.text ⟨[⟨0, 1⟩, ⟨2, 2⟩]⟩)
    session.selection.text.clamp 2 = ⟨[⟨0, 1⟩, ⟨2, 2⟩]⟩ ∧
      Session.start (fun _ => .ok after) { text := "ab" } ⟨7⟩ = .ok opened ∧
      reported.1.selection.tree = some ⟨⟨7⟩, 1⟩ ∧ changed.2.isOk ∧
      changed.1.selection.tree.map NodeId.index = some 1 := by
  intro before after session opened changed reported
  have normal : TextSelection.Normal ⟨[⟨0, 1⟩, ⟨2, 2⟩]⟩ :=
    ⟨by decide, .cons_cons ⟨by decide, by decide⟩ (.singleton _)⟩
  have cut : session.selection.text.clamp 2 = ⟨[⟨0, 1⟩, ⟨2, 2⟩]⟩ := normal.ofSpans_eq_self
  have chosen : reported.1.selection.tree = some ⟨⟨7⟩, 1⟩ := by decide +kernel
  rcases setText_selects_afresh with ⟨-, sessions⟩
  rcases sessions session (fun _ => .ok after) { text := "ab" } ⟨7⟩ after rfl with
    ⟨final, report, other, replaced, started, sameIndex, -⟩
  have otherEq : opened = other := Except.ok.inj started
  have length : session.encoding.textLength "ab" = 2 := by decide
  subst otherEq
  simp only [length, cut] at sameIndex
  refine ⟨cut, rfl, chosen, ?_, ?_⟩
  · rw [show changed = (final, .ok report) from replaced]
    rfl
  · rw [show changed = (final, .ok report) from replaced]
    exact sameIndex.trans (congrArg (Option.map NodeId.index) chosen)

end Session

end TreeLens
