import TreeLens.Proofs.Selection.Step

/-!
# Notifications come to an end

A view that is told about a selection reports it back as an event of its own.
When every notification is fed back in this way, at most two notifications go
out, one if the tree view began, and the last event finds both views in
agreement. Only a node that cannot be shown, because its bytes cut a character,
leaves the text view with a selection that is not the node's.

The bound rests on one fact: the text a node shows as selects that node again,
although the lookup by offset would often prefer a deeper one.
-/

namespace TreeLens.SelectionState

/-- Feeding every notification back leads through `trail`, whose transitions
all notify, to `last`, which does not. -/
inductive Settles (context : Context) :
    SelectionState → Event → List Transition → Transition → Prop where
  | stop {state : SelectionState} {event : Event} {last : Transition}
    (stepped : state.transition context event = last) (silent : last.emitted = none) :
    Settles context state event [] last
  | echo {state : SelectionState} {event reported : Event} {next last : Transition}
    {trail : List Transition} (stepped : state.transition context event = next)
    (notified : next.emitted = some reported)
    (rest : Settles context next.state.settle reported trail last) :
    Settles context state event (next :: trail) last

/-- The executable loop goes through the same run, given any limit the run fits
in. -/
theorem Settles.quiesce_eq {context : Context} {state : SelectionState} {event : Event}
    {trail : List Transition} {last : Transition}
    (settles : Settles context state event trail last) (spare : Nat) :
    quiesce context (trail.length + 1 + spare) state event = trail ++ [last] := by
  induction settles with
  | stop stepped silent =>
    rw [List.length_nil, Nat.add_right_comm, quiesce]
    simp only [stepped, silent, List.nil_append]
  | echo stepped notified rest ih =>
    rw [List.length_cons, Nat.add_right_comm, quiesce]
    simp only [stepped, notified, List.cons_append, List.cons.injEq, true_and]
    exact ih

/-- Both views show the same, or the selected node cannot be shown. -/
inductive Agreement (context : Context) (state : SelectionState) : Prop where
  | empty (noText : state.text = .empty) (noTree : state.tree = none)
  | shown (id : NodeId) (node : Node) (span : Span) (selected : state.tree = some id)
    (resolved : context.snapshot.resolve? id = some node)
    (mapped : context.nativeSpan? node = some span) (text : state.text = .single span)
  | hidden (id : NodeId) (node : Node) (selected : state.tree = some id)
    (resolved : context.snapshot.resolve? id = some node)
    (unmapped : context.nativeSpan? node = none)

/-- The text of the selected node selects that node, whatever else lies at its
offset. -/
theorem transition_of_shown {state : SelectionState} {context : Context} {id : NodeId}
    {node : Node} {span : Span} (idle : state.phase = .idle) (selected : state.tree = some id)
    (resolved : context.snapshot.resolve? id = some node)
    (mapped : context.nativeSpan? node = some span) :
    state.transition context (.text (.single span)) =
      .quiet ⟨.idle, .single span, some id⟩ .consistent := by
  have target : context.target? (.single span) = some span :=
    context.target?_single (Context.nativeSpan?_ordered mapped)
  have current : state.current? context span = some node :=
    current?_eq_some_iff.mpr ⟨id, selected, resolved, mapped⟩
  rw [transition_text_of_current? idle target current, selected]

/-- A tree event notifies at most once. The views agree afterwards if it did,
and also if the state had that tree selection already and it names a node. -/
theorem exists_settles_tree {state : SelectionState} (context : Context)
    (idle : state.phase = .idle) (selection : Option NodeId) :
    ∃ trail last, Settles context state (.tree selection) trail last ∧ trail.length ≤ 1 ∧
      (trail ≠ [] ∨ state.tree = selection ∧ context.Names selection →
        Agreement context last.state.settle) := by
  have stepped := transition_tree context selection idle
  have way := state.treeStep context selection
  generalize state.treeChanged context selection = next at stepped way
  cases way with
  | cleared =>
    refine ⟨[], _, .stop stepped rfl, Nat.zero_le _, ?_⟩
    intro _
    exact .empty rfl rfl
  | stale id unresolved =>
    refine ⟨[], _, .stop stepped rfl, Nat.zero_le _, ?_⟩
    rintro (notified | ⟨-, names⟩)
    · contradiction
    · obtain ⟨node, resolved⟩ := names id rfl
      rw [unresolved] at resolved
      contradiction
  | unmappable id node resolved unmapped =>
    refine ⟨[], _, .stop stepped rfl, Nat.zero_le _, ?_⟩
    rintro (notified | ⟨selected, -⟩)
    · contradiction
    · exact .hidden id node selected resolved unmapped
  | agreed id node span resolved mapped =>
    refine ⟨[], _, .stop stepped rfl, Nat.zero_le _, ?_⟩
    intro _
    exact .shown id node span rfl resolved mapped rfl
  | passedOn id node span resolved mapped =>
    have answered := transition_of_shown
      (show (settle ⟨.propagating, .single span, some id⟩).phase = .idle from rfl)
      rfl resolved mapped
    refine ⟨[_], _, .echo stepped rfl (.stop answered rfl), Nat.le_refl _, ?_⟩
    intro _
    exact .shown id node span rfl resolved mapped rfl

/-- Every event settles after at most two notifications, a tree event after at
most one, and if there was a notification the views end in agreement. -/
theorem exists_settles_agreement (context : Context) (state : SelectionState) (event : Event) :
    ∃ trail last, Settles context state event trail last ∧
      (∀ spare, quiesce context (trail.length + 1 + spare) state event = trail ++ [last]) ∧
      trail.length ≤ 2 ∧ (∀ selection, event = .tree selection → trail.length ≤ 1) ∧
      (trail ≠ [] → Agreement context last.state.settle) := by
  suffices run : ∃ trail last, Settles context state event trail last ∧
      trail.length ≤ 2 ∧ (∀ selection, event = .tree selection → trail.length ≤ 1) ∧
      (trail ≠ [] → Agreement context last.state.settle) by
    obtain ⟨trail, last, settles, rest⟩ := run
    exact ⟨trail, last, settles, settles.quiesce_eq, rest⟩
  cases phase : state.phase with
  | propagating =>
    have stepped := transition_of_propagating context event phase
    exact ⟨[], _, .stop stepped rfl, Nat.zero_le _, fun _ _ => Nat.zero_le _, by simp⟩
  | idle =>
    cases event with
    | tree selection =>
      obtain ⟨trail, last, settles, bound, agreement⟩ :=
        exists_settles_tree context phase selection
      refine ⟨trail, last, settles, Nat.le_succ_of_le bound, fun _ _ => bound, ?_⟩
      intro notified
      exact agreement (Or.inl notified)
    | text selection =>
      have stepped := transition_text context selection phase
      have way := state.textStep context selection
      generalize state.textChanged context selection = next at stepped way
      cases way with
      | cleared | kept | unmappable | agreed =>
        exact ⟨[], _, .stop stepped rfl, Nat.zero_le _, by simp, by simp⟩
      | passedOn target picked _ _ mapped =>
        -- The tree view reports the selection it was just given.
        obtain ⟨trail, last, settles, bound, agreement⟩ := exists_settles_tree context
          (show (settle ⟨.propagating, selection, picked.map context.snapshot.id⟩).phase = .idle
            from rfl)
          (picked.map context.snapshot.id)
        refine ⟨_ :: trail, last, .echo stepped rfl settles, Nat.succ_le_succ bound,
          by simp, ?_⟩
        intro _
        exact agreement (Or.inr ⟨rfl, Context.names_of_pick? mapped⟩)

-- A caret reaches the tree view first, and then the text view, which is told to
-- select the whole node.
example :
    let tree := Tree.ofLabels ⟨{ kind := "file" }, ⟨0, 0, 2, 0⟩⟩
      (.node ⟨{ kind := "name" }, ⟨0, 0, 1, 0⟩⟩ .nil .nil) 2
    let context : Context := ⟨Snapshot.ofTree ⟨1⟩ "ab" tree, .utf16, default⟩
    (quiesce context 5 {} (.text (.caret 0))).map Transition.emitted =
      [some (.tree (some ⟨⟨1⟩, 1⟩)), some (.text (.single ⟨0, 1⟩)), none] := by
  decide

end TreeLens.SelectionState
