import TreeLens.Proofs.Session.Pending
import TreeLens.Tree.Validity

/-!
# Where text selections come from

Of a reported text selection a session looks at one bound only, the start of its first
span. If that is a character boundary of the parsed text, the selection is taken over
whole, wherever its other bounds are; if not, the report is dropped. A selection that
shows a node has bounds that are all character boundaries. A selection that outlives its
parse is cut down to the length of the new text.

So what is known of the text selection of a session depends on what it was set by last.
-/

namespace TreeLens

/-- A selection that the text view reports is a normalised one or a caret. -/
def Operation.Normalised : Operation → Prop
  | .handle (.text selection) =>
    (∃ spans, selection = .ofSpans spans) ∨ ∃ offset, selection = .caret offset
  | _ => True

theorem Operation.normal_of_normalised {selection : TextSelection}
    (normalised : (Operation.handle (.text selection)).Normalised) : selection.Normal := by
  rcases normalised with ⟨spans, rfl⟩ | ⟨offset, rfl⟩
  · exact TextSelection.normal_ofSpans spans
  · exact TextSelection.normal_single (Nat.le_refl _)

namespace Context

/-- A text selection without spans, or whose first span starts at a character boundary
of the parsed text. -/
def Begins (context : Context) (selection : TextSelection) : Prop :=
  ∀ first, selection.first? = some first →
    (Text.toByte context.encoding context.snapshot.source first.start).isSome

/-- Under either policy a normal selection stands for a span that starts where its first
one does. -/
theorem map_start_target? (context : Context) {selection : TextSelection}
    (normal : selection.Normal) :
    (context.target? selection).map Span.start = selection.first?.map Span.start := by
  rw [target?]
  cases context.policy.multiRange with
  | first => rfl
  | enclosing => exact normal.map_start_hull?

theorem admits_iff_begins {context : Context} {selection : TextSelection}
    (normal : selection.Normal) : context.Admits selection ↔ context.Begins selection := by
  have starts := context.map_start_target? normal
  simp only [Admits, Begins]
  cases reduced : context.target? selection with
  | none => cases leads : selection.first? <;> simp_all
  | some target => cases leads : selection.first? <;> simp_all

/-- What a node shows as lies between character boundaries. -/
theorem isSome_spanToBytes_single {context : Context} {node : Node} {shown : Span}
    (mapped : context.nativeSpan? node = some shown) :
    ∀ span ∈ (TextSelection.single shown).ranges,
      (Text.spanToBytes context.encoding context.snapshot.source span).isSome := by
  intro span member
  obtain rfl := List.mem_singleton.mp member
  rcases Text.spanToNative_eq_some_iff.mp mapped with ⟨start, stop⟩
  rw [Text.spanToBytes_eq_some_iff.mpr
    ⟨Text.toByte_eq_some_iff.mpr start, Text.toByte_eq_some_iff.mpr stop⟩]
  rfl

end Context

namespace SelectionState

variable {state : SelectionState} {context : Context}

/-- A tree event that is not dropped leaves spans between character boundaries. -/
theorem isSome_spanToBytes_transition_tree {selection : Option NodeId}
    (idle : state.phase = .idle)
    (taken : (state.transition context (.tree selection)).outcome.isDropped = false) :
    ∀ span ∈ (state.transition context (.tree selection)).state.text.ranges,
      (Text.spanToBytes context.encoding context.snapshot.source span).isSome := by
  rw [transition_tree context selection idle] at taken ⊢
  have way := state.treeStep context selection
  generalize state.treeChanged context selection = next at way taken ⊢
  cases way with
  | cleared =>
    intro span member
    cases member
  | stale => contradiction
  | unmappable => contradiction
  | agreed id node span resolved shown same => exact Context.isSome_spanToBytes_single shown
  | passedOn id node span resolved shown different => exact Context.isSome_spanToBytes_single shown

end SelectionState

namespace Session

/-- What a text selection was set by. -/
inductive Origin where
  /-- It is the one the session opened with. -/
  | opened
  /-- A view reported it, or a node that shows as it. -/
  | reported (event : Event)
  /-- It was fitted to a new parse, from what it was before. -/
  | fitted (before : TextSelection)
deriving DecidableEq, Repr

/-- What the text selection was set by last, once an operation was performed. -/
def origin (session : Session) (before : Origin) : Operation → Origin
  | .handle event =>
    if (session.handle event).2.outcome.isDropped then before else .reported event
  | .setText parse text =>
    if (session.setText parse text).2.isOk then .fitted session.selection.text else before
  | .applyParse outcome =>
    if (session.applyParse outcome).2.isOk then .fitted session.selection.text else before
  | _ => before

/-- What the text selection was set by last, after operations in order. -/
def originAfter (session : Session) (before : Origin) : List Operation → Origin
  | [] => before
  | operation :: operations =>
    (session.perform operation).session.originAfter (session.origin before operation) operations

/-- What is known of a text selection by what it was set by. -/
def Carries (session : Session) : Origin → Prop
  | .opened => session.selection.text = .empty
  | .reported (.text selection) =>
    session.selection.text = selection ∧ session.context.Begins selection
  | .reported (.tree _) =>
    ∀ span ∈ session.selection.text.ranges,
      (Text.spanToBytes session.encoding session.snapshot.source span).isSome
  | .fitted before =>
    let limit := session.encoding.textLength session.snapshot.source
    session.selection.text = before.clamp limit ∧
      ∀ span ∈ session.selection.text.ranges, span.Ordered ∧ span.stop ≤ limit

theorem outcome_deliver (step : Transition) (session : Session) :
    (session.deliver step).2.outcome = step.outcome := by
  unfold deliver
  cases step.emitted <;> rfl

/-- Only the text selection, the encoding and the parsed text matter. -/
theorem Carries.of_eq {session next : Session} {origin : Origin} (carries : session.Carries origin)
    (text : next.selection.text = session.selection.text)
    (encoding : next.encoding = session.encoding)
    (snapshot : next.snapshot = session.snapshot) : next.Carries origin := by
  rcases origin with _ | event | before
  · exact text.trans carries
  · cases event with
    | text selection =>
      refine ⟨text.trans carries.1, ?_⟩
      simpa only [Context.Begins, context, encoding, snapshot] using carries.2
    | tree selection => simpa only [Carries, text, encoding, snapshot] using carries
  · simpa only [Carries, text, encoding, snapshot] using carries

/-- A report is dropped, and changes nothing, exactly if its selection does not begin at
a character boundary. Otherwise its selection is taken over. -/
theorem handle_text {session : Session} {selection : TextSelection}
    (idle : session.selection.phase = .idle) (normal : selection.Normal) :
    (session.context.Begins selection →
      (session.handle (.text selection)).2.outcome.isDropped = false ∧
        (session.handle (.text selection)).1.selection.text = selection) ∧
    (¬session.context.Begins selection →
      session.handle (.text selection) = (session, { outcome := .dropped .unmappable })) := by
  rw [← Context.admits_iff_begins normal]
  constructor
  · intro admitted
    rw [Session.handle, outcome_deliver, text_deliver]
    exact (SelectionState.transition_of_admits idle admitted).symm
  · exact handle_of_not_admits idle

/-- A reported event sets the text selection unless it is dropped. -/
theorem Carries.handle {session : Session} {origin : Origin} (carries : session.Carries origin)
    (idle : session.selection.phase = .idle) {event : Event}
    (normalised : (Operation.handle event).Normalised) :
    (session.handle event).1.Carries (session.origin origin (.handle event)) := by
  have frame := deliver_frame (session.selection.transition session.context event) session
  rw [Session.origin]
  split
  · rename_i dropped
    rw [Session.handle, outcome_deliver] at dropped
    apply carries.of_eq
    · rw [Session.handle, text_deliver, SelectionState.state_transition_of_isDropped dropped]
    · rw [Session.handle, frame]
    · rw [Session.handle, frame]
  · rename_i taken
    rw [Bool.not_eq_true] at taken
    have context : (session.handle event).1.context = session.context := by
      rw [Session.handle, frame]
      rfl
    cases event with
    | text selection =>
      have settled := handle_text idle (Operation.normal_of_normalised normalised)
      by_cases begins : session.context.Begins selection
      · exact ⟨(settled.1 begins).2, context.symm ▸ begins⟩
      · rw [settled.2 begins] at taken
        contradiction
    | tree selection =>
      rw [Session.handle, outcome_deliver] at taken
      have mapped := SelectionState.isSome_spanToBytes_transition_tree idle taken
      rw [← text_deliver _ session] at mapped
      intro span member
      rw [← mapped span member]
      rw [Session.handle, frame]
      rfl

/-- A new parse cuts the text selection down to its text. -/
theorem carries_install (session : Session) (text : String) (tree : Tree) :
    (session.install text tree).1.Carries (.fitted session.selection.text) := by
  have context := session.context_install text tree
  have encoding : (session.install text tree).1.encoding = session.encoding :=
    congrArg Context.encoding context
  have source : (session.install text tree).1.snapshot.source = text :=
    congrArg (fun context => context.snapshot.source) context
  have cut : (session.install text tree).1.selection.text =
      session.selection.text.clamp (session.encoding.textLength text) := by
    rw [selection_install]
  simp only [Carries, encoding, source, cut, true_and]
  intro span member
  exact ⟨(TextSelection.normal_ofSpans _).ordered span member,
    TextSelection.stop_le_of_mem_clamp member⟩

theorem Carries.perform {session : Session} {origin : Origin} (carries : session.Carries origin)
    (idle : session.selection.phase = .idle) {operation : Operation}
    (normalised : operation.Normalised) :
    (session.perform operation).session.Carries (session.origin origin operation) := by
  cases operation with
  | subscribe observer => exact carries.of_eq rfl rfl rfl
  | setPolicy policy => exact carries.of_eq rfl rfl rfl
  | handle event => exact carries.handle idle normalised
  | setText parse text =>
    change (session.setText parse text).1.Carries _
    rw [Session.origin]
    cases parsed : parse text with
    | error fault =>
      rw [setText_of_error parsed]
      exact carries
    | ok tree =>
      rw [setText_of_ok parsed]
      exact carries_install _ text tree
  | editText text => exact carries.of_eq rfl rfl rfl
  | applyParse outcome =>
    change (session.applyParse outcome).1.Carries _
    rw [Session.origin]
    by_cases current : outcome.revision = session.document.revision
    · rw [applyParse_of_current current]
      exact carries_install session outcome.text outcome.tree
    · rw [applyParse_of_stale current]
      exact carries

theorem Carries.run {session : Session} {origin : Origin} (carries : session.Carries origin)
    (coherent : session.Coherent) {operations : List Operation}
    (normalised : ∀ operation ∈ operations, operation.Normalised) :
    (session.run operations).Carries (session.originAfter origin operations) := by
  induction operations generalizing session origin with
  | nil => exact carries
  | cons operation operations ih =>
    obtain ⟨first, rest⟩ := List.forall_mem_cons.mp normalised
    exact ih (carries.perform coherent.idle first) (coherent.perform operation) rest

/-- After any operations, a text selection that a view reported last begins at a
character boundary of the parsed text, one that shows a node converts to bytes as a
whole, and one that was fitted to a parse lies inside the text. A selection that is
reported next is dropped and changes nothing if it begins elsewhere, and is taken over
as it is if not. -/
theorem run_carries (parse : SourceParser) (document : Document) (generation : Generation)
    (encoding : Encoding) (policy : Policy) (operations : List Operation) {opened session : Session}
    (started : Session.start parse document generation = .ok opened)
    (ran : (opened.configure encoding policy).run operations = session)
    (normalised : ∀ operation ∈ operations, operation.Normalised) :
    session.Carries ((opened.configure encoding policy).originAfter .opened operations) ∧
      ∀ selection, (Operation.handle (.text selection)).Normalised →
        (session.context.Begins selection →
          (session.handle (.text selection)).2.outcome.isDropped = false ∧
            (session.handle (.text selection)).1.selection.text = selection) ∧
        (¬session.context.Begins selection →
          session.handle (.text selection) =
            (session, { outcome := .dropped .unmappable })) := by
  have coherent := coherent_start started encoding policy
  have carries : (opened.configure encoding policy).Carries .opened := by
    obtain ⟨tree, -, rfl⟩ := exists_of_start started
    rfl
  subst ran
  refine ⟨carries.run coherent normalised, ?_⟩
  intro selection reported
  exact handle_text (coherent.run operations).idle (Operation.normal_of_normalised reported)

/-- Two letters are parsed. A selection that runs backwards, from far behind the text to
the second letter, is taken over, and a caret behind the text is dropped, every time it is
reported. -/
theorem run_carries_past_the_end :
    let file := Tree.ofLabels ⟨{ kind := "file" }, ⟨0, 0, 2, 0⟩⟩ .nil 2
    let opened : Session :=
      { document := { text := "ab" }
        snapshot := Snapshot.ofTree ⟨1⟩ "ab" file
        lines := ⟨"ab"⟩
        nextGeneration := ⟨2⟩ }
    let selection := TextSelection.ofSpans [⟨9, 1⟩]
    let session := opened.run [.handle (.text selection), .handle (.text (.caret 5))]
    Session.start (fun _ => .ok file) { text := "ab" } ⟨1⟩ = .ok opened ∧
      selection = .single ⟨1, 9⟩ ∧ session.selection.text = selection ∧
      session.context.Begins selection ∧
      session.handle (.text (.caret 5)) = (session, { outcome := .dropped .unmappable }) := by
  intro file opened selection session
  have started : Session.start (fun _ => .ok file) { text := "ab" } ⟨1⟩ = .ok opened := rfl
  have normalised : ∀ operation ∈
      [Operation.handle (.text selection), .handle (.text (.caret 5))], operation.Normalised := by
    simp only [List.forall_mem_cons]
    exact ⟨.inl ⟨_, rfl⟩, .inr ⟨5, rfl⟩, by simp⟩
  obtain ⟨carries, reports⟩ :=
    run_carries (fun _ => .ok file) { text := "ab" } ⟨1⟩ .utf16 default _ started rfl normalised
  have origin : opened.originAfter .opened [.handle (.text selection), .handle (.text (.caret 5))] =
      .reported (.text selection) := by
    decide +kernel
  have carried : session.Carries (.reported (.text selection)) := origin ▸ carries
  refine ⟨started, by decide +kernel, carried.1, carried.2, ?_⟩
  apply (reports (.caret 5) (.inr ⟨5, rfl⟩)).2
  intro begins
  have inside := begins ⟨5, 5⟩ rfl
  revert inside
  decide +kernel

/-- Two letters are parsed, and a selection of the first is reported together with one far
behind the text. Under either policy both are taken over, and the second does not convert
to bytes. Nor does a caret between the letters once they were replaced by a character that
takes two units. -/
theorem text_not_convertible :
    let file := Tree.ofLabels ⟨{ kind := "file" }, ⟨0, 0, 2, 0⟩⟩ .nil 2
    let face := Tree.ofLabels ⟨{ kind := "file" }, ⟨0, 0, 4, 0⟩⟩ .nil 4
    let opened : Session :=
      { document := { text := "ab" }
        snapshot := Snapshot.ofTree ⟨1⟩ "ab" file
        lines := ⟨"ab"⟩
        nextGeneration := ⟨2⟩ }
    let converts (session : Session) := ∀ span ∈ session.selection.text.ranges,
      (Text.spanToBytes session.encoding session.snapshot.source span).isSome
    let selection := TextSelection.ofSpans [⟨0, 1⟩, ⟨5, 9⟩]
    let replaced := (opened.handle (.text (.caret 1))).1.setText (fun _ => .ok face) "😀"
    file.defect? = none ∧ face.defect? = none ∧
      Session.start (fun _ => .ok file) { text := "ab" } ⟨1⟩ = .ok opened ∧
      (∀ multiRange,
        let session := opened.configure .utf16 { multiRange := multiRange }
        let reported := session.handle (.text selection)
        reported.2.outcome = .propagated ∧
          reported.1.snapshot.source = reported.1.document.text ∧ ¬converts reported.1) ∧
      replaced.2.isOk ∧ replaced.1.snapshot.source = replaced.1.document.text ∧
        ¬converts replaced.1 := by
  intro file face opened converts selection replaced
  have normal : TextSelection.Normal ⟨[⟨0, 1⟩, ⟨5, 9⟩]⟩ :=
    ⟨by decide, .cons_cons ⟨by decide, by decide⟩ (.singleton _)⟩
  have normalised : selection = ⟨[⟨0, 1⟩, ⟨5, 9⟩]⟩ := normal.ofSpans_eq_self
  refine ⟨by decide +kernel, by decide +kernel, rfl, ?_, by decide +kernel⟩
  intro multiRange
  rw [normalised]
  cases multiRange with
  | first => decide +kernel
  | enclosing => decide +kernel

end Session

end TreeLens
