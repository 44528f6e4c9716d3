import TreeLens.Proofs.Session.Coherence

/-!
# Parses of outdated texts

A parse that was made in the background can come back at any time: late, out of
turn, or more than once. It is compared with the document by its revision only.
That is enough. Every change of the text moves the revision on, so along a run a
revision stands for one text, and a parse of the current revision is a parse of
the current text.

So whenever a parse is installed it is that of the text the document has, the
revisions of installed parses never go back, and at any moment the parsed text
is the one the document had at the revision that was installed last.
-/

namespace TreeLens

/-- A document is as it was, or of a later revision. -/
def Document.Since (earlier later : Document) : Prop :=
  later = earlier ∨ earlier.revision.number < later.revision.number

namespace Document

variable {first second third : Document}

theorem Since.refl (document : Document) : Since document document :=
  Or.inl rfl

theorem Since.trans (low : Since first second) (high : Since second third) :
    Since first third := by
  rcases low with rfl | low
  · exact high
  · rcases high with rfl | high
    · exact Or.inr low
    · exact Or.inr (Nat.lt_trans low high)

theorem Since.revision_le (since : Since first second) :
    first.revision.number ≤ second.revision.number := by
  rcases since with rfl | later
  · exact Nat.le_refl _
  · exact Nat.le_of_lt later

/-- Without a later revision there was no change. -/
theorem Since.eq (since : Since first second) (same : first.revision = second.revision) :
    first = second := by
  rcases since with rfl | later
  · rfl
  · rw [same] at later
    exact absurd later (Nat.lt_irrefl _)

theorem since_update (document : Document) (text : String) :
    Since document (document.update text) :=
  Or.inr (Nat.lt_succ_self _)

end Document

namespace Session

/-- A session whose parse is that of the text of its document. -/
structure Fresh (parse : SourceParser) (session : Session) : Prop where
  source : session.snapshot.source = session.document.text
  parsed : parse session.document.text = .ok session.snapshot.tree

/-- The revision an operation installs a parse of, if it succeeds in installing
one. -/
def installed? (session : Session) (operation : Operation) : Option Revision :=
  match operation, (session.perform operation).answer with
  | .setText _ _, some (.ok _) => some session.document.revision.next
  | .applyParse outcome, some (.ok _) => some outcome.revision
  | _, _ => none

/-! ## Single steps -/

theorem since_perform (session : Session) (operation : Operation) :
    session.document.Since (session.perform operation).session.document := by
  rw [document_perform]
  cases operation.newText? with
  | none => exact .refl _
  | some text => exact session.document.since_update text

theorem snapshot_install (session : Session) (text : String) (tree : Tree) :
    (session.install text tree).1.snapshot =
      Snapshot.ofTree session.nextGeneration text tree := by
  rw [install, deliver_frame]

/-- What an operation can do to the parse: keep it, or install one in one of two
ways. -/
inductive Refreshes (session : Session) : Operation → Option Revision → Session → Prop where
  | kept (operation : Operation) (next : Session) (same : next.snapshot = session.snapshot) :
    Refreshes session operation none next
  | reparsed (parser : SourceParser) (text : String) (tree : Tree) (next : Session)
    (parsed : parser text = .ok tree) (document : next.document = session.document.update text)
    (snapshot : next.snapshot = Snapshot.ofTree session.nextGeneration text tree) :
    Refreshes session (.setText parser text) (some session.document.revision.next) next
  | applied (outcome : ParseOutcome) (next : Session)
    (current : outcome.revision = session.document.revision)
    (document : next.document = session.document)
    (snapshot : next.snapshot =
      Snapshot.ofTree session.nextGeneration outcome.text outcome.tree) :
    Refreshes session (.applyParse outcome) (some outcome.revision) next

/-- An operation does one of the listed things. -/
theorem refreshes_perform (session : Session) (operation : Operation) :
    session.Refreshes operation (session.installed? operation)
      (session.perform operation).session := by
  cases operation with
  | subscribe observer => exact .kept _ _ rfl
  | setPolicy policy => exact .kept _ _ rfl
  | handle event =>
    apply Refreshes.kept
    change (session.deliver _).1.snapshot = session.snapshot
    rw [deliver_frame]
  | setText parser text =>
    unfold installed?
    rw [perform, Performed.answered]
    cases parsed : parser text with
    | error fault =>
      rw [setText_of_error parsed]
      exact .kept _ _ rfl
    | ok tree =>
      rw [setText_of_ok parsed]
      exact .reparsed parser text tree _ parsed (document_install _ text tree)
        (snapshot_install _ text tree)
  | editText text => exact .kept _ _ rfl
  | applyParse outcome =>
    unfold installed?
    rw [perform, Performed.answered]
    by_cases current : outcome.revision = session.document.revision
    · rw [applyParse_of_current current]
      exact .applied outcome _ current (document_install session _ _)
        (snapshot_install session _ _)
    · rw [applyParse_of_stale current]
      exact .kept _ _ rfl

/-- A parse is installed for the revision the document then has. -/
theorem Refreshes.revision_eq {session next : Session} {operation : Operation}
    {revision : Revision} (step : session.Refreshes operation (some revision) next) :
    next.document.revision = revision := by
  cases step with
  | reparsed parser text tree _ parsed document => rw [document, Document.update]
  | applied outcome _ current document => rw [document, current]

/-- Without an installation the parse is kept. -/
theorem Refreshes.snapshot_eq {session next : Session} {operation : Operation}
    (step : session.Refreshes operation none next) : next.snapshot = session.snapshot := by
  cases step with
  | kept _ _ same => exact same

/-! ## Runs -/

/-- The session after the first `count` operations. -/
def after (session : Session) (operations : List Operation) (count : Nat) : Session :=
  session.run (operations.take count)

/-- The revisions whose parses a run installs, in order. -/
def installs (session : Session) : List Operation → List Revision
  | [] => []
  | operation :: operations =>
    (session.installed? operation).toList ++
      (session.perform operation).session.installs operations

/-- The revision whose parse was installed last among the first `count`
operations. Before any other, that is the revision the session was opened on. -/
def lastInstalled (session : Session) (operations : List Operation) (count : Nat) : Revision :=
  (session.installs (operations.take count)).getLastD session.document.revision

/-- A run is given honest parses: a parser that answers answers as `parse` does,
and an outcome is the parse of a text that the document had at some moment
before, under the revision it had at that moment. -/
def Honest (parse : SourceParser) (session : Session) (operations : List Operation) : Prop :=
  ∀ (count : Nat) (operation : Operation), operations[count]? = some operation →
    match operation with
    | .setText parser text => ∀ tree, parser text = .ok tree → parse text = .ok tree
    | .applyParse outcome =>
      parse outcome.text = .ok outcome.tree ∧
        ∃ earlier ≤ count, (session.after operations earlier).document.revision = outcome.revision ∧
          (session.after operations earlier).document.text = outcome.text
    | _ => True

theorem run_append (session : Session) (first second : List Operation) :
    session.run (first ++ second) = (session.run first).run second :=
  List.foldl_append

theorem installs_append (session : Session) (first second : List Operation) :
    session.installs (first ++ second) =
      session.installs first ++ (session.run first).installs second := by
  induction first generalizing session with
  | nil => rfl
  | cons operation first ih =>
    rw [List.cons_append, installs, installs, ih, run_cons, List.append_assoc]

theorem after_succ {session : Session} {operations : List Operation} {count : Nat}
    {operation : Operation} (found : operations[count]? = some operation) :
    session.after operations (count + 1) =
      ((session.after operations count).perform operation).session := by
  rw [after, List.take_add_one, found, run_append]
  rfl

theorem after_succ_of_none {session : Session} {operations : List Operation} {count : Nat}
    (past : operations[count]? = none) :
    session.after operations (count + 1) = session.after operations count := by
  rw [after, List.take_add_one, past, Option.toList_none, List.append_nil]
  rfl

theorem lastInstalled_succ {session : Session} {operations : List Operation} {count : Nat}
    {operation : Operation} (found : operations[count]? = some operation) :
    session.lastInstalled operations (count + 1) =
      ((session.after operations count).installed? operation).getD
        (session.lastInstalled operations count) := by
  have appended : session.installs (operations.take (count + 1)) =
      session.installs (operations.take count) ++
        ((session.after operations count).installed? operation).toList := by
    rw [List.take_add_one, found, installs_append, Option.toList_some, installs, installs,
      List.append_nil]
    rfl
  rw [lastInstalled, appended, lastInstalled]
  cases (session.after operations count).installed? operation <;> simp

theorem lastInstalled_succ_of_none {session : Session} {operations : List Operation}
    {count : Nat} (past : operations[count]? = none) :
    session.lastInstalled operations (count + 1) = session.lastInstalled operations count := by
  rw [lastInstalled, List.take_add_one, past, Option.toList_none, List.append_nil]
  rfl

/-- Documents along a run are as they were or of a later revision. -/
theorem since_after (session : Session) (operations : List Operation) {earlier later : Nat}
    (ordered : earlier ≤ later) :
    (session.after operations earlier).document.Since
      (session.after operations later).document := by
  induction ordered with
  | refl => exact .refl _
  | @step later _ ih =>
    cases found : operations[later]? with
    | none =>
      rw [after_succ_of_none found]
      exact ih
    | some operation =>
      rw [after_succ found]
      exact ih.trans (since_perform _ operation)

/-- Along a run a revision stands for one document. -/
theorem document_eq_of_revision_eq (session : Session) (operations : List Operation)
    {first second : Nat}
    (same : (session.after operations first).document.revision =
      (session.after operations second).document.revision) :
    (session.after operations first).document = (session.after operations second).document := by
  rcases Nat.le_total first second with ordered | ordered
  · exact (session.since_after operations ordered).eq same
  · exact ((session.since_after operations ordered).eq same.symm).symm

/-- A parse that was just installed is that of the text of the document, and its
revision is that of the document. -/
theorem fresh_of_installed? {parse : SourceParser} {session : Session}
    {operations : List Operation} (honest : session.Honest parse operations) {count : Nat}
    {operation : Operation} {revision : Revision} (found : operations[count]? = some operation)
    (installed : (session.after operations count).installed? operation = some revision) :
    (session.after operations (count + 1)).Fresh parse ∧
      (session.after operations (count + 1)).document.revision = revision := by
  have given := honest count operation found
  have step := (session.after operations count).refreshes_perform operation
  rw [installed, ← after_succ found] at step
  refine ⟨?_, step.revision_eq⟩
  generalize session.after operations (count + 1) = next at step ⊢
  cases step with
  | reparsed parser text tree _ parsed document snapshot =>
    constructor
    · rw [snapshot, document]
      rfl
    · rw [snapshot, document]
      exact given tree parsed
  | applied outcome _ current document snapshot =>
    -- The text was the document's at this revision, which stands for one text.
    obtain ⟨parsed, earlier, -, sameRevision, sameText⟩ := given
    have sameDocument := session.document_eq_of_revision_eq operations
      (sameRevision.trans current)
    rw [sameDocument, ← document] at sameText
    constructor
    · rw [snapshot, sameText]
      rfl
    · rw [snapshot, sameText]
      exact parsed

/-- At any moment the parsed text is one the document had, at the revision that
was installed last. -/
theorem exists_source_after {parse : SourceParser} {session : Session}
    {operations : List Operation} (opened : session.Fresh parse)
    (honest : session.Honest parse operations) (count : Nat) :
    ∃ earlier ≤ count,
      (session.after operations earlier).document.revision =
        session.lastInstalled operations count ∧
      (session.after operations earlier).document.text =
        (session.after operations count).snapshot.source ∧
      parse (session.after operations count).snapshot.source =
        .ok (session.after operations count).snapshot.tree := by
  induction count with
  | zero =>
    refine ⟨0, Nat.le_refl 0, rfl, opened.source.symm, ?_⟩
    change parse session.snapshot.source = .ok session.snapshot.tree
    rw [opened.source]
    exact opened.parsed
  | succ count ih =>
    obtain ⟨earlier, before, revision, text, parsed⟩ := ih
    cases found : operations[count]? with
    | none =>
      rw [after_succ_of_none found, lastInstalled_succ_of_none found]
      exact ⟨earlier, Nat.le_succ_of_le before, revision, text, parsed⟩
    | some operation =>
      rw [lastInstalled_succ found]
      cases installed : (session.after operations count).installed? operation with
      | none =>
        have step := (session.after operations count).refreshes_perform operation
        rw [installed, ← after_succ found] at step
        rw [step.snapshot_eq]
        exact ⟨earlier, Nat.le_succ_of_le before, revision, text, parsed⟩
      | some installedRevision =>
        obtain ⟨fresh, sameRevision⟩ := fresh_of_installed? honest found installed
        refine ⟨count + 1, Nat.le_refl _, sameRevision, fresh.source.symm, ?_⟩
        rw [fresh.source]
        exact fresh.parsed

/-- A run installs no parse of a revision before that of the document. -/
theorem revision_le_of_mem_installs {session : Session} {operations : List Operation}
    {revision : Revision} (member : revision ∈ session.installs operations) :
    session.document.revision.number ≤ revision.number := by
  induction operations generalizing session with
  | nil => contradiction
  | cons operation operations ih =>
    have since := (session.since_perform operation).revision_le
    rw [installs, List.mem_append, Option.mem_toList] at member
    rcases member with installed | later
    · have step := session.refreshes_perform operation
      rw [Option.mem_def.mp installed] at step
      rw [← step.revision_eq]
      exact since
    · exact Nat.le_trans since (ih later)

/-- The revisions of installed parses never go back. -/
theorem pairwise_installs (session : Session) (operations : List Operation) :
    (session.document.revision :: session.installs operations).Pairwise
      fun earlier later => earlier.number ≤ later.number := by
  induction operations generalizing session with
  | nil => exact List.pairwise_singleton _ _
  | cons operation operations ih =>
    apply List.Pairwise.cons
    · intro revision member
      exact revision_le_of_mem_installs member
    · have rest := ih (session.perform operation).session
      rw [installs]
      cases installed : session.installed? operation with
      | none => exact rest.tail
      | some revision =>
        have step := session.refreshes_perform operation
        rw [installed] at step
        rw [step.revision_eq] at rest
        exact rest

/-- A session that was just opened has the parse of its document. -/
theorem fresh_start {parse : SourceParser} {document : Document} {generation : Generation}
    {opened : Session} (started : Session.start parse document generation = .ok opened)
    (encoding : Encoding) (policy : Policy) : (opened.configure encoding policy).Fresh parse := by
  obtain ⟨tree, parsed, rfl⟩ := exists_of_start started
  exact ⟨rfl, parsed⟩

/-- In a run that is given honest parses, a parse that was just installed is that
of the text of the document; the revisions of installed parses never go back; and
at any moment the parse is that of the text which the document had, whenever it
had the revision installed last. -/
theorem run_installs_fresh (parse : SourceParser) (document : Document) (generation : Generation)
    (encoding : Encoding) (policy : Policy) (operations : List Operation)
    {opened session : Session}
    (started : Session.start parse document generation = .ok opened)
    (configured : opened.configure encoding policy = session)
    (honest : session.Honest parse operations) :
    (∀ count operation revision, operations[count]? = some operation →
        (session.after operations count).installed? operation = some revision →
        (session.after operations (count + 1)).Fresh parse ∧
          (session.after operations (count + 1)).document.revision = revision) ∧
      (document.revision :: session.installs operations).Pairwise
        (fun earlier later => earlier.number ≤ later.number) ∧
      ∀ count,
        parse (session.after operations count).snapshot.source =
          .ok (session.after operations count).snapshot.tree ∧
        (∃ earlier ≤ count, (session.after operations earlier).document.revision =
          session.lastInstalled operations count) ∧
        ∀ earlier ≤ count, (session.after operations earlier).document.revision =
            session.lastInstalled operations count →
          (session.after operations earlier).document.text =
            (session.after operations count).snapshot.source := by
  have fresh : session.Fresh parse := configured ▸ fresh_start started encoding policy
  have openedOn : session.document = document := by
    obtain ⟨tree, -, rfl⟩ := exists_of_start started
    rw [← configured]
    rfl
  refine ⟨?_, ?_, ?_⟩
  · intro count operation revision found installed
    exact fresh_of_installed? honest found installed
  · rw [← openedOn]
    exact session.pairwise_installs operations
  · intro count
    obtain ⟨moment, before, revision, text, parsed⟩ := exists_source_after fresh honest count
    refine ⟨parsed, ⟨moment, before, revision⟩, ?_⟩
    intro earlier _ sameRevision
    rw [← text, session.document_eq_of_revision_eq operations (sameRevision.trans revision.symm)]

/-- The parse of the first of two edits comes late and is refused, that of the
second is installed, and once more when it comes again. -/
theorem run_installs_fresh_of_late_outcomes :
    let plain : String → Tree := fun text =>
      Tree.ofLabels ⟨{ kind := "file" }, ⟨0, 0, text.utf8ByteSize, 0⟩⟩ .nil text.utf8ByteSize
    let parse : SourceParser := fun text => .ok (plain text)
    let operations : List Operation := [.editText "a", .editText "b",
      .applyParse ⟨⟨1⟩, "a", plain "a"⟩, .applyParse ⟨⟨2⟩, "b", plain "b"⟩,
      .applyParse ⟨⟨2⟩, "b", plain "b"⟩]
    let session : Session :=
      { document := { text := "" }
        snapshot := Snapshot.ofTree ⟨1⟩ "" (plain "")
        lines := ⟨""⟩
        nextGeneration := ⟨2⟩ }
    Session.start parse { text := "" } ⟨1⟩ = .ok session ∧ session.Honest parse operations ∧
      session.installs operations = [⟨2⟩, ⟨2⟩] ∧
      (session.after operations 3).snapshot.source = "" ∧
      (session.after operations 4).Fresh parse := by
  intro plain parse operations session
  have honest : session.Honest parse operations := by
    intro count operation found
    match count, found with
    | 0, found | 1, found =>
      obtain rfl := Option.some.inj found
      trivial
    | 2, found =>
      obtain rfl := Option.some.inj found
      exact ⟨rfl, 1, by decide, rfl, rfl⟩
    | 3, found | 4, found =>
      obtain rfl := Option.some.inj found
      exact ⟨rfl, 2, by decide, rfl, rfl⟩
    | _ + 5, found => contradiction
  have started : Session.start parse { text := "" } ⟨1⟩ = .ok session := rfl
  have configured : session.configure default default = session := rfl
  obtain ⟨installed, -, -⟩ := run_installs_fresh parse { text := "" } ⟨1⟩ default default
    operations started configured honest
  exact ⟨started, honest, by decide +kernel, rfl, (installed 3 _ ⟨2⟩ rfl rfl).1⟩

end Session

end TreeLens
