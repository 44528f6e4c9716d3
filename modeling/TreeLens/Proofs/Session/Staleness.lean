import TreeLens.Proofs.Session.Freshness

/-!
# Names that are out of date

Whoever names nodes draws a generation first: snapshots and links that are made on
their own, sessions that open, and sessions that install a parse. All of them draw
from one counter, so the generation of whatever was made last is larger than those
of everything made before, and names of different makers differ although they reuse
the same positions.

A snapshot therefore refuses the names of all others, and a session that has
installed a parse drops the tree events that carry an earlier name, whatever happened
in between and in whichever session.
-/

namespace TreeLens

/-- The lineage of a tree, with a generation of its own. -/
structure Links where
  lineage : Lineage
  generation : Generation

namespace Links

/-- The links of a tree in a given generation. -/
def ofTree (generation : Generation) (tree : Tree) : Links :=
  ⟨Lineage.ofTree tree, generation⟩

/-- The name the links give to a node. -/
def id (links : Links) (node : Node) : NodeId :=
  ⟨links.generation, node.index⟩

/-- The name of the parent of a named node. -/
def parentId? (links : Links) (id : NodeId) : Option NodeId :=
  if id.generation = links.generation then
    (links.lineage.parent? id.index).map (⟨links.generation, ·⟩)
  else
    none

end Links

/-- Whatever names nodes. -/
inductive Issuer where
  | snapshot (snapshot : Snapshot)
  | links (links : Links)

namespace Issuer

def generation : Issuer → Generation
  | snapshot made => made.generation
  | links made => made.generation

/-- The name the issuer gives to a node. -/
def id : Issuer → Node → NodeId
  | snapshot made => made.id
  | links made => made.id

/-- The name of the parent of a named node. -/
def parentId? : Issuer → NodeId → Option NodeId
  | snapshot made => made.parentId?
  | links made => made.parentId?

theorem generation_id (issuer : Issuer) (node : Node) :
    (issuer.id node).generation = issuer.generation := by
  cases issuer <;> rfl

/-- An issuer knows no parent for a name of another generation. -/
theorem parentId?_of_stale {issuer : Issuer} {id : NodeId}
    (stale : id.generation ≠ issuer.generation) : issuer.parentId? id = none := by
  cases issuer with
  | snapshot made => exact if_neg stale
  | links made => exact if_neg stale

end Issuer

namespace Snapshot

theorem resolve_id {snapshot : Snapshot} {node : Node} (member : node ∈ snapshot.tree.nodes) :
    snapshot.resolve (snapshot.id node) = .ok node := by
  have found : snapshot.tree.node? (snapshot.id node).index = some node :=
    Tree.mem_nodes_iff.mp member
  have current : (snapshot.id node).generation = snapshot.generation := rfl
  rw [resolve, if_pos current, found]

theorem resolve_of_stale {snapshot : Snapshot} {id : NodeId}
    (stale : id.generation ≠ snapshot.generation) :
    snapshot.resolve id = .error (.staleNode id.generation snapshot.generation) :=
  if_neg stale

end Snapshot

/-! ## Sessions -/

namespace Session

/-- A session whose next parse will start a given generation. -/
def drawing (counter : Generation) (session : Session) : Session :=
  { session with nextGeneration := counter }

theorem Coherent.drawing {session : Session} (coherent : session.Coherent)
    (counter : Generation) : (session.drawing counter).Coherent :=
  ⟨coherent.idle, coherent.names, coherent.lines⟩

/-- A session counts one generation on for each parse it installs. -/
theorem nextGeneration_perform (session : Session) (operation : Operation) :
    (session.perform operation).session.nextGeneration =
      if (session.installed? operation).isSome then session.nextGeneration.next
      else session.nextGeneration := by
  unfold installed?
  cases operation with
  | subscribe observer => rfl
  | setPolicy policy => rfl
  | handle event =>
    change (session.deliver _).1.nextGeneration = _
    rw [deliver_frame]
    rfl
  | setText parse text =>
    rw [perform, Performed.answered]
    cases parsed : parse text with
    | error fault =>
      rw [setText_of_error parsed]
      rfl
    | ok tree =>
      rw [setText_of_ok parsed]
      change (install text tree _).1.nextGeneration = session.nextGeneration.next
      rw [install, deliver_frame]
  | editText text => rfl
  | applyParse outcome =>
    rw [perform, Performed.answered]
    by_cases current : outcome.revision = session.document.revision
    · rw [applyParse_of_current current]
      change (session.install _ _).1.nextGeneration = session.nextGeneration.next
      rw [install, deliver_frame]
    · rw [applyParse_of_stale current]
      rfl

/-- An installed parse starts the generation that is next. -/
theorem generation_of_installed? {session : Session} {operation : Operation} {revision : Revision}
    (installed : session.installed? operation = some revision) :
    (session.perform operation).session.snapshot.generation = session.nextGeneration := by
  have step := session.refreshes_perform operation
  rw [installed] at step
  cases step with
  | reparsed parser text tree _ parsed document snapshot =>
    rw [snapshot]
    rfl
  | applied outcome _ current document snapshot =>
    rw [snapshot]
    rfl

/-- Between two operations a tree event with a name of another generation is dropped,
and nobody hears of it. -/
theorem handle_of_stale {session : Session} {id : NodeId} (idle : session.selection.phase = .idle)
    (stale : id.generation ≠ session.snapshot.generation) :
    session.selection.transition session.context (.tree (some id)) =
        .drop session.selection .staleNode ∧
      session.handle (.tree (some id)) = (session, { outcome := .dropped .staleNode }) := by
  have unresolved : session.context.snapshot.resolve? id = none := by
    rw [Snapshot.resolve?, show session.context.snapshot = session.snapshot from rfl,
      Snapshot.resolve_of_stale stale]
    rfl
  have dropped : session.selection.transition session.context (.tree (some id)) =
      .drop session.selection .staleNode := by
    rw [SelectionState.transition_tree session.context (some id) idle, SelectionState.treeChanged,
      unresolved]
  refine ⟨dropped, ?_⟩
  rw [handle, dropped]
  rfl

end Session

/-! ## Workspaces -/

/-- Sessions side by side, and everything that was made to name nodes. -/
structure Workspace where
  /-- The generation that is drawn next. -/
  counter : Generation := ⟨1⟩
  /-- What has named nodes so far, in the order in which it was made. -/
  issuers : List Issuer := []
  sessions : List Session := []

namespace Workspace

/-- What can be done in a workspace. -/
inductive Action where
  /-- Make a snapshot outside all sessions. -/
  | take (source : String) (tree : Tree)
  /-- Link a tree anew. -/
  | link (tree : Tree)
  /-- Open a session. -/
  | start (parse : SourceParser) (document : Document) (encoding : Encoding) (policy : Policy)
  /-- Perform an operation on one of the sessions. -/
  | perform (number : Nat) (operation : Operation)

/-- A session, about to draw from the counter. -/
def session? (workspace : Workspace) (number : Nat) : Option Session :=
  workspace.sessions[number]?.map (Session.drawing workspace.counter)

/-- Do one thing. -/
def act (workspace : Workspace) : Action → Workspace
  | .take source tree =>
    { workspace with
      counter := workspace.counter.next
      issuers := workspace.issuers ++ [.snapshot (Snapshot.ofTree workspace.counter source tree)] }
  | .link tree =>
    { workspace with
      counter := workspace.counter.next
      issuers := workspace.issuers ++ [.links (Links.ofTree workspace.counter tree)] }
  | .start parse document encoding policy =>
    match Session.start parse document workspace.counter with
    | .error _ => workspace
    | .ok opened =>
      { counter := opened.nextGeneration
        issuers := workspace.issuers ++ [.snapshot opened.snapshot]
        sessions := workspace.sessions ++ [opened.configure encoding policy] }
  | .perform number operation =>
    match workspace.session? number with
    | none => workspace
    | some session =>
      let next := (session.perform operation).session
      { counter := next.nextGeneration
        issuers := workspace.issuers ++
          if (session.installed? operation).isSome then [.snapshot next.snapshot] else []
        sessions := workspace.sessions.set number next }

/-- Do things in order. -/
def run (workspace : Workspace) (actions : List Action) : Workspace :=
  actions.foldl act workspace

/-- The workspace once something more names nodes. -/
def issue (issuer : Issuer) (workspace : Workspace) : Workspace :=
  { workspace with
    counter := workspace.counter.next
    issuers := workspace.issuers ++ [issuer] }

/-- What an action can do to the names. -/
inductive Step (workspace : Workspace) : Workspace → Prop where
  | idle : Step workspace workspace
  | issued (issuer : Issuer) (drawn : issuer.generation = workspace.counter) :
    Step workspace (workspace.issue issuer)
  | opened (session : Session) (coherent : session.Coherent)
    (drawn : session.snapshot.generation = workspace.counter) :
    Step workspace
      { workspace.issue (.snapshot session.snapshot) with
        sessions := workspace.sessions ++ [session] }
  | kept (number : Nat) (session next : Session)
    (found : workspace.sessions[number]? = some session)
    (coherent : session.Coherent → next.Coherent) (same : next.snapshot = session.snapshot) :
    Step workspace { workspace with sessions := workspace.sessions.set number next }
  | installed (number : Nat) (session next : Session)
    (found : workspace.sessions[number]? = some session)
    (coherent : session.Coherent → next.Coherent)
    (drawn : next.snapshot.generation = workspace.counter) :
    Step workspace
      { workspace.issue (.snapshot next.snapshot) with
        sessions := workspace.sessions.set number next }

theorem session?_eq_some_iff {workspace : Workspace} {number : Nat} {session : Session} :
    workspace.session? number = some session ↔
      ∃ stored, workspace.sessions[number]? = some stored ∧
        stored.drawing workspace.counter = session :=
  Option.map_eq_some_iff

/-- Where a session performs an operation, it keeps its snapshot or installs one that
draws from the counter. -/
theorem step_perform (workspace : Workspace) (number : Nat) (operation : Operation) :
    Step workspace (workspace.act (.perform number operation)) := by
  rw [act]
  cases found : workspace.session? number with
  | none => exact .idle
  | some session =>
    obtain ⟨stored, inPlace, rfl⟩ := session?_eq_some_iff.mp found
    have coherent : stored.Coherent →
        ((stored.drawing workspace.counter).perform operation).session.Coherent :=
      fun coherent => (coherent.drawing workspace.counter).perform operation
    have counted := (stored.drawing workspace.counter).nextGeneration_perform operation
    have step := (stored.drawing workspace.counter).refreshes_perform operation
    dsimp only
    rw [counted]
    cases installed : (stored.drawing workspace.counter).installed? operation with
    | none =>
      rw [installed] at step
      simp only [Option.isSome_none, Bool.false_eq_true, if_false, List.append_nil]
      exact Step.kept number stored _ inPlace coherent step.snapshot_eq
    | some revision =>
      exact Step.installed number stored _ inPlace coherent
        (Session.generation_of_installed? installed)

/-- An action does one of the listed things. -/
theorem step_act (workspace : Workspace) (action : Action) :
    Step workspace (workspace.act action) := by
  cases action with
  | take source tree => exact .issued (.snapshot _) rfl
  | link tree => exact .issued (.links _) rfl
  | start parse document encoding policy =>
    rw [act]
    cases started : Session.start parse document workspace.counter with
    | error fault => exact .idle
    | ok opened =>
      have coherent := Session.coherent_start started encoding policy
      obtain ⟨tree, -, rfl⟩ := Session.exists_of_start started
      exact .opened _ coherent rfl
  | perform number operation => exact workspace.step_perform number operation

/-! ## What holds of every workspace -/

/-- Issuers have the generations from the first one on, in order, and a session has the
snapshot of one of them. -/
structure Sound (workspace : Workspace) : Prop where
  counter : workspace.counter.number = workspace.issuers.length + 1
  numbered : ∀ (place : Nat) (issuer : Issuer), workspace.issuers[place]? = some issuer →
    issuer.generation.number = place + 1
  coherent : ∀ session ∈ workspace.sessions, session.Coherent
  listed : ∀ session ∈ workspace.sessions, .snapshot session.snapshot ∈ workspace.issuers

theorem sound_empty : Sound {} := by
  constructor <;> simp

/-- Everything made so far has drawn before. -/
theorem Sound.generation_lt {workspace : Workspace} (sound : workspace.Sound) {issuer : Issuer}
    (member : issuer ∈ workspace.issuers) :
    issuer.generation.number < workspace.counter.number := by
  obtain ⟨place, found⟩ := List.mem_iff_getElem?.mp member
  have inside := (List.getElem?_eq_some_iff.mp found).1
  have number := sound.numbered place issuer found
  have counter := sound.counter
  omega

/-- Different issuers have different generations. -/
theorem Sound.generation_ne {workspace : Workspace} (sound : workspace.Sound) {place other : Nat}
    {issuer stranger : Issuer} (found : workspace.issuers[place]? = some issuer)
    (otherFound : workspace.issuers[other]? = some stranger) (different : place ≠ other) :
    stranger.generation ≠ issuer.generation := by
  intro same
  have number := sound.numbered place issuer found
  have otherNumber := sound.numbered other stranger otherFound
  rw [same] at otherNumber
  omega

/-- One more issuer keeps the numbering, whatever becomes of the sessions. -/
theorem Sound.issue {workspace : Workspace} (sound : workspace.Sound) {issuer : Issuer}
    (drawn : issuer.generation = workspace.counter) {sessions : List Session}
    (coherent : ∀ session ∈ sessions, session.Coherent)
    (listed : ∀ session ∈ sessions, .snapshot session.snapshot ∈ workspace.issuers ++ [issuer]) :
    Sound { workspace.issue issuer with sessions := sessions } where
  counter := by simp [Workspace.issue, Generation.next, sound.counter]
  numbered := by
    intro place other found
    rw [Workspace.issue, List.getElem?_append] at found
    split at found
    · exact sound.numbered place other found
    · obtain ⟨inside, rfl⟩ := List.getElem?_eq_some_iff.mp found
      have counter := sound.counter
      simp only [List.length_singleton] at inside
      simp only [List.getElem_singleton, drawn]
      omega
  coherent := coherent
  listed := listed

/-- What holds of all sessions and of one more holds where that one takes a place. -/
theorem forall_mem_set {holds : Session → Prop} {sessions : List Session} {number : Nat}
    {next : Session} (all : ∀ session ∈ sessions, holds session) (new : holds next) :
    ∀ session ∈ sessions.set number next, holds session := by
  intro session member
  rcases List.mem_or_eq_of_mem_set member with old | rfl
  · exact all session old
  · exact new

theorem Sound.step {workspace next : Workspace} (sound : workspace.Sound)
    (step : Step workspace next) : next.Sound := by
  have still : ∀ (issuer : Issuer), ∀ session ∈ workspace.sessions,
      .snapshot session.snapshot ∈ workspace.issuers ++ [issuer] :=
    fun issuer session member => List.mem_append_left _ (sound.listed session member)
  cases step with
  | idle => exact sound
  | issued issuer drawn => exact sound.issue drawn sound.coherent (still issuer)
  | opened session coherent drawn =>
    have started : (Issuer.snapshot session.snapshot).generation = workspace.counter := drawn
    apply sound.issue started
    · exact List.forall_mem_append.mpr ⟨sound.coherent, by simpa using coherent⟩
    · exact List.forall_mem_append.mpr ⟨still _, by simp⟩
  | kept number session next found coherent same =>
    have member := List.mem_of_getElem? found
    refine ⟨sound.counter, sound.numbered, ?_, ?_⟩
    · exact forall_mem_set sound.coherent (coherent (sound.coherent session member))
    · exact forall_mem_set sound.listed (same ▸ sound.listed session member)
  | installed number session next found coherent drawn =>
    have member := List.mem_of_getElem? found
    have started : (Issuer.snapshot next.snapshot).generation = workspace.counter := drawn
    apply sound.issue started
    · exact forall_mem_set sound.coherent (coherent (sound.coherent session member))
    · exact forall_mem_set (still _) (List.mem_append_right _ List.mem_cons_self)

theorem Sound.run {workspace : Workspace} (sound : workspace.Sound) (actions : List Action) :
    (workspace.run actions).Sound := by
  induction actions generalizing workspace with
  | nil => exact sound
  | cons action actions ih => exact ih (sound.step (workspace.step_act action))

/-- A session stays where it is and its generation never goes back. -/
theorem Sound.exists_session_step {workspace next : Workspace} (sound : workspace.Sound)
    (step : Step workspace next) {number : Nat} {session : Session}
    (found : workspace.sessions[number]? = some session) :
    ∃ later, next.sessions[number]? = some later ∧
      session.snapshot.generation.number ≤ later.snapshot.generation.number := by
  have inside := (List.getElem?_eq_some_iff.mp found).1
  cases step with
  | idle => exact ⟨session, found, Nat.le_refl _⟩
  | issued issuer drawn => exact ⟨session, found, Nat.le_refl _⟩
  | opened other coherent drawn =>
    exact ⟨session, (List.getElem?_append_left inside).trans found, Nat.le_refl _⟩
  | kept place stored changed inPlace coherent same =>
    by_cases here : place = number
    · subst here
      obtain rfl := Option.some.inj (found.symm.trans inPlace)
      exact ⟨changed, List.getElem?_set_self inside, by simp [same]⟩
    · exact ⟨session, (List.getElem?_set_ne here).trans found, Nat.le_refl _⟩
  | installed place stored changed inPlace coherent drawn =>
    by_cases here : place = number
    · subst here
      refine ⟨changed, List.getElem?_set_self inside, ?_⟩
      have earlier := sound.generation_lt (sound.listed session (List.mem_of_getElem? found))
      rw [drawn]
      exact Nat.le_of_lt earlier
    · exact ⟨session, (List.getElem?_set_ne here).trans found, Nat.le_refl _⟩

theorem Sound.exists_session_run {workspace : Workspace} (sound : workspace.Sound)
    (actions : List Action) {number : Nat} {session : Session}
    (found : workspace.sessions[number]? = some session) :
    ∃ later, (workspace.run actions).sessions[number]? = some later ∧
      session.snapshot.generation.number ≤ later.snapshot.generation.number := by
  induction actions generalizing workspace session with
  | nil => exact ⟨session, found, Nat.le_refl _⟩
  | cons action actions ih =>
    have step := workspace.step_act action
    obtain ⟨next, nextFound, nextLe⟩ := sound.exists_session_step step found
    obtain ⟨later, laterFound, laterLe⟩ := ih (sound.step step) nextFound
    exact ⟨later, laterFound, Nat.le_trans nextLe laterLe⟩

theorem run_append (workspace : Workspace) (before after : List Action) :
    workspace.run (before ++ after) = (workspace.run before).run after :=
  List.foldl_append

/-- A session that installs a parse has a generation that nothing had before. -/
theorem exists_session_of_installed? {workspace : Workspace} {number : Nat} {session : Session}
    {operation : Operation} (found : workspace.session? number = some session)
    (installed : (session.installed? operation).isSome) :
    ∃ next, (workspace.act (.perform number operation)).sessions[number]? = some next ∧
      next.snapshot.generation = workspace.counter := by
  obtain ⟨revision, installedEq⟩ := Option.isSome_iff_exists.mp installed
  refine ⟨(session.perform operation).session, ?_, ?_⟩
  · obtain ⟨stored, inPlace, -⟩ := session?_eq_some_iff.mp found
    rw [act, found]
    exact List.getElem?_set_self (List.getElem?_eq_some_iff.mp inPlace).1
  · obtain ⟨stored, -, rfl⟩ := session?_eq_some_iff.mp found
    exact Session.generation_of_installed? installedEq

/-- Whatever happens in a workspace, names of different issuers differ, and an issuer
knows no parent for the name of another one. A snapshot finds its own nodes under their
names and refuses the name of another issuer with both generations. Once a session has
installed a parse, at any time later, it drops tree events with names of everything that
was made before that parse, tells nobody and does not change. -/
theorem run_refuses_stale (actions : List Action) :
    let workspace := ({} : Workspace).run actions
    (∀ (place other : Nat) (issuer stranger : Issuer),
      workspace.issuers[place]? = some issuer → workspace.issuers[other]? = some stranger →
      place ≠ other → ∀ node foreign : Node,
        stranger.id foreign ≠ issuer.id node ∧ issuer.parentId? (stranger.id foreign) = none ∧
        ∀ snapshot, issuer = .snapshot snapshot →
          snapshot.resolve (stranger.id foreign) =
            .error (.staleNode stranger.generation snapshot.generation)) ∧
    (∀ snapshot, .snapshot snapshot ∈ workspace.issuers → ∀ node ∈ snapshot.tree.nodes,
      snapshot.resolve (snapshot.id node) = .ok node) ∧
    ∀ (before after : List Action) (number : Nat) (operation : Operation) (session : Session),
      actions = before ++ .perform number operation :: after →
      (({} : Workspace).run before).session? number = some session →
      (session.installed? operation).isSome →
      ∃ current, workspace.session? number = some current ∧
        .snapshot current.snapshot ∈ workspace.issuers ∧
        ∀ issuer ∈ (({} : Workspace).run before).issuers, ∀ node : Node,
          current.selection.transition current.context (.tree (some (issuer.id node))) =
              .drop current.selection .staleNode ∧
            current.handle (.tree (some (issuer.id node))) =
              (current, { outcome := .dropped .staleNode }) := by
  intro workspace
  have sound : workspace.Sound := sound_empty.run actions
  refine ⟨?_, ?_, ?_⟩
  · intro place other issuer stranger found otherFound different node foreign
    have apart := sound.generation_ne found otherFound different
    have stale : (stranger.id foreign).generation ≠ issuer.generation := by
      rwa [stranger.generation_id]
    refine ⟨?_, Issuer.parentId?_of_stale stale, ?_⟩
    · intro same
      rw [same, issuer.generation_id] at stale
      exact stale rfl
    · rintro snapshot rfl
      rw [Snapshot.resolve_of_stale stale, stranger.generation_id]
  · intro snapshot _ node member
    exact Snapshot.resolve_id member
  · rintro before after number operation session rfl found installed
    have soundBefore : (({} : Workspace).run before).Sound := sound_empty.run before
    obtain ⟨next, nextFound, drawn⟩ := exists_session_of_installed? found installed
    have soundNext := soundBefore.step (step_act _ (.perform number operation))
    obtain ⟨later, laterFound, laterLe⟩ := soundNext.exists_session_run after nextFound
    have inPlace : workspace.sessions[number]? = some later := by
      change (({} : Workspace).run (before ++ .perform number operation :: after)).sessions[number]?
        = some later
      rw [run_append]
      exact laterFound
    have member := List.mem_of_getElem? inPlace
    refine ⟨later.drawing workspace.counter, session?_eq_some_iff.mpr ⟨later, inPlace, rfl⟩,
      sound.listed later member, ?_⟩
    intro issuer made node
    have coherent := (sound.coherent later member).drawing workspace.counter
    apply Session.handle_of_stale coherent.idle
    -- The issuer drew before the parse that was installed, and that one not after this one.
    intro same
    have earlier := soundBefore.generation_lt made
    rw [issuer.generation_id] at same
    rw [drawn] at laterLe
    rw [same] at earlier
    exact absurd earlier (Nat.not_lt.mpr laterLe)

/-- A session parses its text again after the tree was linked on its own. The new snapshot
has a node where the old name points, and refuses the name all the same; so does the
session, in which that node is selected by now. -/
theorem run_refuses_stale_after_reparse :
    let file := Tree.ofLabels ⟨{ kind := "file" }, ⟨0, 0, 2, 0⟩⟩ .nil 2
    let parse : SourceParser := fun _ => .ok file
    let before : List Action := [.start parse { text := "ab" } .utf8 default, .link file]
    let workspace := ({} : Workspace).run (before ++
      .perform 0 (.setText parse "ba") :: [.perform 0 (.handle (.text (.caret 1)))])
    let old := Snapshot.ofTree ⟨1⟩ "ab" file
    let new := Snapshot.ofTree ⟨3⟩ "ba" file
    workspace.issuers =
        [.snapshot old, .links (Links.ofTree ⟨2⟩ file), .snapshot new] ∧
      (new.tree.node? (old.id file.root).index).isSome ∧
      new.resolve (old.id file.root) = .error (.staleNode ⟨1⟩ ⟨3⟩) ∧
      ∃ current, workspace.session? 0 = some current ∧
        current.selection = ⟨.idle, .caret 1, some ⟨⟨3⟩, 0⟩⟩ ∧
        current.handle (.tree (some (old.id file.root))) =
          (current, { outcome := .dropped .staleNode }) := by
  intro file parse before workspace old new
  obtain ⟨apart, -, sessions⟩ := run_refuses_stale (before ++
    .perform 0 (.setText parse "ba") :: [.perform 0 (.handle (.text (.caret 1)))])
  have issuers : workspace.issuers =
      [.snapshot old, .links (Links.ofTree ⟨2⟩ file), .snapshot new] := by
    with_unfolding_all rfl
  have oldest : workspace.issuers[0]? = some (.snapshot old) := by rw [issuers]; rfl
  have newest : workspace.issuers[2]? = some (.snapshot new) := by rw [issuers]; rfl
  obtain ⟨current, found, -, dropped⟩ := sessions before
    [.perform 0 (.handle (.text (.caret 1)))] 0 (.setText parse "ba") _ rfl rfl rfl
  have selected : (workspace.session? 0).map Session.selection =
      some ⟨.idle, .caret 1, some ⟨⟨3⟩, 0⟩⟩ := by
    decide +kernel
  refine ⟨issuers, rfl, ?_, current, found, ?_, ?_⟩
  · exact (apart 2 0 _ _ newest oldest (by decide) file.root file.root).2.2 new rfl
  · rw [found] at selected
    exact Option.some.inj selected
  · exact (dropped (.snapshot old) List.mem_cons_self file.root).2

end Workspace

end TreeLens
