import TreeLens.CommandLine.Arguments
import TreeLens.CommandLine.Report
import TreeLens.Dump
import TreeLens.Language.Pool
import TreeLens.Session.Basic
import TreeLens.Settings.Loading

/-!
# Running a command

A command reads settings, opens a file, parses it and writes what was asked
for. The world it runs in is given as a value: files, environment, and the
grammar of the built-in language.
-/

namespace TreeLens.CommandLine

/-- The world a command runs in. -/
structure World where
  files : FileSystem
  environment : Environment
  grammar : Grammar

/-- Why a command did not come to its end. -/
inductive Failure where
  | fault (cause : Fault)
  /-- The details of a node could not be worked out. -/
  | crash

/-- What a command left behind. -/
structure Run where
  /-- What was written. -/
  output : String := ""
  /-- The level of logging, if the command came that far. -/
  logLevel : Option String := none
  failure : Option Failure := none

namespace Run

/-- Status with which the program ends. -/
def exitStatus (run : Run) : Nat :=
  if run.failure.isSome then 1 else 0

end Run

/-- The level of logging: as configured, unless verbosity asks for more. -/
def logLevel (verbosity : Nat) (configured : String) : String :=
  match verbosity with
  | 0 => configured
  | 1 => "info"
  | 2 => "debug"
  | _ => "trace"

/-- The settings given on the command line itself. -/
def overrides (invocation : Invocation) : Settings :=
  match invocation.command with
  | .select _ _ includeTrivia multiRange _ =>
    { encoding := invocation.encoding
      includeTrivia := if includeTrivia then some true else none
      multiRange := multiRange }
  | _ => { encoding := invocation.encoding }

/-- Read a source file. -/
def openDocument (files : FileSystem) (path : String) : Except Fault Document :=
  match files.read path with
  | .error cause => .error (.io cause)
  | .ok bytes =>
    match String.fromUTF8? bytes with
    | some text => .ok { path := some path, text := text }
    | none => .error (.corruptFile path)

/-- The language of a file: the one asked for, else the one of its extension,
else the configured one. -/
def chooseLanguage (settings : Settings) (asked : Option String) (path : String) :
    Except Fault String :=
  match asked <|> (Filetypes.withMappings settings.filetypes).languageOf? path
      <|> settings.language with
  | some language => .ok language
  | none => .error (.languageNotFound path)

/-- A parser for a built-in language. -/
def builtinParser (grammar : Grammar) (language : String) : Except Fault SourceParser :=
  (Pool.create (Registry.builtin grammar) language).map fun _ text =>
    (Pool.empty.parse (Registry.builtin grammar) language text).1

/-- Open a session on a file. -/
def openSession (world : World) (settings : Settings) (asked : Option String) (path : String) :
    Except Fault Session := do
  let document ← openDocument world.files path
  let language ← chooseLanguage settings asked path
  let parse ← builtinParser world.grammar language
  let session ← Session.start parse document ⟨1⟩
  return session.configure settings.encodingInUse settings.policy

/-- The details of a node, without which a command cannot go on. -/
def requireDetails (session : Session) (node : Node) : Except Failure Details :=
  match session.details? node with
  | some details => .ok details
  | none => .error .crash

/-- Write every node of a file. -/
def runTree (session : Session) (json : Bool) : Except Failure String :=
  if json then do
    let rows ← session.snapshot.tree.nodes.mapM fun node => do
      return treeRow (session.snapshot.lineage.depth node.index) (← requireDetails session node)
    return (Json.array rows).render ++ "\n"
  else
    return session.snapshot.dump ++ "\n"

/-- The captions on a path, with signs between them. -/
def joinPath (path : List String) : String :=
  String.intercalate " > " path

/-- Write the node at an offset. -/
def runLocate (session : Session) (offset : Nat) (json : Bool) : Except Failure String :=
  match session.snapshot.locate? offset with
  | none => return "No node at offset " ++ toString offset ++ "\n"
  | some node =>
    let path := session.snapshot.breadcrumbs node
    if json then do
      return (locateReport (← requireDetails session node) path).render ++ "\n"
    else
      return node.row session.snapshot.source ++ "\n" ++ joinPath path ++ "\n"

/-- Make the selection that was asked for. -/
def makeSelection (session : Session) (request : SelectionRequest) : Except Failure Session :=
  match request with
  | .ranges ranges => .ok (session.handle (.text (TextSelection.ofSpans ranges))).1
  | .node index =>
    match session.snapshot.tree.node? index with
    | some node => .ok (session.handle (.tree (some (session.snapshot.id node)))).1
    | none => .error (.fault (.internal ("no node with index " ++ toString index ++ " ("
        ++ toString session.snapshot.tree.size ++ " nodes)")))

/-- One line for a selected span, with the text it holds. -/
def rangeLine (session : Session) (range : Span) : String :=
  let source := session.snapshot.source
  let held := ((Text.spanToBytes session.encoding source range).bind (Text.slice? source)).getD ""
  "text " ++ range.render ++ " " ++ Text.quote held ++ "\n"

/-- Write both selections after making one. -/
def runSelect (opened : Session) (request : SelectionRequest) (json : Bool) :
    Except Failure String := do
  let session ← makeSelection opened request
  let ranges := session.selection.text.ranges
  match session.selected? with
  | none =>
    if json then
      return (selectReport ranges none []).render ++ "\n"
    else
      return String.join (ranges.map (rangeLine session)) ++ "node none\n"
  | some node =>
    let path := session.snapshot.breadcrumbs node
    if json then
      return (selectReport ranges (some (← requireDetails session node)) path).render ++ "\n"
    else
      return String.join (ranges.map (rangeLine session)) ++ "node #" ++ toString node.index
        ++ " " ++ node.row session.snapshot.source ++ "\n" ++ joinPath path ++ "\n"

/-- Open a session on a file and go on with it. -/
def withSession (world : World) (settings : Settings) (asked : Option String) (path : String)
    (next : Session → Except Failure String) : Except Failure String :=
  match openSession world settings asked path with
  | .error fault => .error (.fault fault)
  | .ok session => next session

/-- What a command writes. -/
def output (world : World) (settings : Settings) (invocation : Invocation) :
    Except Failure String :=
  let asked := invocation.language
  match invocation.command with
  | .tree file json => withSession world settings asked file fun session => runTree session json
  | .locate file offset json =>
    withSession world settings asked file fun session => runLocate session offset json
  | .select file request _ _ json =>
    withSession world settings asked file fun session => runSelect session request json
  | .configInit => return Settings.usual.render
  | .configPath =>
    return (Settings.userPath? world.environment).getD "No user configuration directory" ++ "\n"

/-- Run an accepted command line. -/
def run (world : World) (invocation : Invocation) : Run :=
  match Settings.loadAll world.files world.environment invocation.config with
  | .error fault => { failure := some (.fault fault) }
  | .ok loaded =>
    let settings := (overrides invocation).onto loaded
    let level := logLevel invocation.verbosity settings.logLevelInUse
    match output world settings invocation with
    | .ok text => { output := text, logLevel := some level }
    | .error failure => { logLevel := some level, failure := some failure }

end TreeLens.CommandLine
