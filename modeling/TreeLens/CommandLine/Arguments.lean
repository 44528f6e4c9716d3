import TreeLens.CommandLine.Value
import TreeLens.Text.Terminal

/-!
# Arguments

The words of a command line are read from left to right on a level: first on
that of the program, then on that of each command a word names. A level has
options, which take a value, flags, which take none, and either places for
plain words or commands of its own.

The value of an option may stand in the same word, after an equals sign, or in
the next word. In the latter case it is judged only when the next thing is
found that this level knows, or at the end; so some refusals overtake others.
-/

namespace TreeLens.CommandLine

/-- Why arguments are not accepted, or why there is nothing to run. -/
inductive Refusal where
  | unknownArgument
  | missingRequired
  | conflict
  | invalidSubcommand
  | missingSubcommand
  | invalidValue
  | tooManyValues
  | displayHelp
  | displayVersion
  /-- Neither an argument nor a command was given. -/
  | displayHelpOnMissing
  /-- A value of the named argument cannot be read. -/
  | valueValidation (value argument reason : String)
deriving DecidableEq, Repr

namespace Refusal

/-- Whether the refusal answers a request rather than reports a mistake. -/
def isAnswer : Refusal → Bool
  | displayHelp => true
  | displayVersion => true
  | _ => false

/-- Status with which the program ends. -/
def exitStatus (refusal : Refusal) : Nat :=
  if refusal.isAnswer then 0 else 2

/-- The part of a text before its first line break. -/
def firstLine (text : String) : String :=
  let line := text.toList.takeWhile (· ≠ '\n')
  if line.length < text.length && line.getLast? = some '\r' then String.ofList line.dropLast
  else String.ofList line

/-- What is written to the terminal about a value that cannot be read. -/
def notice (value argument reason : String) : String :=
  "error: invalid value '" ++ Text.emphasise value ++ "' for '" ++ Text.emphasise argument ++ "': "
    ++ reason ++ "\n\nFor more information, try '" ++ Text.emphasise "--help" ++ "'.\n"

/-- The first line of what is said about a value that cannot be read, as plain
text. Controls in the value are lost with those that set it off. -/
def message? : Refusal → Option String
  | valueValidation value argument reason =>
    some (firstLine (Text.plain (notice value argument reason)))
  | _ => none

end Refusal

/-- A level on which words are read. -/
inductive Level where
  | program
  | tree
  | locate
  | select
  | config
  | configInit
  | configPath
deriving DecidableEq, Repr

/-- Arguments that take a value. -/
inductive Slot where
  | config
  | language
  | encoding
  | range
  | node
  | multiRange
  | file
  | offset
deriving DecidableEq, Repr

/-- Arguments that take no value. -/
inductive Flag where
  | verbose
  | help
  | version
  | json
  | includeTrivia
deriving DecidableEq, Repr

namespace Level

/-- The commands of a level. -/
def commands : Level → List (String × Level)
  | program => [("tree", tree), ("locate", locate), ("select", select), ("config", config)]
  | config => [("init", configInit), ("path", configPath)]
  | _ => []

/-- The command a word names. -/
def command? (level : Level) (word : String) : Option Level :=
  level.commands.lookup word

/-- Whether a level has commands, of which one has to be given. Such a level
also knows the command `help`. -/
def needsCommand (level : Level) : Bool :=
  !level.commands.isEmpty

/-- The options known on every level. -/
def commonOptions : List (String × Slot) :=
  [("config", .config), ("language", .language), ("encoding", .encoding)]

/-- The option of a given name. -/
def option? (level : Level) (name : String) : Option Slot :=
  let own := match level with
    | select => [("range", Slot.range), ("node", .node), ("multi-range", .multiRange)]
    | _ => []
  (commonOptions ++ own).lookup name

/-- The flag of a given name. -/
def flag? (level : Level) (name : String) : Option Flag :=
  let own := match level with
    | program => [("version", Flag.version)]
    | tree => [("json", .json)]
    | locate => [("json", .json)]
    | select => [("json", .json), ("include-trivia", .includeTrivia)]
    | _ => []
  ([("verbose", Flag.verbose), ("help", .help)] ++ own).lookup name

/-- The flag of a given letter. -/
def letter? (level : Level) (letter : Char) : Option Flag :=
  if letter = 'v' then some .verbose
  else if letter = 'h' then some .help
  else if letter = 'V' ∧ level = program then some .version
  else none

/-- The places for plain words, in order. -/
def places : Level → List Slot
  | tree => [.file]
  | locate => [.file, .offset]
  | select => [.file]
  | _ => []

end Level

/-- What has been gathered on one level. -/
structure Gathered where
  config : Option String := none
  language : Option String := none
  encoding : Option Encoding := none
  verbosity : Nat := 0
  json : Bool := false
  includeTrivia : Bool := false
  ranges : List Span := []
  node : Option Nat := none
  multiRange : Option MultiRange := none
  file : Option String := none
  offset : Option Nat := none
deriving DecidableEq, Repr

namespace Gathered

/-- Set an argument that may be given only once. -/
def once {α : Type} (old : Option α) (read : Except Refusal α) : Except Refusal (Option α) :=
  match old with
  | some _ => .error .conflict
  | none => read.map some

/-- A path, which must not be empty. -/
def readPath (value : String) : Except Refusal String :=
  if value.isEmpty then .error .invalidValue else .ok value

/-- Refuse a value for a reason. -/
def judge {α : Type} (value argument : String) (read : Except String α) : Except Refusal α :=
  match read with
  | .ok result => .ok result
  | .error reason => .error (.valueValidation value argument reason)

/-- Put a value into its place. -/
def store (gathered : Gathered) (slot : Slot) (value : String) : Except Refusal Gathered :=
  match slot with
  | .config => (once gathered.config (readPath value)).map fun config =>
      { gathered with config := config }
  | .language => (once gathered.language (.ok value)).map fun language =>
      { gathered with language := language }
  | .encoding =>
    let read := match readEncoding? value with
      | some encoding => .ok encoding
      | none => .error ("unknown encoding '" ++ value ++ "'")
    (once gathered.encoding (judge value "--encoding <ENCODING>" read)).map fun encoding =>
      { gathered with encoding := encoding }
  | .range =>
    (judge value "--range <RANGE>" ((readRange value).mapError RangeFault.describe)).map
      fun range => { gathered with ranges := gathered.ranges ++ [range] }
  | .node =>
    let read := (readIndex value).mapError IndexFault.describe
    (once gathered.node (judge value "--node <NODE>" read)).map fun node =>
      { gathered with node := node }
  | .multiRange =>
    let read := match MultiRange.ofName? value with
      | some choice => .ok choice
      | none => .error ("unknown multi-range policy '" ++ value ++ "'")
    (once gathered.multiRange (judge value "--multi-range <MULTI_RANGE>" read)).map
      fun choice => { gathered with multiRange := choice }
  | .file => (once gathered.file (readPath value)).map fun file =>
      { gathered with file := file }
  | .offset =>
    let read := (readOffset value).mapError Text.DecimalFault.describe
    (once gathered.offset (judge value "<OFFSET>" read)).map fun offset =>
      { gathered with offset := offset }

/-- Raise a flag. Only verbosity can be raised more than once. -/
def raise (gathered : Gathered) : Flag → Except Refusal Gathered
  | .verbose => .ok { gathered with verbosity := gathered.verbosity + 1 }
  | .help => .error .displayHelp
  | .version => .error .displayVersion
  | .json => if gathered.json then .error .conflict else .ok { gathered with json := true }
  | .includeTrivia =>
    if gathered.includeTrivia then .error .conflict
    else .ok { gathered with includeTrivia := true }

/-- Judge what was gathered on a level, once all of its words are read. -/
def check (gathered : Gathered) (level : Level) (hasCommand : Bool) : Except Refusal Unit :=
  match level with
  | .tree => if gathered.file.isNone then .error .missingRequired else .ok ()
  | .locate =>
    if gathered.file.isNone || gathered.offset.isNone then .error .missingRequired else .ok ()
  | .select =>
    if !gathered.ranges.isEmpty && gathered.node.isSome then .error .conflict
    else if gathered.file.isNone || (gathered.ranges.isEmpty && gathered.node.isNone) then
      .error .missingRequired
    else .ok ()
  | _ =>
    if hasCommand || !level.needsCommand then .ok ()
    else if gathered = {} then .error .displayHelpOnMissing
    else .error .missingSubcommand

end Gathered

/-- How far reading has come on one level. -/
structure Progress where
  gathered : Gathered := {}
  /-- An argument whose value is still to come or still to be judged. -/
  pending : Option (Slot × Option String) := none
  /-- Number of plain words read. -/
  plain : Nat := 0
  /-- Whether two hyphens were read, after which all words are plain. -/
  plainOnly : Bool := false
deriving Repr

namespace Progress

/-- Whether the next plain word is the value of an option. -/
def awaits (progress : Progress) : Bool :=
  match progress.pending with
  | some (_, none) => true
  | _ => false

/-- Judge the pending value. -/
def resolve (progress : Progress) : Except Refusal Progress :=
  match progress.pending with
  | none => .ok progress
  | some (_, none) => .error .invalidValue
  | some (slot, some value) => (progress.gathered.store slot value).map fun gathered =>
      { progress with gathered := gathered, pending := none }

/-- Read an option with its value in the same word. -/
def attach (progress : Progress) (slot : Slot) (value : String) : Except Refusal Progress := do
  let resolved ← progress.resolve
  return { resolved with gathered := ← resolved.gathered.store slot value }

/-- Read an argument whose value is judged later. -/
def suspend (progress : Progress) (slot : Slot) (value : Option String) :
    Except Refusal Progress := do
  return { ← progress.resolve with pending := some (slot, value) }

/-- Read a flag. -/
def raise (progress : Progress) (flag : Flag) : Except Refusal Progress := do
  let resolved ← progress.resolve
  return { resolved with gathered := ← resolved.gathered.raise flag }

/-- Read the letters after a single hyphen. -/
def raiseAll (level : Level) (progress : Progress) : List Char → Except Refusal Progress
  | [] => .ok progress
  | letter :: letters =>
    match level.letter? letter with
    | none => .error .unknownArgument
    | some flag => do raiseAll level (← progress.raise flag) letters

/-- Read what follows two hyphens: a name, and a value after an equals sign if
there is one. -/
def readNamed (level : Level) (progress : Progress) (body : List Char) :
    Except Refusal Progress :=
  let name := String.ofList (body.takeWhile (· ≠ '='))
  let value := match body.dropWhile (· ≠ '=') with
    | _ :: text => some (String.ofList text)
    | [] => none
  match level.option? name, level.flag? name, value with
  | some slot, _, some text => progress.attach slot text
  | some slot, _, none => progress.suspend slot none
  | none, some flag, none => progress.raise flag
  | none, some _, some _ => .error .tooManyValues
  | none, none, _ => .error .unknownArgument

/-- Read a plain word. -/
def readPlain (level : Level) (progress : Progress) (word : String) : Except Refusal Progress :=
  match level.places[progress.plain]? with
  | some slot => (progress.suspend slot (some word)).map fun next =>
      { next with plain := next.plain + 1 }
  | none =>
    if !level.needsCommand then .error .unknownArgument
    else if progress.plainOnly && (word = "help" || (level.command? word).isSome) then
      .error .unknownArgument
    else .error .invalidSubcommand

/-- Read a word that names no command. -/
def readWord (level : Level) (progress : Progress) (word : String) : Except Refusal Progress :=
  if progress.plainOnly then progress.readPlain level word
  else
    match word.toList with
    | ['-', '-'] => .ok { progress with plainOnly := true }
    | '-' :: '-' :: body => progress.readNamed level body
    | '-' :: letter :: letters => progress.raiseAll level (letter :: letters)
    | _ =>
      match progress.pending with
      | some (slot, none) => .ok { progress with pending := some (slot, some word) }
      | _ => progress.readPlain level word

end Progress

/-- Answer a request for help on the command that the words lead to. The
command `help` itself has no commands below it. -/
def answerHelp : Level → List String → Refusal
  | _, [] => .displayHelp
  | level, word :: words =>
    match level.command? word with
    | some inner => answerHelp inner words
    | none => if word = "help" && level.needsCommand && words.isEmpty then .displayHelp
      else .invalidSubcommand

/-- Read all words from a level on. The result has an entry for that level and
one for every command given below it. -/
def readWords (level : Level) (progress : Progress) :
    List String → Except Refusal (List (Level × Gathered))
  | [] => do
    let resolved ← progress.resolve
    resolved.gathered.check level false
    return [(level, resolved.gathered)]
  | word :: words =>
    let asCommand := !progress.plainOnly && !progress.awaits
    if asCommand && word = "help" && level.needsCommand then
      .error (answerHelp level words)
    else
      match if asCommand then level.command? word else none with
      | some inner => do
        let below ← readWords inner {} words
        let resolved ← progress.resolve
        resolved.gathered.check level true
        return (level, resolved.gathered) :: below
      | none => do readWords level (← progress.readWord level word) words

/-- A selection to make. -/
inductive SelectionRequest where
  | ranges (ranges : List Span)
  | node (index : Nat)
deriving DecidableEq, Repr

/-- What to do. -/
inductive Command where
  | tree (file : String) (json : Bool)
  | locate (file : String) (offset : Nat) (json : Bool)
  | select (file : String) (request : SelectionRequest) (includeTrivia : Bool)
      (multiRange : Option MultiRange) (json : Bool)
  | configInit
  | configPath
deriving DecidableEq, Repr

/-- A command line that was accepted. -/
structure Invocation where
  config : Option String
  language : Option String
  encoding : Option Encoding
  verbosity : Nat
  command : Command
deriving DecidableEq, Repr

/-- The last of the given values. -/
def lastGiven {α β : Type} (value : α → Option β) (all : List α) : Option β :=
  all.foldl (fun found next => value next <|> found) none

/-- The command of the innermost level. -/
def command? (level : Level) (gathered : Gathered) : Option Command :=
  match level with
  | .tree => gathered.file.map fun file => .tree file gathered.json
  | .locate => do return .locate (← gathered.file) (← gathered.offset) gathered.json
  | .select => do
    let request := match gathered.node with
      | some index => SelectionRequest.node index
      | none => .ranges gathered.ranges
    return .select (← gathered.file) request gathered.includeTrivia gathered.multiRange
      gathered.json
  | .configInit => some .configInit
  | .configPath => some .configPath
  | _ => none

/-- Read a command line without the name of the program. Of options given on
several levels the innermost one counts. -/
def readArguments (words : List String) : Except Refusal Invocation := do
  let levels ← readWords .program {} words
  match levels.getLast? with
  | none => throw .missingSubcommand
  | some (level, gathered) =>
    match command? level gathered with
    | none => throw .missingSubcommand
    | some command =>
      return {
        config := lastGiven (fun (_, own) => own.config) levels
        language := lastGiven (fun (_, own) => own.language) levels
        encoding := lastGiven (fun (_, own) => own.encoding) levels
        verbosity := (lastGiven (fun (_, own) =>
          if own.verbosity = 0 then none else some own.verbosity) levels).getD 0
        command := command }

end TreeLens.CommandLine
