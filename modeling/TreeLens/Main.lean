import TreeLens.CommandLine.Run
import TreeLens.Lowering.Listing

/-!
# The program

Reads the command line, asks the machine for the environment and for the files
that the command needs, and takes the parser's answer from standard input as a
listing. Everything else is decided by the library.
-/

namespace TreeLens.CommandLine

/-- The paths a command reads. -/
def Invocation.paths (invocation : Invocation) (environment : Environment) : List String :=
  let source := match invocation.command with
    | .tree file _ => [file]
    | .locate file _ _ => [file]
    | .select file _ _ _ _ => [file]
    | _ => []
  (Settings.userPath? environment).toList ++ invocation.config.toList ++ source

/-- Why the machine could not read a file. -/
def readFault : IO.Error → ReadFault
  | .inappropriateType _ code _ => if code = 21 then .isDirectory else .notDirectory
  | .invalidArgument _ code _ => if code = 36 then .nameTooLong else .notFound
  | _ => .notFound

/-- Ask the machine what a path leads to. -/
def probe (path : String) : IO (String × Except ReadFault FileEntry) := do
  try
    return (path, .ok (.file (← IO.FS.readBinFile path)))
  catch error =>
    return (path, .error (readFault error))

/-- Read from standard input until it ends. -/
partial def readAll (stream : IO.FS.Stream) (before : ByteArray) : IO ByteArray := do
  let chunk ← stream.read 65536
  if chunk.isEmpty then return before else readAll stream (before ++ chunk)

/-- What to say when arguments are not accepted. -/
def Refusal.describe (refusal : Refusal) : String :=
  match refusal with
  | .displayVersion => "cst-explorer 0.1.0"
  | .valueValidation _ _ _ => refusal.message?.getD ""
  | .displayHelp | .displayHelpOnMissing => "Usage: cst-explorer [OPTIONS] <COMMAND>"
  | .unknownArgument => "error: unexpected argument found"
  | .missingRequired => "error: a required argument was not provided"
  | .conflict => "error: arguments cannot be used together"
  | .invalidSubcommand => "error: unrecognized subcommand"
  | .missingSubcommand => "error: a subcommand is required"
  | .invalidValue => "error: a value is required"
  | .tooManyValues => "error: unexpected value found"

/-- Run an accepted command line on this machine. -/
def runHere (invocation : Invocation) : IO UInt32 := do
  let environment : Environment :=
    { configHome := ← IO.getEnv "XDG_CONFIG_HOME", home := ← IO.getEnv "HOME" }
  let found ← (invocation.paths environment).mapM probe
  let listing ← readAll (← IO.getStdin) ByteArray.empty
  let outline := (String.fromUTF8? listing).bind Outline.ofListing?
  let world : World :=
    { files := ⟨fun path => (found.lookup path).getD (.error .notFound)⟩
      environment := environment
      grammar := ⟨fun _ => outline⟩ }
  let finished := run world invocation
  IO.print finished.output
  match finished.failure with
  | none => pure ()
  | some (.fault fault) => IO.eprintln ("Error: " ++ fault.message)
  | some .crash => IO.eprintln "Error: details are not available"
  return finished.exitStatus.toUInt32

end TreeLens.CommandLine

/-- Run the command line. -/
def main (words : List String) : IO UInt32 := do
  match TreeLens.CommandLine.readArguments words with
  | .ok invocation => TreeLens.CommandLine.runHere invocation
  | .error refusal =>
    if refusal.isAnswer then IO.println refusal.describe else IO.eprintln refusal.describe
    return refusal.exitStatus.toUInt32
