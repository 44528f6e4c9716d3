import TreeLens.Language.Filetype
import TreeLens.Selection.State
import TreeLens.Text.Encoding

/-!
# Settings

Every setting may be left open, so that settings can be laid over each other:
what a later layer says goes, what it leaves open stays as it was. Languages of
file extensions are laid over each other key by key.
-/

namespace TreeLens

/-- Settings, any of which may be left open. -/
@[ext]
structure Settings where
  /-- Language of files whose extension says nothing. -/
  language : Option String := none
  encoding : Option Encoding := none
  includeTrivia : Option Bool := none
  multiRange : Option MultiRange := none
  logLevel : Option String := none
  /-- Languages by file extension, each extension once. -/
  filetypes : List (String × String) := []
deriving DecidableEq, Repr, Inhabited

namespace Settings

/-- Everything is left open. -/
def empty : Settings := {}

/-- Every setting has its usual value. -/
def usual : Settings where
  language := some Registry.builtinLanguage
  encoding := some .utf16
  includeTrivia := some false
  multiRange := some .first
  logLevel := some "warn"
  filetypes := [("rs", Registry.builtinLanguage)]

/-- Replace the value of a key, or add the key at the end. -/
def putPair (pairs : List (String × String)) (pair : String × String) : List (String × String) :=
  match pairs with
  | [] => [pair]
  | (key, value) :: rest =>
    if key = pair.1 then pair :: rest else (key, value) :: putPair rest pair

/-- Lay settings over others. -/
def onto (upper lower : Settings) : Settings where
  language := upper.language <|> lower.language
  encoding := upper.encoding <|> lower.encoding
  includeTrivia := upper.includeTrivia <|> lower.includeTrivia
  multiRange := upper.multiRange <|> lower.multiRange
  logLevel := upper.logLevel <|> lower.logLevel
  filetypes := upper.filetypes.foldl putPair lower.filetypes

/-- The encoding, UTF-16 if left open. -/
def encodingInUse (settings : Settings) : Encoding :=
  settings.encoding.getD default

/-- The selection policy, with the first span and no trivia if left open. -/
def policy (settings : Settings) : Policy where
  multiRange := settings.multiRange.getD .first
  includeTrivia := settings.includeTrivia.getD false

/-- The log level, warnings if left open. -/
def logLevelInUse (settings : Settings) : String :=
  settings.logLevel.getD "warn"

/-- A heading and the lines under it, or nothing if there are no lines. -/
def section? (heading : String) (lines : List String) : Option String :=
  if lines.isEmpty then none
  else some (String.join ((("[" ++ heading ++ "]") :: lines).map (· ++ "\n")))

/-- A key with a value in quotes. The texts that are written here need no
escapes. -/
def assign (key value : String) : String :=
  key ++ " = \"" ++ value ++ "\""

/-- The settings as a settings file. -/
def render (settings : Settings) : String :=
  let top := settings.language.map fun language => assign "language" language ++ "\n"
  let text := section? "text" (settings.encoding.toList.map fun encoding =>
    assign "encoding" encoding.name)
  let selection := section? "selection"
    ((settings.includeTrivia.toList.map fun flag => "include_trivia = " ++ toString flag)
      ++ settings.multiRange.toList.map fun choice => assign "multi_range" choice.name)
  let log := section? "log" (settings.logLevel.toList.map fun level => assign "level" level)
  let filetypes := section? "filetypes" (settings.filetypes.map fun (extension, language) =>
    assign extension language)
  String.intercalate "\n" ([top, text, selection, log, filetypes].filterMap id)

end Settings

end TreeLens
