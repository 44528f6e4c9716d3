import TreeLens.Datum
import TreeLens.Settings.Basic

/-!
# Reading settings from data

Settings are a record of records. A record is given as a table, or as a list of
the values of its fields in order; a table may leave fields out, a list may end
early. Unknown fields are refused. Choices are given by name, or as a table
whose only key is the name.
-/

namespace TreeLens.Settings

/-- What differs between the two ways in which settings are written. -/
structure Dialect where
  /-- Whether a list may be longer than the record it gives. -/
  longLists : Bool
  /-- Whether a value can stand beside the name of a choice given as a table. -/
  besideChoice : Datum → Bool

/-- Settings objects. -/
def objectDialect : Dialect where
  longLists := false
  besideChoice
    | .null => true
    | _ => false

/-- Settings files. -/
def fileDialect : Dialect where
  longLists := true
  besideChoice
    | .array _ [] => true
    | .table _ [] => true
    | _ => false

/-- The values of the named fields of a record. -/
def fields? (source : Dialect) (names : List String) : Datum → Option (List (Option Datum))
  | .table _ entries =>
    if entries.all fun entry => names.contains entry.1 then
      some (names.map fun name => entries.lookup name)
    else none
  | .array _ items =>
    if source.longLists || items.length ≤ names.length then
      some ((List.range names.length).map fun place => items[place]?)
    else none
  | _ => none

/-- A value that may be left open, by not being there or by being null. -/
def open? {α : Type} (read : Datum → Option α) : Option Datum → Option (Option α)
  | none => some none
  | some .null => some none
  | some datum => (read datum).map some

/-- A text. -/
def text? : Datum → Option String
  | .string value => some value
  | _ => none

/-- A truth value. -/
def flag? : Datum → Option Bool
  | .boolean value => some value
  | _ => none

/-- A choice by name. -/
def choice? {α : Type} (source : Dialect) (ofName? : String → Option α) : Datum → Option α
  | .string name => ofName? name
  | .table _ [(name, beside)] => if source.besideChoice beside then ofName? name else none
  | _ => none

/-- The key under which a date or a time is its own table. -/
def momentKey : String := "$__toml_private_datetime"

/-- A table of texts. A date or a time counts as a table that holds its usual
form. -/
def texts? : Datum → Option (List (String × String))
  | .table _ entries => entries.mapM fun (key, value) => (text? value).map fun text => (key, text)
  | .moment text => some [(momentKey, text)]
  | _ => none

/-- A record inside a record. One that is not there leaves all of its fields
open. -/
def inner? (source : Dialect) (names : List String) :
    Option Datum → Option (List (Option Datum))
  | none => some (names.map fun _ => none)
  | some datum => fields? source names datum

/-- Read settings. -/
def ofDatum? (source : Dialect) (datum : Datum) : Option Settings := do
  match ← fields? source ["language", "text", "selection", "log", "filetypes"] datum with
  | [language, text, selection, log, filetypes] =>
    let language ← open? text? language
    let textFields ← inner? source ["encoding"] text
    let selectionFields ← inner? source ["include_trivia", "multi_range"] selection
    let logFields ← inner? source ["level"] log
    let filetypes ← match filetypes with
      | none => some []
      | some found => texts? found
    match textFields, selectionFields, logFields with
    | [encoding], [includeTrivia, multiRange], [level] =>
      return {
        language := language
        encoding := ← open? (choice? source Encoding.ofName?) encoding
        includeTrivia := ← open? flag? includeTrivia
        multiRange := ← open? (choice? source MultiRange.ofName?) multiRange
        logLevel := ← open? text? level
        filetypes := filetypes }
    | _, _, _ => none
  | _ => none

end TreeLens.Settings
