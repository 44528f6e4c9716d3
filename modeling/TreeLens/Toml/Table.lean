import TreeLens.Datum

/-!
# Building tables

A settings file adds to its tables from several places: headers open them,
dotted keys open tables on their way. A table is opened by a header only once,
a dotted key adds only to tables that dotted keys opened, and a table in braces
is complete as it stands.
-/

namespace TreeLens.Toml

/-- The entries of a table in the order in which they were added. -/
abbrev Entries := List (String × Datum)

/-- Replace the value of a key, or add the key at the end. -/
def Entries.put (key : String) (value : Datum) : Entries → Entries
  | [] => [(key, value)]
  | (other, old) :: rest =>
    if other = key then (key, value) :: rest else (other, old) :: Entries.put key value rest

/-- Change the entries at the end of a path of keys. Tables that are not there
yet are opened: by dotted keys if `dotted`, by headers otherwise. -/
def modifyAt (dotted : Bool) (change : Origin → Entries → Option Entries) :
    List String → Origin → Entries → Option Entries
  | [], origin, entries => change origin entries
  | key :: path, _, entries =>
    match entries.lookup key with
    | none =>
      let opened := if dotted then Origin.dotted else Origin.implied
      (modifyAt dotted change path opened []).map fun inner =>
        Entries.put key (.table opened inner) entries
    | some (.table origin inner) =>
      if origin = .inline ∨ (dotted = true ∧ origin = .header) then none
      else (modifyAt dotted change path origin inner).map fun changed =>
        Entries.put key (.table origin changed) entries
    | some (.array true items) =>
      match items.getLast? with
      | some (.table origin inner) =>
        (modifyAt dotted change path origin inner).map fun changed =>
          Entries.put key (.array true (items.dropLast ++ [.table origin changed])) entries
      | _ => none
    | some _ => none

/-- Add a value under a key, all but the last part of which name tables. A key
of several parts must end in a table that dotted keys opened, a key of one part
must not. -/
def addValue (path : List String) (key : String) (value : Datum) (origin : Origin)
    (entries : Entries) : Option Entries :=
  modifyAt true (fun last found =>
    if (last = .dotted) = (path = []) then none
    else if (found.lookup key).isSome then none
    else some (found ++ [(key, value)])) path origin entries

/-- Open the table of a header. -/
def openTable (path : List String) (key : String) (entries : Entries) : Option Entries :=
  modifyAt false (fun _ found =>
    match found.lookup key with
    | none => some (found ++ [(key, .table .header [])])
    | some (.table .implied inner) => some (Entries.put key (.table .header inner) found)
    | some _ => none) path .header entries

/-- Open one more table in the list of a double header. -/
def openElement (path : List String) (key : String) (entries : Entries) : Option Entries :=
  modifyAt false (fun _ found =>
    match found.lookup key with
    | none => some (found ++ [(key, .array true [.table .header []])])
    | some (.array true items) =>
      some (Entries.put key (.array true (items ++ [.table .header []])) found)
    | some _ => none) path .header entries

/-- Add a value to the table that a header opened. -/
def addUnder (header path : List String) (key : String) (value : Datum) (entries : Entries) :
    Option Entries :=
  modifyAt false (addValue path key value) header .header entries

end TreeLens.Toml
