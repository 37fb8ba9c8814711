/-
Tables of a TOML text while they are being defined. A table can be given by
a header, be implied by a longer header, or be implied by a key with points;
which of them it is decides what may still be added to it.
-/
import FlowScript.Settings.Value

namespace FlowScript

namespace Toml

open Settings (Value)

/-- How a table came to be. -/
inductive Origin where
  /-- By a header of its own. -/
  | header
  /-- Implied by the header of a table in it. -/
  | implied
  /-- Implied by a key with points. -/
  | pointed
deriving DecidableEq, Repr

/-- What a key has: a value, a table, or a list of tables that headers add to. -/
inductive Entry where
  | value (v : Value)
  | table (origin : Origin) (entries : List (String × Entry))
  | tables (elements : List (List (String × Entry)))

abbrev Entries := List (String × Entry)

namespace Entries

/-- The table with an entry in place of what was there, or at its end. -/
def set (entries : Entries) (key : String) (entry : Entry) : Entries :=
  match entries with
  | [] => [(key, entry)]
  | (k, e) :: rest => if k = key then (k, entry) :: rest else (k, e) :: set rest key entry

/-- The table after a change to the table at the end of a path, which is told
how it came to be. Tables that are missing on the way are made with the
given origin; of a list of tables the last one is meant. With points in the
path, tables that have headers of their own are out of reach. -/
def change (made : Origin) (f : Origin → Entries → Option Entries) (origin : Origin) :
    List String → Entries → Option Entries
  | [], entries => f origin entries
  | key :: path, entries =>
    match List.lookup key entries with
    | none => (change made f made path []).map fun below => set entries key (.table made below)
    | some (.value _) => none
    | some (.table origin below) =>
      if made = .pointed ∧ origin = .header then none
      else (change made f origin path below).map fun below => set entries key (.table origin below)
    | some (.tables elements) =>
      match elements.getLast? with
      | none => none
      | some last =>
        (change made f .header path last).map fun last =>
          set entries key (.tables (elements.dropLast ++ [last]))

/-- Adds a value under a key that must be new. -/
def addValue (key : String) (v : Value) (entries : Entries) : Option Entries :=
  match List.lookup key entries with
  | none => some (set entries key (.value v))
  | some _ => none

/-- Adds a value under keys with points between them. A table that such keys
lead to must be one that such keys have made. -/
def addPointed (keys : List String) (v : Value) (entries : Entries) : Option Entries :=
  match keys.getLast? with
  | none => none
  | some key =>
    let path := keys.dropLast
    change .pointed
      (fun origin below =>
        if !path.isEmpty && origin != .pointed then none else addValue key v below)
      .header path entries

/-- Defines a table by a header: one that is new, or that was only implied by headers. -/
def addHeader (path : List String) (root : Entries) : Option Entries :=
  match path.getLast? with
  | none => none
  | some key =>
    change .implied
      (fun _ below =>
        match List.lookup key below with
        | none => some (set below key (.table .header []))
        | some (.table .implied entries) => some (set below key (.table .header entries))
        | some _ => none)
      .header path.dropLast root

/-- Adds a table to a list of tables by a header. -/
def addElement (path : List String) (root : Entries) : Option Entries :=
  match path.getLast? with
  | none => none
  | some key =>
    change .implied
      (fun _ below =>
        match List.lookup key below with
        | none => some (set below key (.tables [[]]))
        | some (.tables elements) => some (set below key (.tables (elements ++ [[]])))
        | some _ => none)
      .header path.dropLast root

/-- Adds a value under keys, in the table that the last header has opened. -/
def addIn (current keys : List String) (v : Value) (root : Entries) : Option Entries :=
  change .implied (fun _ below => addPointed keys v below) .header current root

mutual

def valueOf : Entry → Value
  | .value v => v
  | .table _ entries => .table (Dict.ofList (valuesOf entries))
  | .tables elements => .list (elementValues elements)

def valuesOf : List (String × Entry) → List (String × Value)
  | [] => []
  | (key, e) :: rest => (key, valueOf e) :: valuesOf rest

def elementValues : List (List (String × Entry)) → List Value
  | [] => []
  | entries :: rest => .table (Dict.ofList (valuesOf entries)) :: elementValues rest

end

end Entries

end Toml

end FlowScript
