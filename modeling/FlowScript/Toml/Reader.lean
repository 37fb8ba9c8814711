/-
Reading TOML texts: values with lists and tables on one line, and the lines
of a document with their headers.
-/
import FlowScript.Toml.Scalar
import FlowScript.Toml.Table

namespace FlowScript

namespace Toml

open Settings (Value)

/-- How many brackets may be open at once, and how many keys a path may have. -/
def depthLimit : Nat := 79

/-- What is left after blanks, ends of lines and comments. -/
def skipLayout : Nat → List Char → List Char
  | 0, cs => cs
  | fuel + 1, cs =>
    let cs := skipComment (skipBlanks cs)
    match readNewline cs with
    | some rest => skipLayout fuel rest
    | none => cs

/-- The items of a list after its bracket; a comma may follow the last. -/
def readItems (item : List Char → Option (Value × List Char)) :
    Nat → List Char → Option (List Value × List Char)
  | 0, _ => none
  | fuel + 1, cs =>
    let cs := skipLayout cs.length cs
    match cs with
    | ']' :: rest => some ([], rest)
    | cs => do
      let (v, rest) ← item cs
      match skipLayout rest.length rest with
      | ',' :: rest => (readItems item fuel rest).map fun (vs, rest) => (v :: vs, rest)
      | ']' :: rest => some ([v], rest)
      | _ => none

/-- Keys, an equals sign and a value. -/
def readPair (value : List Char → Option (Value × List Char)) (cs : List Char) :
    Option ((List String × Value) × List Char) := do
  let (keys, rest) ← readPath depthLimit cs
  match skipBlanks rest with
  | '=' :: rest => (value (skipBlanks rest)).map fun (v, rest) => ((keys, v), rest)
  | _ => none

/-- The pairs of a table on one line after its brace, at least one. -/
def readPairs (value : List Char → Option (Value × List Char)) :
    Nat → List Char → Option (List (List String × Value) × List Char)
  | 0, _ => none
  | fuel + 1, cs => do
    let (pair, rest) ← readPair value (skipBlanks cs)
    match skipBlanks rest with
    | ',' :: rest => (readPairs value fuel rest).map fun (pairs, rest) => (pair :: pairs, rest)
    | '}' :: rest => some ([pair], rest)
    | _ => none

/-- A table of pairs whose keys do not clash. -/
def tableOf (pairs : List (List String × Value)) : Option Value :=
  (pairs.foldlM (fun entries p => Entries.addPointed p.1 p.2 entries) []).map fun entries =>
    Entries.valueOf (.table .header entries)

/-- A value with at most `depth` brackets open at once. -/
def readValue : Nat → List Char → Option (Value × List Char)
  | _, '"' :: cs => (readQuoted '"' cs).map fun (s, rest) => (.text (String.ofList s), rest)
  | _, '\'' :: cs => (readQuoted '\'' cs).map fun (s, rest) => (.text (String.ofList s), rest)
  | 0, '[' :: _ => none
  | 0, '{' :: _ => none
  | depth + 1, '[' :: cs =>
    (readItems (readValue depth) (cs.length + 1) cs).map fun (items, rest) => (.list items, rest)
  | depth + 1, '{' :: cs =>
    match skipBlanks cs with
    | '}' :: rest => some (.table [], rest)
    | cs => do
      let (pairs, rest) ← readPairs (readValue depth) (cs.length + 1) cs
      (tableOf pairs).map fun t => (t, rest)
  | _, cs =>
    let (token, rest) := readToken cs
    (ofToken token).map fun v => (v, rest)

/-- What is left after the end of a line, or at the end of the text. -/
def readEnd (cs : List Char) : Option (List Char) :=
  match skipComment (skipBlanks cs) with
  | [] => some []
  | cs => readNewline cs

/-- The path of a header up to its closing brackets. -/
def readHeader (close : List Char) (cs : List Char) : Option (List String × List Char) := do
  let (path, rest) ← readPath depthLimit cs
  let rest := skipBlanks rest
  if close.isPrefixOf rest then some (path, rest.drop close.length) else none

/-- The table after the lines of a text; `current` is the table that the last
header has opened. -/
def readLines : Nat → List String → Entries → List Char → Option Entries
  | 0, _, _, _ => none
  | fuel + 1, current, root, cs =>
    match skipLayout cs.length cs with
    | [] => some root
    | '[' :: '[' :: cs => do
      let (path, rest) ← readHeader [']', ']'] cs
      let rest ← readEnd rest
      let root ← Entries.addElement path root
      readLines fuel path root rest
    | '[' :: cs => do
      let (path, rest) ← readHeader [']'] cs
      let rest ← readEnd rest
      let root ← Entries.addHeader path root
      readLines fuel path root rest
    | cs => do
      let ((keys, v), rest) ← readPair (readValue depthLimit) cs
      let rest ← readEnd rest
      let root ← Entries.addIn current keys v root
      readLines fuel current root rest

/-- The table that a text is, if it is one. A mark of the byte order is passed over. -/
def read (s : String) : Option Value :=
  let cs := match s.toList with
    | '\ufeff' :: cs => cs
    | cs => cs
  (readLines (cs.length + 1) [] [] cs).map fun entries => Entries.valueOf (.table .header entries)

end Toml

end FlowScript
