/-
Templates: texts with fields between braces, where a doubled brace stands
for itself. `scan` cuts a template into characters and fields up to its end
or its first fault; filling puts values in place of the fields in order, so
that of several faults the first is the one reported. Values are put in as
they are: a brace in a value means nothing.
-/
import FlowScript.Dict
import FlowScript.Template.Field

namespace FlowScript

structure Template where
  name : String
  source : String
deriving DecidableEq, Repr

namespace Template

/-- The values that fill a template, by key. -/
abbrev Context := Dict String

/-- A part of a template: a character of its own text, or a field. -/
inductive Piece where
  | char (c : Char)
  | field (f : Field)
deriving DecidableEq, Repr

/-- A template cut into pieces, as far as it can be. -/
structure Scanned where
  pieces : List Piece
  /-- What stopped the scan before the end. -/
  fault : Option Fault
deriving DecidableEq, Repr

namespace Scanned

def cons (p : Piece) (s : Scanned) : Scanned := { s with pieces := p :: s.pieces }

def failed (fault : Fault) : Scanned := { pieces := [], fault := some fault }

end Scanned

/-- Cuts a template into pieces. `field` is what was read since an opening
brace, last character first; `closing` says that a closing brace waits for
its double. A closing brace that is doubled while a field is open is put out,
and the field goes on. -/
def scan (field : Option (List Char)) (closing : Bool) : List Char → Scanned
  | [] =>
    { pieces := []
      fault := if closing then some .loneClosing else if field.isSome then some .openField else none }
  | c :: cs =>
    if c = '{' then
      match field with
      | none => scan (some []) closing cs
      | some [] => (scan none closing cs).cons (.char '{')
      | some _ => .failed .extraOpening
    else if c = '}' then
      if closing then (scan (field.map (c :: ·)) false cs).cons (.char '}')
      else
        match field with
        | none => scan none true cs
        | some read =>
          match Field.read read.reverse with
          | .ok f => (scan none false cs).cons (.field f)
          | .error fault => .failed fault
    else if closing then .failed .loneClosing
    else
      match field with
      | none => (scan none false cs).cons (.char c)
      | some read => scan (some (c :: read)) false cs

def Piece.fill (context : Context) : Piece → Except Fault (List Char)
  | .char c => .ok [c]
  | .field f =>
    match context.get? f.key with
    | some value => f.layout.apply value.toList
    | none => .error (.unboundKey f.key)

/-- The texts of the pieces in order, up to the first fault. -/
def Scanned.fill (context : Context) (s : Scanned) : Except Fault (List Char) := do
  let texts ← s.pieces.mapM (Piece.fill context)
  match s.fault with
  | none => pure texts.flatten
  | some fault => .error fault

/-- A template that could not be filled. -/
structure Failure where
  template : String
  fault : Fault
deriving DecidableEq, Repr

def Failure.message (e : Failure) : String := "template '" ++ e.template ++ "': " ++ e.fault.message

/-- The template with its fields filled. -/
def render (t : Template) (context : Context) : Except Failure String :=
  match (scan none false t.source.toList).fill context with
  | .ok cs => .ok (String.ofList cs)
  | .error fault => .error { template := t.name, fault }

end Template

end FlowScript
