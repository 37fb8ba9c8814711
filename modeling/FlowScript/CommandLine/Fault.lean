/-
Failures of commands. A command says what it was about to do and, where
something else failed on the way, why that could not be done; `report` puts
both on the error channel.
-/
import FlowScript.Failure
import FlowScript.Text.Split

namespace FlowScript

namespace CommandLine

/-- Why a command fails. -/
inductive Fault where
  | unsettled (cause : Settings.Fault)
  | unread (path : String) (cause : Failure)
  | nameless
  | unloaded (cause : Failure)
  | noDirectory (path : String) (cause : OsError)
  | uncompiled (target : Target) (cause : Failure)
  | unwritten (path : String) (cause : OsError)
  /-- Something was found where nothing may be. -/
  | findings (count : Nat)
deriving DecidableEq, Repr

namespace Fault

/-- What the command was about to do, or what went wrong if there is no more to say. -/
def headline : Fault → String
  | .unsettled _ => "load configuration"
  | .unread path _ => "read experiment '" ++ path ++ "'"
  | .nameless => "input path has no file name; pass --name"
  | .unloaded cause => cause.message
  | .noDirectory path _ => "create output dir '" ++ path ++ "'"
  | .uncompiled target _ => "compile " ++ target.name
  | .unwritten path _ => "write '" ++ path ++ "'"
  | .findings count => toString count ++ " diagnostic(s) reported"

/-- Why that could not be done. -/
def cause? : Fault → Option String
  | .unsettled cause => some (Failure.unsettled cause).message
  | .unread _ cause => some cause.message
  | .nameless => none
  | .unloaded _ => none
  | .noDirectory _ cause => some cause.message
  | .uncompiled _ cause => some cause.message
  | .unwritten _ cause => some cause.message
  | .findings _ => none

/-- The lines of a text, each with four blanks before it. -/
def indented (s : String) : List String := (Text.splitAt '\n' s).map fun line => "    " ++ line

def report (f : Fault) : List String :=
  ("Error: " ++ f.headline) ::
    match f.cause? with
    | none => []
    | some cause => "" :: "Caused by:" :: indented cause

end Fault

end CommandLine

end FlowScript
