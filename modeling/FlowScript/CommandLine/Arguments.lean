/-
Arguments of the command line. They are read from left to right, so that of
two mistakes the first counts, and a request for help counts if no mistake
stands before it; what is missing is found at the end.
-/
import FlowScript.Target.Basic

namespace FlowScript

namespace CommandLine

/-- What a compilation is asked to do. -/
structure CompileOptions where
  input : String
  name : Option String
  targets : Option (List Target)
  output : String
  templates : Option String
  strict : Bool
deriving DecidableEq, Repr

inductive Command where
  | compile (options : CompileOptions)
  | check (input : String)
deriving DecidableEq, Repr

/-- What help can be about. -/
inductive Topic where
  | program
  | compile
  | check
  | help
deriving DecidableEq, Repr

inductive Request where
  /-- A command, with a file of settings if one is named. -/
  | run (config : Option String) (command : Command)
  | help (topic : Topic)
  | version
  | misuse
deriving DecidableEq, Repr

inductive Flag where
  | config
  | input
  | name
  | target
  | output
  | templates
  | strict
deriving DecidableEq, Repr

namespace Flag

/-- The word after two dashes. -/
def word : Flag → String
  | .config => "config"
  | .input => "in"
  | .name => "name"
  | .target => "target"
  | .output => "out"
  | .templates => "templates"
  | .strict => "strict"

def hasValue : Flag → Bool
  | .strict => false
  | _ => true

/-- The targets that a choice stands for. -/
def targetsOf? : String → Option (List Target)
  | "desktop" => some [.desktop]
  | "browser" => some [.browser]
  | "all" => some Target.all
  | _ => none

/-- Whether a value is one that the option accepts: a path is not empty, and
a target is one of the choices. -/
def accepts : Flag → String → Bool
  | .name, _ => true
  | .strict, _ => false
  | .target, value => (targetsOf? value).isSome
  | _, value => !value.isEmpty

end Flag

/-- The options read so far and their values. -/
abbrev Values := List (Flag × String)

/-- The places in which options are read: before a command, or after it. -/
inductive Place where
  | program
  | compile
  | check
deriving DecidableEq, Repr

namespace Place

def options : Place → List Flag
  | .program => [.config]
  | .compile => [.config, .input, .name, .target, .output, .templates, .strict]
  | .check => [.config, .input]

/-- What a request for help in a place is about. -/
def topic : Place → Topic
  | .program => .program
  | .compile => .compile
  | .check => .check

end Place

/-- The result of reading options: the values and what follows them, or a
request that needs nothing more. -/
inductive OptionsRead where
  | values (values : Values) (rest : List String)
  | done (request : Request)

/-- Whether an argument cannot be the value of an option because it looks like one. -/
def looksLikeOption (arg : String) : Bool := arg.toList.head? == some '-' && arg != "-"

/-- Reads options up to the first argument that is none. -/
def readOptions (place : Place) (values : Values) : List String → OptionsRead
  | [] => .values values []
  | arg :: args =>
    match arg.toList with
    | ['-', '-'] => if args.isEmpty then .values values [] else .done .misuse
    | '-' :: '-' :: body =>
      let word := String.ofList (body.takeWhile (· != '='))
      let attached := (body.dropWhile (· != '=')).drop 1
      let isAttached := body.contains '='
      if word = "help" then .done (if isAttached then .misuse else .help place.topic)
      else if word = "version" && place == .program then .done (if isAttached then .misuse else .version)
      else
        match place.options.find? fun o => o.word == word with
        | none => .done .misuse
        | some option =>
          if (values.lookup option).isSome then .done .misuse
          else if !option.hasValue then
            if isAttached then .done .misuse else readOptions place (values ++ [(option, "")]) args
          else if isAttached then
            if option.accepts (String.ofList attached) then
              readOptions place (values ++ [(option, String.ofList attached)]) args
            else .done .misuse
          else
            match args with
            | [] => .done .misuse
            | value :: args =>
              if looksLikeOption value || !option.accepts value then .done .misuse
              else readOptions place (values ++ [(option, value)]) args
    | '-' :: c :: _ =>
      if c = 'h' then .done (.help place.topic)
      else if c = 'V' && place == .program then .done .version
      else .done .misuse
    | _ => .values values (arg :: args)

/-- The options of a command and nothing else. -/
def readCommand (place : Place) (config : Option String) (command? : Values → Option Command)
    (args : List String) : Request :=
  match readOptions place [] args with
  | .done request => request
  | .values values [] =>
    match command? values with
    | some command => .run ((values.lookup .config).or config) command
    | none => .misuse
  | .values _ _ => .misuse

/-- The compilation that options ask for; there must be an input. -/
def compileOf? (values : Values) : Option Command :=
  (values.lookup .input).map fun input => .compile
    { input
      name := values.lookup .name
      targets := (values.lookup .target).bind Flag.targetsOf?
      output := (values.lookup .output).getD "."
      templates := values.lookup .templates
      strict := (values.lookup .strict).isSome }

/-- The check that options ask for; there must be an input. -/
def checkOf? (values : Values) : Option Command := (values.lookup .input).map .check

/-- The help that words ask for. -/
def readHelp : List String → Request
  | [] => .help .program
  | ["compile"] => .help .compile
  | ["check"] => .help .check
  | ["help"] => .help .help
  | _ => .misuse

def read (args : List String) : Request :=
  match readOptions .program [] args with
  | .done request => request
  | .values _ [] => .misuse
  | .values values (command :: args) =>
    let config := values.lookup .config
    if command = "compile" then readCommand .compile config compileOf? args
    else if command = "check" then readCommand .check config checkOf? args
    else if command = "help" then readHelp args
    else .misuse

end CommandLine

end FlowScript
