/-
Settings from environment variables. A variable counts whose name begins
with `STIMFLOW_`; the rest of its name is a path with two underscores
between keys, and capitals make no difference. Its value is a truth value, a
number, a list between brackets or a table between braces, and a text if it
is none of these.
-/
import FlowScript.Text.Blank
import FlowScript.Text.Split
import FlowScript.Toml.Scalar

namespace FlowScript

namespace Settings

namespace Environment

/-- How the names of variables begin, without capitals. -/
def lead : List Char := "stimflow_".toList

/-- The blanks between values. -/
def isSpace (c : Char) : Bool := c = ' ' ∨ c = '\t' ∨ c = '\n' ∨ c = '\x0c' ∨ c = '\r'

def skipBlanks (cs : List Char) : List Char := cs.dropWhile isSpace

/-- Whether a character ends a value that stands in a list or a table. -/
def isSeparator (c : Char) : Bool := c ∈ [',', '{', '}', '[', ']']

/-- A word as a value: a number if it is one, and as an integer fits 64 bits. -/
def ofWord (word : List Char) : Value :=
  let whole? : Option Value :=
    match Decimal.readNatural Json.Number.wordBound word with
    | some n => some (.natural n)
    | none =>
      let (negative, ds) := Decimal.takeSign word
      if negative ∧ ds ≠ [] ∧ ds.all Char.isDigit ∧ Decimal.ofDigits ds ≤ Json.Number.negativeBound then
        some (.integer (-(Decimal.ofDigits ds : Int)))
      else none
  let real? := if word.contains '.' then (Decimal.readReal word).map Value.real else none
  (real?.or whole?).getD (.text (String.ofList word))

/-- The characters at the front that take at most `n` bytes together. -/
def takeBytes (n : Nat) : List Char → List Char
  | [] => []
  | c :: cs => if c.utf8Size ≤ n then c :: takeBytes (n - c.utf8Size) cs else []

/-- What is kept of the characters before the first escape: as many bytes as
there are characters, which is everything only where all are of ASCII. -/
def keptBeforeEscape (cs : List Char) : List Char := takeBytes cs.length cs

/-- A text after its opening quote, with the escapes of TOML. -/
def readQuoted (cs : List Char) : Option (String × List Char) := do
  let (text, rest) ← Toml.readLine '"' (cs.length + 1) cs
  let start := cs.takeWhile fun c => c != '"' && c != '\\'
  if cs[start.length]? = some '\\' then
    some (String.ofList (keptBeforeEscape start ++ text.drop start.length), rest)
  else some (String.ofList text, rest)

/-- Items with commas between them up to `close`; a comma may follow the last. -/
def readItems {α : Type} (item : List Char → Option (α × List Char)) (close : Char) :
    Nat → List Char → Option (List α × List Char)
  | 0, _ => none
  | fuel + 1, cs =>
    if cs.head? = some close then some ([], cs.drop 1)
    else do
      let (x, rest) ← item cs
      match rest with
      | [] => none
      | c :: rest =>
        if c = ',' then (readItems item close fuel rest).map fun (xs, rest) => (x :: xs, rest)
        else if c = close then some ([x], rest)
        else none

/-- A key of a table: a text between quotes or a run of letters, digits, `_` and `-`. -/
def readKey : List Char → Option (String × List Char)
  | '"' :: cs => readQuoted cs
  | cs =>
    let isPart := fun c : Char => c.isAlphanum || c == '_' || c == '-'
    match cs.takeWhile isPart with
    | [] => none
    | key => some (String.ofList key, cs.dropWhile isPart)

/-- A key, an equals sign and a value. -/
def readEntry (value : List Char → Option (Value × List Char)) (cs : List Char) :
    Option ((String × Value) × List Char) := do
  let (key, rest) ← readKey (skipBlanks cs)
  match skipBlanks rest with
  | '=' :: rest => (value rest).map fun (v, rest) => ((key, v), rest)
  | _ => none

/-- A value with at most `depth` brackets open at once, and the blanks around it. -/
def readValue : Nat → List Char → Option (Value × List Char)
  | 0, _ => none
  | depth + 1, cs =>
    let cs := skipBlanks cs
    let found : Option (Value × List Char) :=
      if "true".toList.isPrefixOf cs then some (.flag true, cs.drop 4)
      else if "false".toList.isPrefixOf cs then some (.flag false, cs.drop 5)
      else
        match cs with
        | '{' :: rest =>
          (readItems (readEntry (readValue depth)) '}' (rest.length + 1) rest).map fun (entries, rest) =>
            (.table (Dict.ofList entries), rest)
        | '[' :: rest =>
          (readItems (readValue depth) ']' (rest.length + 1) rest).map fun (items, rest) =>
            (.list items, rest)
        | '"' :: rest => (readQuoted rest).map fun (s, rest) => (.text s, rest)
        | '\'' :: c :: '\'' :: rest => some (.text (String.singleton c), rest)
        | '\'' :: _ => none
        | cs =>
          some (ofWord (Text.strip Text.isBlank (cs.takeWhile fun c => !isSeparator c)),
            cs.dropWhile fun c => !isSeparator c)
    found.map fun (v, rest) => (v, skipBlanks rest)

/-- The value that a text stands for. -/
def ofText (s : String) : Value :=
  match readValue (s.toList.length + 1) s.toList with
  | some (v, []) => v
  | _ => .text s

/-- A list of characters with points for double underscores. -/
def pointUnderscores : List Char → List Char
  | '_' :: '_' :: cs => '.' :: pointUnderscores cs
  | c :: cs => c :: pointUnderscores cs
  | [] => []

/-- The path that the name of a variable stands for, if it counts. -/
def pathOfName? (name : String) : Option (List String) :=
  let cs := (Text.trim name).toList.map Char.toLower
  if lead.isPrefixOf cs then
    let path := Text.strip Text.isBlank (pointUnderscores (cs.drop lead.length))
    let keys := (path.splitOn '.').map String.ofList
    if keys.all (!·.isEmpty) then some keys else none
  else none

/-- A value at the end of a path through tables. -/
def nested (path : List String) (v : Value) : Value := path.foldr (fun key v => .table [(key, v)]) v

/-- The environment as a source of settings: what its variables give, laid over
one another in the order of their names. -/
def source (environment : List (String × String)) : Value :=
  let sorted := environment.mergeSort fun a b => decide (a.1 ≤ b.1)
  sorted.foldl
    (fun given p =>
      match pathOfName? p.1 with
      | some path => given.overlay (nested path (ofText p.2))
      | none => given)
    (.table [])

end Environment

end Settings

end FlowScript
