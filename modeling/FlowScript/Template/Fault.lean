/-
Why a template cannot be filled, and how each reason is worded.
-/
namespace FlowScript

namespace Template

/-- A reason why a template cannot be filled. -/
inductive Fault where
  /-- A brace opens inside a field. -/
  | extraOpening
  /-- A closing brace stands alone. -/
  | loneClosing
  /-- The template ends inside a field. -/
  | openField
  | noKey
  /-- A width does not fit 64 bits. -/
  | widthTooLarge
  | precisionTooLarge
  /-- A point without digits. -/
  | noPrecision
  /-- A format specifier goes on after its type. -/
  | excess
  | unknownType (type : Char)
  /-- A comma with a type that has no thousands. -/
  | commaType (type : Char)
  | unboundKey (key : String)
  /-- A type that texts do not have. -/
  | notText (type : Char)
  /-- The alternate form, which texts do not have. -/
  | alternate
  | comma
  | sign
  | signPadding
  /-- A reason that is not one of these, as it is worded where it comes from. -/
  | other (text : String)
deriving DecidableEq, Repr

/-- An ASCII character between single quotes. -/
def quotedChar (c : Char) : String :=
  let inner :=
    if c = '\'' then "\\'"
    else if c = '\\' then "\\\\"
    else if c = '\t' then "\\t"
    else if c = '\n' then "\\n"
    else if c = '\r' then "\\r"
    else if c = '\x00' then "\\0"
    else if c.toNat < 0x20 ∨ c.toNat = 0x7f then
      "\\u\x7b" ++ String.ofList (Nat.toDigits 16 c.toNat) ++ "\x7d"
    else String.singleton c
  "'" ++ inner ++ "'"

namespace Fault

/-- The wording of a fault in the template itself. -/
def invalid (detail : String) : String := "Invalid(" ++ detail ++ ")"

/-- The wording of a format that does not suit its value. -/
def typeError (detail : String) : String := "TypeError(" ++ detail ++ ")"

def message : Fault → String
  | extraOpening => invalid "extra \x7b found"
  | loneClosing => invalid "Single '\x7d' encountered in format string"
  | openField => invalid "Expected '\x7d' before end of string"
  | noKey => invalid "must specify identifier"
  | widthTooLarge => invalid "overflow error when parsing width"
  | precisionTooLarge => invalid "overflow error when parsing precision"
  | noPrecision => invalid "Format specifier missing precision"
  | excess => invalid "Invalid format specifier"
  | unknownType c => typeError ("Invalid type specifier: " ++ quotedChar c)
  | commaType c => invalid ("Invalid comma type: " ++ String.singleton c)
  | unboundKey key => "KeyError(Invalid key: " ++ key ++ ")"
  | notText c =>
    typeError ("Unknown format code Some(" ++ quotedChar c ++ ") for object of type 'str'")
  | alternate => typeError "Alternate form (#) not allowed in string format specifier"
  | comma => typeError "Cannot specify ',' with 's'"
  | sign => typeError "Sign not allowed in string format specifier"
  | signPadding => invalid "sign aware zero padding and Align '=' not yet supported"
  | other text => text

end Fault

end Template

end FlowScript
