import TaskAudit.Decimal.Digits
import TaskAudit.Text.Quoted

/-!
# What can be wrong with a JSON text

Three kinds of faults: the text ends too early, it is no JSON, or it is JSON that
does not describe the wanted value. The first two are `Malformed`, the last is a
`Mismatch`. An `Error` carries the place in the text, if there was a text.
-/
namespace TaskAudit.Json

inductive Malformed where
  | endInList
  | endInObject
  | endInString
  | endInValue
  | noColon
  | noCommaInList
  | noCommaInObject
  | badWord
  | noValue
  | badEscape
  | badNumber
  | numberTooLarge
  | badCodePoint
  | controlCharacter
  | keyNotText
  | loneSurrogate
  | trailingComma
  | trailingText
  | halfSurrogatePair
  | tooDeep
  deriving DecidableEq, Repr

namespace Malformed

def message : Malformed → String
  | endInList => "EOF while parsing a list"
  | endInObject => "EOF while parsing an object"
  | endInString => "EOF while parsing a string"
  | endInValue => "EOF while parsing a value"
  | noColon => "expected `:`"
  | noCommaInList => "expected `,` or `]`"
  | noCommaInObject => "expected `,` or `\x7d`"
  | badWord => "expected ident"
  | noValue => "expected value"
  | badEscape => "invalid escape"
  | badNumber => "invalid number"
  | numberTooLarge => "number out of range"
  | badCodePoint => "invalid unicode code point"
  | controlCharacter => "control character (\\u0000-\\u001F) found while parsing a string"
  | keyNotText => "key must be a string"
  | loneSurrogate => "lone leading surrogate in hex escape"
  | trailingComma => "trailing comma"
  | trailingText => "trailing characters"
  | halfSurrogatePair => "unexpected end of hex escape"
  | tooDeep => "recursion limit exceeded"

def isEnd : Malformed → Bool
  | endInList | endInObject | endInString | endInValue => true
  | _ => false

end Malformed

/-- What was found where something else was wanted. -/
inductive Found where
  | null
  | bool (b : Bool)
  | int (n : Int)
  | float (text : String)
  | str (s : String)
  | list
  | object
  deriving DecidableEq, Repr

def Found.message : Found → String
  | .null => "null"
  | .bool true => "boolean `true`"
  | .bool false => "boolean `false`"
  | .int n => s!"integer `{Decimal.signedText n}`"
  | .float text => s!"floating point `{text}`"
  | .str s => s!"string {Text.quoted s}"
  | .list => "sequence"
  | .object => "map"

/-- Why a JSON value does not describe the wanted one. -/
inductive Mismatch where
  | wrongType (found : Found) (wanted : String)
  | wrongValue (found : Found) (wanted : String)
  | wrongLength (length : Nat) (wanted : String)
  | missing (field : String)
  | repeated (field : String)
  | unknownName (name : String) (known : List String)
  | reason (text : String)
  deriving DecidableEq, Repr

def Mismatch.message : Mismatch → String
  | .wrongType found wanted => s!"invalid type: {found.message}, expected {wanted}"
  | .wrongValue found wanted => s!"invalid value: {found.message}, expected {wanted}"
  | .wrongLength n wanted => s!"invalid length {Decimal.text n}, expected {wanted}"
  | .missing field => s!"missing field `{field}`"
  | .repeated field => s!"duplicate field `{field}`"
  | .unknownName name known =>
    let list := ", ".intercalate (known.map fun k => "`" ++ k ++ "`")
    s!"unknown variant `{name}`, expected one of {list}"
  | .reason text => text

inductive Cause where
  | malformed (fault : Malformed)
  | mismatch (fault : Mismatch)
  deriving DecidableEq, Repr

def Cause.message : Cause → String
  | .malformed fault => fault.message
  | .mismatch fault => fault.message

/-- A place in a text: lines count from one, columns are bytes read in the line. -/
structure Place where
  line : Nat
  column : Nat
  deriving DecidableEq, Repr

structure Error where
  cause : Cause
  place : Option Place
  deriving DecidableEq, Repr

namespace Error

def message (e : Error) : String :=
  match e.place with
  | none => e.cause.message
  | some p =>
    s!"{e.cause.message} at line {Decimal.text p.line} column {Decimal.text p.column}"

end Error

end TaskAudit.Json
