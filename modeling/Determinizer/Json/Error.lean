/-! Why a text is not read as JSON. A malformed text is faulted at a place; the two limits of the
reader, on the digits of an integer and on nesting, have no place. -/

namespace Determinizer.Json

inductive Problem where
  | expectedValue
  | expectedName
  | expectedColon
  | expectedComma
  | extraData
  | unterminatedString
  | invalidControl
  | invalidEscape
  | invalidUnicodeEscape
  | byteOrderMark
deriving DecidableEq, Repr

def Problem.message : Problem → String
  | expectedValue => "Expecting value"
  | expectedName => "Expecting property name enclosed in double quotes"
  | expectedColon => "Expecting ':' delimiter"
  | expectedComma => "Expecting ',' delimiter"
  | extraData => "Extra data"
  | unterminatedString => "Unterminated string starting at"
  | invalidControl => "Invalid control character at"
  | invalidEscape => "Invalid \\escape"
  | invalidUnicodeEscape => "Invalid \\uXXXX escape"
  | byteOrderMark => "Unexpected UTF-8 BOM (decode using utf-8-sig)"

inductive Container where
  | array
  | object
deriving DecidableEq, Repr

def Container.name : Container → String
  | array => "array"
  | object => "object"

def maxDigits : Nat := 4300

/-- A place in a text: lines and columns count from one, positions from zero. -/
structure Place where
  line : Nat
  column : Nat
  position : Nat
deriving DecidableEq, Repr

def Place.at (text : List Char) (position : Nat) : Place :=
  let before := text.take position
  ⟨before.count '\n' + 1, (before.reverse.takeWhile (· ≠ '\n')).length + 1, position⟩

inductive Limit where
  | digits (count : Nat)
  | depth (container : Container)
deriving DecidableEq, Repr

def Limit.message : Limit → String
  | digits count =>
    s!"Exceeds the limit ({maxDigits} digits) for integer string conversion: value has {count} " ++
      "digits; use sys.set_int_max_str_digits() to increase the limit"
  | depth container =>
    s!"maximum recursion depth exceeded while decoding a JSON {container.name} from a unicode " ++
      "string"

inductive ReadError where
  | malformed (problem : Problem) (place : Place)
  | limit (limit : Limit)
deriving DecidableEq, Repr

def Place.locate (place : Place) (problem : Problem) : String :=
  s!"{problem.message}: line {place.line} column {place.column} (char {place.position})"

def ReadError.message : ReadError → String
  | malformed problem place => place.locate problem
  | limit l => l.message

end Determinizer.Json
