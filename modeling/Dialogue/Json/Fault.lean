import Dialogue.Json.Number
import Dialogue.Text.Quoted

/-!
# What can be wrong with a document

Faults of the text itself and faults of its shape, with the wording of each.
-/
namespace Dialogue.Json

/-- What a text was in the middle of when it ended. -/
inductive Region where
  | value
  | text
  | list
  | object
  deriving DecidableEq, Repr

/-- What stands where something else was wanted. -/
inductive Found where
  | null
  | bool (b : Bool)
  | number (n : Number)
  | text (s : String)
  | list
  | object
  deriving DecidableEq, Repr

inductive Wanted where
  | text
  | list
  | index
  | record (title : String)
  | tagged (title : String)
  | tag
  deriving DecidableEq, Repr

inductive Fault where
  | endOfText (region : Region)
  | noValue
  | badWord
  | badNumber
  | numberTooLarge
  | noCommaInList
  | noCommaInObject
  | noColon
  | keyNotText
  | trailingComma
  | trailingCharacters
  | badEscape
  | controlCharacter
  | unfinishedPair
  | loneSurrogate
  | tooDeep
  | wrongType (found : Found) (wanted : Wanted)
  | negativeIndex (n : Integer)
  | tooShort (length : Nat) (title : String) (fields : Nat)
  | tooLong (length fields : Nat)
  | duplicateField (name : String)
  | missingField (name : String)
  | unknownTag (name : String) (known : List String)
  deriving DecidableEq, Repr

def Region.phrase : Region → String
  | .value => "a value"
  | .text => "a string"
  | .list => "a list"
  | .object => "an object"

def Found.phrase : Found → String
  | .null => "null"
  | .bool b => s!"boolean `{b}`"
  | .number (.integer n) => "integer `" ++ String.ofList n.chars ++ "`"
  | .number (.real x) => "floating point `" ++ String.ofList (numberLayout.number x) ++ "`"
  | .text s => "string " ++ Text.quoted s
  | .list => "sequence"
  | .object => "map"

def Wanted.phrase : Wanted → String
  | .text => "a string"
  | .list => "a sequence"
  | .index => "usize"
  | .record title => "struct " ++ title
  | .tagged title => "internally tagged enum " ++ title
  | .tag => "variant identifier"

def elements (n : Nat) : String := if n = 1 then "1 element" else toString n ++ " elements"

def inBackticks (s : String) : String := "`" ++ s ++ "`"

def oneOf : List String → String
  | [] => "there are no variants"
  | [a] => inBackticks a
  | [a, b] => inBackticks a ++ " or " ++ inBackticks b
  | names => "one of " ++ ", ".intercalate (names.map inBackticks)

def Fault.message : Fault → String
  | .endOfText region => "EOF while parsing " ++ region.phrase
  | .noValue => "expected value"
  | .badWord => "expected ident"
  | .badNumber => "invalid number"
  | .numberTooLarge => "number out of range"
  | .noCommaInList => "expected `,` or `]`"
  | .noCommaInObject => "expected `,` or `\x7d`"
  | .noColon => "expected `:`"
  | .keyNotText => "key must be a string"
  | .trailingComma => "trailing comma"
  | .trailingCharacters => "trailing characters"
  | .badEscape => "invalid escape"
  | .controlCharacter => "control character (\\u0000-\\u001F) found while parsing a string"
  | .unfinishedPair => "unexpected end of hex escape"
  | .loneSurrogate => "lone leading surrogate in hex escape"
  | .tooDeep => "recursion limit exceeded"
  | .wrongType found wanted => "invalid type: " ++ found.phrase ++ ", expected " ++ wanted.phrase
  | .negativeIndex n =>
    "invalid value: integer `" ++ String.ofList n.chars ++ "`, expected " ++ Wanted.index.phrase
  | .tooShort length title fields =>
    "invalid length " ++ toString length ++ ", expected struct " ++ title ++ " with " ++
      elements fields
  | .tooLong length fields =>
    "invalid length " ++ toString length ++ ", expected " ++ elements fields ++ " in sequence"
  | .duplicateField name => "duplicate field " ++ inBackticks name
  | .missingField name => "missing field " ++ inBackticks name
  | .unknownTag name known =>
    "unknown variant " ++ inBackticks name ++ ", expected " ++ oneOf known

end Dialogue.Json
