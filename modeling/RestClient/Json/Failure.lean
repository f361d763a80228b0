import RestClient.Json.Writer
import RestClient.Text.Quoted
import RestClient.Text.Numeral

/-!
# Failures of reading

Why a text is not the JSON that was asked for, and where.  While a text is being read a place is
the number of bytes that are still unread; an error counts lines and columns from the front, a
column being the number of bytes read on its line.
-/

namespace RestClient
namespace Json

/-- What a value begins with: a scalar as a whole, or the bracket of a list or an object. -/
inductive Token where
  | null
  | bool (b : Bool)
  | number (n : Number)
  | string (text : String)
  | list
  | object
deriving DecidableEq

def Token.text : Token -> String
  | .null => "null"
  | .bool true => "boolean `true`"
  | .bool false => "boolean `false`"
  | .number (.integer n) => "integer `" ++ toString n ++ "`"
  | .number (.float x) => "floating point `" ++ String.ofList x.text ++ "`"
  | .string text => "string " ++ Quoted.quote text
  | .list => "sequence"
  | .object => "map"

inductive Fault where
  | endInValue
  | endInString
  | endInList
  | endInObject
  | expectedColon
  | expectedCommaInList
  | expectedCommaInObject
  | expectedWord
  | expectedValue
  | invalidEscape
  | invalidNumber
  | numberOutOfRange
  | invalidCodePoint
  | controlCharacter
  | keyNotString
  | loneSurrogate
  | endInEscape
  | trailingComma
  | trailingCharacters
  | tooDeep
  | wrongType (found : Token) (wanted : String)
  | wrongValue (found : Int) (wanted : String)
  | wrongLength (length : Nat) (wanted : String)
  | missingField (name : String)
  | duplicateField (name : String)
deriving DecidableEq

def Fault.text : Fault -> String
  | .endInValue => "EOF while parsing a value"
  | .endInString => "EOF while parsing a string"
  | .endInList => "EOF while parsing a list"
  | .endInObject => "EOF while parsing an object"
  | .expectedColon => "expected `:`"
  | .expectedCommaInList => "expected `,` or `]`"
  | .expectedCommaInObject => "expected `,` or `\x7d`"
  | .expectedWord => "expected ident"
  | .expectedValue => "expected value"
  | .invalidEscape => "invalid escape"
  | .invalidNumber => "invalid number"
  | .numberOutOfRange => "number out of range"
  | .invalidCodePoint => "invalid unicode code point"
  | .controlCharacter => "control character (\\u0000-\\u001F) found while parsing a string"
  | .keyNotString => "key must be a string"
  | .loneSurrogate => "lone leading surrogate in hex escape"
  | .endInEscape => "unexpected end of hex escape"
  | .trailingComma => "trailing comma"
  | .trailingCharacters => "trailing characters"
  | .tooDeep => "recursion limit exceeded"
  | .wrongType found wanted => "invalid type: " ++ found.text ++ ", expected " ++ wanted
  | .wrongValue found wanted =>
    "invalid value: integer `" ++ toString found ++ "`, expected " ++ wanted
  | .wrongLength length wanted =>
    "invalid length " ++ toString length ++ ", expected " ++ wanted
  | .missingField name => "missing field `" ++ name ++ "`"
  | .duplicateField name => "duplicate field `" ++ name ++ "`"

/-- A fault and the number of bytes that were unread when it was found. -/
structure Failure where
  fault : Fault
  unread : Nat
deriving DecidableEq

/-- A place in a text: lines count from one, columns count the bytes read on the line. -/
structure Place where
  line : Nat
  column : Nat
deriving DecidableEq

namespace Place

def start : Place := ⟨1, 0⟩

def advance (place : Place) (b : UInt8) : Place :=
  if b == 0x0A then ⟨place.line + 1, 0⟩ else ⟨place.line, place.column + 1⟩

def after (bytes : List UInt8) : Place := bytes.foldl advance start

def text (place : Place) : String :=
  " at line " ++ toString place.line ++ " column " ++ toString place.column

end Place

structure Error where
  fault : Fault
  place : Place
deriving DecidableEq

def Error.text (e : Error) : String := e.fault.text ++ e.place.text

def Failure.locate (input : List UInt8) (f : Failure) : Error :=
  ⟨f.fault, .after (input.take (input.length - f.unread))⟩

/-!
## Messages that state a place

A writer may report a message that ends in a place of its own, as in `bad at line 3 column 7`.
The place is then taken for the error's: it is written again in plain numerals, and dropped if the
line is zero, which means that there is none.
-/

def splitLast (mark text : List Char) : Option (List Char × List Char) :=
  match text with
  | [] => if mark.isEmpty then some ([], []) else none
  | c :: rest =>
    match splitLast mark rest with
    | some (before, after) => some (c :: before, after)
    | none =>
      if mark.isPrefixOf text then some ([], text.drop mark.length) else none

/-- A message and the place at its end, if it states one. -/
def statedPlace (message : List Char) : Option (List Char × Place) :=
  match splitLast " at line ".toList message with
  | none => none
  | some (before, after) =>
    match splitLast " column ".toList after with
    | none => none
    | some (line, column) =>
      match Numeral.word? line, Numeral.word? column with
      | some line, some column => some (before, ⟨line, column⟩)
      | _, _ => none

/-- The text under which a writer's message is reported. -/
def reported (message : String) : String :=
  match statedPlace message.toList with
  | some (before, place) =>
    if place.line == 0 then String.ofList before else String.ofList before ++ place.text
  | none => message

end Json
end RestClient
