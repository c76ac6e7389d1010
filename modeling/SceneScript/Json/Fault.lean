import SceneScript.Decimal.Shortest
import SceneScript.Json.Value
import SceneScript.Text.Position
import SceneScript.Text.Quoted

/-!
What can be wrong with a document: it is no JSON, or it is JSON of the wrong shape. A fault found
in the text knows its place; one found in a value does not, until a reader of the text places it.
-/
namespace SceneScript.Json

inductive Malformed where
  | endInValue
  | endInList
  | endInObject
  | endInString
  | expectedColon
  | expectedListEnd
  | expectedObjectEnd
  | expectedWord
  | expectedValue
  | invalidEscape
  | invalidNumber
  | numberOutOfRange
  | keyNotString
  | controlCharacter
  | loneSurrogate
  | incompleteSurrogate
  | trailingComma
  | trailingCharacters
  | tooDeep
  deriving DecidableEq

/-- A value as messages name it. -/
inductive Found where
  | null
  | bool (b : Bool)
  | number (n : Number)
  | string (s : String)
  | array
  | object
  deriving DecidableEq

inductive Unsuitable where
  | wrongType (found : Found) (expected : String)
  | wrongValue (found : Found) (expected : String)
  | wrongLength (count : Nat) (expected : String)
  | missingField (name : String)
  | repeatedField (name : String)
  | unknownField (name : String) (known : List String)
  | unknownVariant (name : String) (known : List String)
  | rejected (reason : String)
  deriving DecidableEq

inductive Cause where
  | malformed (fault : Malformed)
  | unsuitable (fault : Unsuitable)
  deriving DecidableEq

/-- A fault with the number of bytes that were still unread at its place, if it has one. -/
structure Fault where
  cause : Cause
  unread : Option Nat
  deriving DecidableEq

structure Error where
  cause : Cause
  position : Option Text.Position
  deriving DecidableEq

inductive Category where
  | ending
  | grammar
  | data
  deriving DecidableEq

def found : Json → Found
  | .null => .null
  | .bool b => .bool b
  | .number n => .number n
  | .string s => .string s
  | .array _ => .array
  | .object _ => .object

def Number.text : Number → String
  | .natural n => toString n
  | .negative n => "-" ++ toString n
  | .binary isNegative x => (if isNegative then "-" else "") ++ x.text

def Found.description : Found → String
  | .null => "null"
  | .bool b => "boolean `" ++ (if b then "true" else "false") ++ "`"
  | .number (.binary isNegative x) =>
    "floating point `" ++ (Number.binary isNegative x).text ++ "`"
  | .number n => "integer `" ++ n.text ++ "`"
  | .string s => "string " ++ Text.quoted s
  | .array => "sequence"
  | .object => "map"

def Malformed.message : Malformed → String
  | .endInValue => "EOF while parsing a value"
  | .endInList => "EOF while parsing a list"
  | .endInObject => "EOF while parsing an object"
  | .endInString => "EOF while parsing a string"
  | .expectedColon => "expected `:`"
  | .expectedListEnd => "expected `,` or `]`"
  | .expectedObjectEnd => "expected `,` or `\x7d`"
  | .expectedWord => "expected ident"
  | .expectedValue => "expected value"
  | .invalidEscape => "invalid escape"
  | .invalidNumber => "invalid number"
  | .numberOutOfRange => "number out of range"
  | .keyNotString => "key must be a string"
  | .controlCharacter => "control character (\\u0000-\\u001F) found while parsing a string"
  | .loneSurrogate => "lone leading surrogate in hex escape"
  | .incompleteSurrogate => "unexpected end of hex escape"
  | .trailingComma => "trailing comma"
  | .trailingCharacters => "trailing characters"
  | .tooDeep => "recursion limit exceeded"

/-- The names that would have been right: one, two joined by a word, or a list. -/
def alternatives : List String → String
  | [] => "nothing"
  | [name] => "`" ++ name ++ "`"
  | [first, second] => "`" ++ first ++ "` or `" ++ second ++ "`"
  | names => "one of " ++ String.intercalate ", " (names.map fun name => "`" ++ name ++ "`")

def Unsuitable.message : Unsuitable → String
  | .wrongType found expected =>
    "invalid type: " ++ found.description ++ ", expected " ++ expected
  | .wrongValue found expected =>
    "invalid value: " ++ found.description ++ ", expected " ++ expected
  | .wrongLength count expected => "invalid length " ++ toString count ++ ", expected " ++ expected
  | .missingField name => "missing field `" ++ name ++ "`"
  | .repeatedField name => "duplicate field `" ++ name ++ "`"
  | .unknownField name known =>
    "unknown field `" ++ name ++ "`, expected " ++ alternatives known
  | .unknownVariant name known =>
    "unknown variant `" ++ name ++ "`, expected " ++ alternatives known
  | .rejected reason => reason

def Cause.message : Cause → String
  | .malformed fault => fault.message
  | .unsuitable fault => fault.message

def Error.message (e : Error) : String :=
  match e.position with
  | none => e.cause.message
  | some p =>
    e.cause.message ++ " at line " ++ toString p.line ++ " column " ++ toString p.column

/-- A text that stops too early is told apart from one that goes wrong. -/
def Malformed.category : Malformed → Category
  | .endInValue | .endInList | .endInObject | .endInString => .ending
  | _ => .grammar

def Error.category (e : Error) : Category :=
  match e.cause with
  | .malformed fault => fault.category
  | .unsuitable _ => .data

def Fault.locate (text : List Char) (f : Fault) : Error :=
  ⟨f.cause, f.unread.map fun unread => Text.Position.after (Text.byteCount text - unread) text⟩

end SceneScript.Json
