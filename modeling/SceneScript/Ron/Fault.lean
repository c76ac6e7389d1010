import SceneScript.Ron.Letter
import SceneScript.Text.Quoted

/-!
What can be wrong with object notation, and how each fault is reported.
-/
namespace SceneScript.Ron

inductive Fault where
  | endOfText
  | expectedList
  | expectedListEnd
  | expectedAttribute
  | expectedAttributeEnd
  | expectedBoolean
  | expectedCharacter
  | expectedColon
  | expectedComma
  | expectedFloat
  | expectedIdentifier
  | expectedInteger
  | expectedMapEnd
  | expectedOption
  | expectedRecord (name : String)
  | expectedRecordEnd
  | expectedString
  | expectedStringEnd
  | differentRecord (expected found : String)
  | suggestRaw (identifier : String)
  | duplicateField (field record : String)
  | unknownExtension (name : String)
  | floatUnderscore
  | integerTooLarge
  | leadingUnderscore
  | unknownEscape
  | badHexDigit
  | escapeWithoutBrace
  | escapeWithoutDigits
  | escapeWithoutEnd
  | escapeNoCharacter
  | unclosedComment
  | unexpectedByte (byte : Nat)
  | trailingCharacters
  | tooDeep
  deriving DecidableEq

/-- The byte as the character of the same number. -/
def shownByte (byte : Nat) : String :=
  let c := Char.ofNat byte
  let shown := if c = '"' then [c] else if byte = 39 then ['\\', c] else Text.shownChar c
  String.ofList (Char.ofNat 39 :: shown ++ [Char.ofNat 39])

def Fault.message : Fault → String
  | .endOfText => "Unexpected end of RON"
  | .expectedList => "Expected opening `[`"
  | .expectedListEnd => "Expected closing `]`"
  | .expectedAttribute => "Expected an `#![enable(...)]` attribute"
  | .expectedAttributeEnd => "Expected closing `)]` after the enable attribute"
  | .expectedBoolean => "Expected boolean"
  | .expectedCharacter => "Expected char"
  | .expectedColon => "Expected colon"
  | .expectedComma => "Expected comma"
  | .expectedFloat => "Expected float"
  | .expectedIdentifier => "Expected identifier"
  | .expectedInteger => "Expected integer"
  | .expectedMapEnd => "Expected closing `\x7d`"
  | .expectedOption => "Expected option"
  | .expectedRecord name => "Expected opening `(` for struct " ++ shownIdentifier name
  | .expectedRecordEnd => "Expected closing `)`"
  | .expectedString => "Expected string"
  | .expectedStringEnd => "Expected end of string"
  | .differentRecord expected found =>
    "Expected struct " ++ shownIdentifier expected ++ " but found " ++ shownIdentifier found
  | .suggestRaw identifier =>
    "Found invalid std identifier `" ++ identifier ++ "`, try the raw identifier `r#" ++
      identifier ++ "` instead"
  | .duplicateField field record =>
    "Unexpected duplicate field " ++ shownIdentifier field ++ " in " ++ shownIdentifier record
  | .unknownExtension name => "No RON extension named " ++ shownIdentifier name
  | .floatUnderscore => "Unexpected underscore in float"
  | .integerTooLarge => "Integer is out of bounds"
  | .leadingUnderscore => "Unexpected leading underscore in an integer"
  | .unknownEscape => "Unknown escape character"
  | .badHexDigit => "Non-hex digit found"
  | .escapeWithoutBrace => "Missing \x7b in Unicode escape"
  | .escapeWithoutDigits => "Expected 1-6 digits, got 0 digits in Unicode escape"
  | .escapeWithoutEnd => "No \x7d at the end of Unicode escape"
  | .escapeNoCharacter => "Not a valid char"
  | .unclosedComment => "Unclosed block comment"
  | .unexpectedByte byte => "Unexpected byte " ++ shownByte byte
  | .trailingCharacters => "Non-whitespace trailing characters"
  | .tooDeep =>
    "Exceeded recursion limit, try increasing the limit and using `serde_stacker` to protect " ++
      "against a stack overflow"

end SceneScript.Ron
