import SceneScript.Json.Scan
import SceneScript.Text.Digits

/-!
String literals: how they are written, how they are read, and how they are passed over. Reading
goes by single characters and carries where in an escape it is.
-/
namespace SceneScript.Json

open Scan

/-- A character inside quotes. Only quotes, backslashes and controls are escaped. -/
def escapedChar (c : Char) : List Char :=
  if c = '"' then ['\\', '"']
  else if c = '\\' then ['\\', '\\']
  else if c = '\n' then ['\\', 'n']
  else if c = '\r' then ['\\', 'r']
  else if c = '\t' then ['\\', 't']
  else if c.toNat = 8 then ['\\', 'b']
  else if c.toNat = 12 then ['\\', 'f']
  else if c.toNat < 32 then
    ['\\', 'u', '0', '0', Text.hexDigit (c.toNat / 16), Text.hexDigit (c.toNat % 16)]
  else [c]

def stringLiteral (s : String) : List Char := '"' :: s.toList.flatMap escapedChar ++ ['"']

/-- Where a reader stands inside a literal. In a numbered escape it knows how many digits are to
come, the value of those read, and the leading half of a surrogate pair if one came before. -/
inductive Within where
  | plain
  | escape
  | digits (missing : Nat) (value : Nat) (leading : Option Nat)
  | afterLeading (leading : Nat)
  | escapeAfterLeading (leading : Nat)

def shortEscape (c : Char) : Option Char :=
  if c = '"' then some '"'
  else if c = '\\' then some '\\'
  else if c = '/' then some '/'
  else if c = 'b' then some (Char.ofNat 8)
  else if c = 'f' then some (Char.ofNat 12)
  else if c = 'n' then some '\n'
  else if c = 'r' then some '\r'
  else if c = 't' then some '\t'
  else none

/-- What four hexadecimal digits amount to. -/
inductive Unit16 where
  | char (c : Char)
  | leading (value : Nat)
  | lone

/-- A trailing half must follow a leading one, and nothing else may. -/
def unit16 (value : Nat) : Option Nat → Unit16
  | none =>
    if 0xDC00 ≤ value ∧ value ≤ 0xDFFF then .lone
    else if 0xD800 ≤ value ∧ value ≤ 0xDBFF then .leading value
    else .char (Char.ofNat value)
  | some leading =>
    if 0xDC00 ≤ value ∧ value ≤ 0xDFFF then
      .char (Char.ofNat ((leading - 0xD800) * 0x400 + (value - 0xDC00) + 0x10000))
    else .lone

/-- The fault of a numbered escape that still wants digits: the text may end before four bytes
are there, otherwise the fault lies behind the fourth. -/
def badDigits {α : Type} (missing : Nat) : Scan α := fun rest =>
  if Text.byteCount rest < missing then .error ⟨.malformed .endInString, some 0⟩ []
  else .error ⟨.malformed .invalidEscape, some (Text.byteCount rest - missing)⟩ rest

/-- Reads a literal from behind its opening quote; the characters read are collected in reverse. -/
def readWithin : Within → List Char → Scan String
  | .digits missing _ _, _, [] => badDigits missing []
  | _, _, [] => failHere .endInString []
  | .plain, acc, c :: rest =>
    if c = '"' then .ok (String.ofList acc.reverse) rest
    else if c = '\\' then readWithin .escape acc rest
    else if c.toNat < 32 then failHere .controlCharacter rest
    else readWithin .plain (c :: acc) rest
  | .escape, acc, c :: rest =>
    if c = 'u' then readWithin (.digits 4 0 none) acc rest
    else match shortEscape c with
      | some d => readWithin .plain (d :: acc) rest
      | none => failAtNext .invalidEscape (c :: rest)
  | .digits missing value leading, acc, c :: rest =>
    match Text.hexValue c with
    | none => badDigits missing (c :: rest)
    | some digit =>
      let value := value * 16 + digit
      if 1 < missing then readWithin (.digits (missing - 1) value leading) acc rest
      else match unit16 value leading with
        | .char d => readWithin .plain (d :: acc) rest
        | .leading half => readWithin (.afterLeading half) acc rest
        | .lone => failHere .loneSurrogate rest
  | .afterLeading leading, acc, c :: rest =>
    if c = '\\' then readWithin (.escapeAfterLeading leading) acc rest
    else failAtNext .incompleteSurrogate (c :: rest)
  | .escapeAfterLeading leading, acc, c :: rest =>
    if c = 'u' then readWithin (.digits 4 0 (some leading)) acc rest
    else failAtNext .incompleteSurrogate (c :: rest)

def readString : Scan String := readWithin .plain []

/-- Passes over a literal from behind its opening quote. Numbered escapes need their digits, but
halves of surrogate pairs may stand alone. -/
def skipWithin : Within → Scan Unit
  | .digits missing _ _, [] => badDigits missing []
  | _, [] => failHere .endInString []
  | .escape, c :: rest =>
    if c = 'u' then skipWithin (.digits 4 0 none) rest
    else if (shortEscape c).isSome then skipWithin .plain rest
    else failAtNext .invalidEscape (c :: rest)
  | .digits missing _ _, c :: rest =>
    if (Text.hexValue c).isNone then badDigits missing (c :: rest)
    else if 1 < missing then skipWithin (.digits (missing - 1) 0 none) rest
    else skipWithin .plain rest
  | _, c :: rest =>
    if c = '"' then .ok () rest
    else if c = '\\' then skipWithin .escape rest
    else if c.toNat < 32 then failHere .controlCharacter (c :: rest)
    else skipWithin .plain rest

def skipString : Scan Unit := skipWithin .plain

end SceneScript.Json
