import SceneScript.Ron.Cursor
import SceneScript.Text.Digits

/-!
Strings and characters whose value nobody asks for. A raw string ends at a quote followed by as
many number signs as it began with.
-/
namespace SceneScript.Ron

/-- Reads one character by its first byte, as a hexadecimal digit. -/
def hexDigit : Scan Nat := do
  let c ← peekOrEnd
  match Text.hexValue c with
  | some digit =>
    skip 1
    pure digit
  | none => byteFault c .badHexDigit

/-- The digits of a numbered escape up to its closing brace: their count and value. -/
def escapeDigits : Nat → Nat → Nat → Scan (Nat × Nat)
  | 0, count, value => pure (count, value)
  | places + 1, count, value => do
    if (← peekOrEnd) = '}' then pure (count, value)
    else
      let digit ← hexDigit
      escapeDigits places (count + 1) (value * 16 + digit)

def expectChar (expected : Char) (fault : Fault) : Scan Unit := do
  let c ← peekOrEnd
  if c = expected then skip 1 else byteFault c fault

def numberedEscape : Scan Unit := do
  expectChar '{' .escapeWithoutBrace
  let (count, value) ← escapeDigits 6 0 0
  if count = 0 then throw .escapeWithoutDigits
  expectChar '}' .escapeWithoutEnd
  if value.isValidChar then pure () else throw .escapeNoCharacter

def escape : Scan Unit := do
  let c ← peekOrEnd
  if c = '"' ∨ c = '\\' ∨ c = 'n' ∨ c = 'r' ∨ c = 't' ∨ c = '0' ∨ c.toNat = 39 then skip 1
  else if c = 'x' then do
    skip 1
    let _ ← hexDigit
    let _ ← hexDigit
  else if c = 'u' then do
    skip 1
    numberedEscape
  else byteFault c .unknownEscape

/-- Goes to the quote that ends a string, and reads it. In a string that never ends, the place of
the fault is behind the last escape. -/
def stringRest : Nat → Scan Unit
  | 0 => throw .expectedStringEnd
  | fuel + 1 => fun cursor =>
    let plain := cursor.rest.takeWhile fun c => c ≠ '"' && c ≠ '\\'
    match cursor.rest.drop plain.length with
    | [] => .error .expectedStringEnd cursor
    | c :: _ =>
      let cursor := cursor.advance (plain.length + 1)
      if c = '"' then .ok () cursor
      else (do escape; stringRest fuel : Scan Unit) cursor

def indexOf (ending : List Char) : Nat → List Char → Option Nat
  | i, [] => if ending.isEmpty then some i else none
  | i, c :: cs => if ending.isPrefixOf (c :: cs) then some i else indexOf ending (i + 1) cs

def rawString : Scan Unit := fun cursor =>
  let hashes := cursor.rest.takeWhile (· = '#')
  let cursor := cursor.advance hashes.length
  match cursor.rest with
  | '"' :: _ =>
    let cursor := cursor.advance 1
    match indexOf ('"' :: hashes) 0 cursor.rest with
    | some i => .ok () (cursor.advance (i + hashes.length + 1))
    | none => .error .expectedStringEnd cursor
  | _ => .error .expectedString cursor

def string : Scan Unit := fun cursor =>
  match cursor.rest with
  | '"' :: _ => stringRest (cursor.rest.length + 1) (cursor.advance 1)
  | 'r' :: _ => rawString (cursor.advance 1)
  | _ => .error .expectedString cursor

def character : Scan Unit := do
  skip 1
  let c ← peekOrEnd
  if c = '\\' then do
    skip 1
    escape
    fun cursor =>
      if cursor.rest.head?.any (·.toNat = 39) then .ok () (cursor.advance 1)
      else .error .expectedCharacter cursor
  else fun cursor =>
    match cursor.rest with
    | d :: e :: _ =>
      if d.toNat ≠ 39 ∧ e.toNat = 39 then .ok () (cursor.advance 2)
      else .error .expectedCharacter cursor
    | _ => .error .expectedCharacter cursor

end SceneScript.Ron
