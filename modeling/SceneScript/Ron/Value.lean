import SceneScript.Ron.NumberLiteral
import SceneScript.Ron.TextLiteral

/-!
Passing over values of any kind. Brackets may be opened inside each other only so often, and each
one counts twice, for itself and for what stands in it.
-/
namespace SceneScript.Ron

/-- Whether a further element follows, in something that ends with the given character. -/
def hasElement (close : Char) (hadComma : Bool) : Scan Bool := do
  skipBlanks
  let c ← peekOrEnd
  if hadComma then pure (c ≠ close)
  else if c = close then pure false
  else throw .expectedComma

/-- Elements with commas between them, up to what ends them. The first argument bounds the number
of rounds. -/
def elements (close : Char) (element : Scan Unit) : Nat → Bool → Scan Unit
  | 0, _ => throw .endOfText
  | fuel + 1, hadComma => do
    if ← hasElement close hadComma then
      element
      let hadComma ← comma
      elements close element fuel hadComma
    else pure ()

def elementsToEnd (close : Char) (element : Scan Unit) : Scan Unit := fun cursor =>
  elements close element (cursor.rest.length + 1) true cursor

/-- What stands between brackets, and the closing one, from behind the opening one. -/
def enclosed (close : Char) (fault : Fault) (element : Scan Unit) : Scan Unit := do
  elementsToEnd close element
  skipBlanks
  if ← consume (String.ofList [close]) then pure () else throw fault

def member (key value : Scan Unit) : Scan Unit := do
  key
  skipBlanks
  if ← consume ":" then
    skipBlanks
    value
  else throw .expectedColon

/-- Whether the parenthesis that stands next holds a list and no fields: looked up in advance,
without reading anything. -/
def isTuple : Scan Bool := fun cursor =>
  let ahead : Scan Bool := do
    skip 1
    skipBlanks
    fun inner =>
      match identifier inner with
      | .error _ _ => .ok true inner
      | .ok _ inner => (do skipBlanks; pure ((← peekOrEnd) ≠ ':') : Scan Bool) inner
  match ahead cursor with
  | .ok b _ => .ok b cursor
  | .error fault _ => .error fault cursor

/-- The name of a field, which can be any identifier. -/
def fieldName : Scan Unit := do
  let _ ← identifier

/-- A parenthesis with a list or with fields, or nothing where there is no parenthesis. -/
def recordOrUnit (enter key value : Scan Unit) : Scan Unit := do
  if (← peek) = some '(' then
    let tuple ← isTuple
    skip 1
    enter
    if tuple then enclosed ')' .expectedListEnd value
    else enclosed ')' .expectedRecordEnd (member key value)
  else pure ()

/-- An optional value. With the extension it need not be wrapped. -/
def optionValue (implicitSome : Bool) (wrapped : Scan Unit) : Scan Unit := do
  skipBlanks
  if ← consume "(" then
    skipBlanks
    wrapped
    let _ ← comma
    if ← consume ")" then pure () else throw .expectedRecordEnd
  else if implicitSome then wrapped
  else throw .expectedOption

def consumeConstant : Scan Bool := do
  if ← consumeWord "true" then pure true
  else if ← consumeWord "false" then pure true
  else pure false

def consumeEmpty : Scan Bool := do
  if ← consumeWord "None" then pure true
  else if ← consume "()" then pure true
  else if ← consumeWord "inf" then pure true
  else if ← consumeWord "-inf" then pure true
  else consumeWord "NaN"

/-- Reads an identifier if there is one; nothing is read where there is none. -/
def consumeIdentifier : Scan Bool := fun cursor =>
  match identifier cursor with
  | .ok _ cursor => .ok true cursor
  | .error _ _ => .ok false cursor

/-- A value, where `enter` allows or refuses another bracket, `key` reads the name of a field,
`element` what stands in a bracket otherwise, and `wrapped` what an option holds. -/
def valueWith (implicitSome : Bool) (enter key element wrapped : Scan Unit) : Scan Unit := do
  if ← consumeConstant then pure ()
  else if ← consumeWord "Some" then optionValue implicitSome wrapped
  else if ← consumeEmpty then pure ()
  else if ← consumeIdentifier then
    skipBlanks
    recordOrUnit enter key element
  else
    let c ← peekOrEnd
    if c = '(' then recordOrUnit enter key element
    else if c = '[' then do
      skip 1
      enter
      enclosed ']' .expectedListEnd element
    else if c = '{' then do
      skip 1
      enter
      enclosed '}' .expectedMapEnd (member element element)
    else if c.isDigit ∨ c = '+' ∨ c = '-' then number
    else if c = '.' then float
    else if c = '"' ∨ c = 'r' then string
    else if c.toNat = 39 then character
    else throw (.unexpectedByte (leadByte c))

/-- Passes over a value. The argument is what is left of the limit on nesting. -/
def value (implicitSome : Bool) : Nat → Scan Unit
  | 0 => valueWith implicitSome (throw .tooDeep) (throw .tooDeep) (throw .tooDeep) (throw .tooDeep)
  | 1 => valueWith implicitSome (pure ()) (throw .tooDeep) (throw .tooDeep) (value implicitSome 0)
  | limit + 2 =>
    valueWith implicitSome (pure ()) fieldName (value implicitSome limit)
      (value implicitSome (limit + 1))

end SceneScript.Ron
