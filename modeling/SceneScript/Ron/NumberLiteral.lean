import SceneScript.Ron.Identifier
import SceneScript.Text.Digits

/-!
Number literals whose value nobody asks for. An integer has a base and fits 64 bits; what does not
read as an integer is tried as a decimal number from the same place in the text, but the counted
place stays ahead by what the first attempt took.
-/
namespace SceneScript.Ron

def isIntegerChar (c : Char) : Bool := (Text.hexValue c).isSome || c = '_'

def isFloatChar (c : Char) : Bool :=
  c.isDigit || c = 'e' || c = 'E' || c = '.' || c = '+' || c = '-' || c = '_'

def baseOf : List Char → Nat
  | '0' :: 'x' :: _ => 16
  | '0' :: 'b' :: _ => 2
  | '0' :: 'o' :: _ => 8
  | _ => 10

/-- The value of digits, underscores left out, as long as it does not pass a bound. -/
def integerValue (base bound : Nat) : Nat → List Char → Except Fault Nat
  | n, [] => .ok n
  | n, c :: cs =>
    if c = '_' then integerValue base bound n cs
    else if bound < n * base then .error .integerTooLarge
    else match Text.hexValue c with
      | none => .error .badHexDigit
      | some digit =>
        if base ≤ digit then .error .expectedInteger
        else if bound < n * base + digit then .error .integerTooLarge
        else integerValue base bound (n * base + digit) cs

def integer (bound : Nat) : Scan Unit := fun cursor =>
  let base := baseOf cursor.rest
  let cursor := if base = 10 then cursor else cursor.advance 2
  match cursor.rest.takeWhile isIntegerChar with
  | [] => .error .expectedInteger cursor
  | c :: cs =>
    if c = '_' then .error .leadingUnderscore cursor
    else
      let behind := cursor.advance (cs.length + 1)
      match integerValue base bound 0 (c :: cs) with
      | .ok _ => .ok () behind
      | .error fault => .error fault behind

def isExponent : List Char → Bool
  | [] => true
  | c :: cs =>
    (c = 'e' || c = 'E') &&
      let digits := match cs with
        | '+' :: rest => rest
        | '-' :: rest => rest
        | rest => rest
      !digits.isEmpty && digits.all Char.isDigit

/-- Decimal numbers have a digit before or behind the point, which may be missing. -/
def isDecimal (cs : List Char) : Bool :=
  let unsigned := match cs with
    | '+' :: rest => rest
    | '-' :: rest => rest
    | rest => rest
  let whole := unsigned.takeWhile Char.isDigit
  match unsigned.dropWhile Char.isDigit with
  | '.' :: rest =>
    let fraction := rest.takeWhile Char.isDigit
    !(whole.isEmpty && fraction.isEmpty) && isExponent (rest.dropWhile Char.isDigit)
  | rest => !whole.isEmpty && isExponent rest

def specialFloats : List String := ["inf", "+inf", "-inf", "NaN", "+NaN", "-NaN"]

/-- Reads a decimal number. Underscores are allowed in integers only. -/
def float : Scan Unit := fun cursor =>
  match specialFloats.find? fun name => startsWithWord name.toList cursor.rest with
  | some name => .ok () (cursor.advance name.toList.length)
  | none =>
    let chars := cursor.rest.takeWhile isFloatChar
    if chars.contains '_' then
      .error .floatUnderscore (cursor.advance (chars.takeWhile (· ≠ '_')).length)
    else if isDecimal chars then .ok () (cursor.advance chars.length)
    else .error .expectedFloat (cursor.advance chars.length)

def unsigned : List Char → List Char
  | '+' :: rest => rest
  | '-' :: rest => rest
  | rest => rest

/-- More characters of a decimal number stand here than of an integer. -/
def looksLikeFloat (rest : List Char) : Bool :=
  ((unsigned rest).takeWhile isIntegerChar).length < ((unsigned rest).takeWhile isFloatChar).length

/-- Reads an integer with its sign; a negative one reaches one further. -/
def signedInteger : Scan Unit := fun cursor =>
  match cursor.rest with
  | '+' :: _ => integer (Nat.pow 2 63 - 1) (cursor.advance 1)
  | '-' :: _ => integer (Nat.pow 2 63) (cursor.advance 1)
  | _ => integer (Nat.pow 2 64 - 1) cursor

def number : Scan Unit := fun cursor =>
  if looksLikeFloat cursor.rest then float cursor
  else
    match signedInteger cursor with
    | .ok _ cursor => .ok () cursor
    | .error _ failed => float ⟨cursor.rest, failed.position⟩

end SceneScript.Ron
