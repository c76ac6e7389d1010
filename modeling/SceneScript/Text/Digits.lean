/-!
Digits and their values, decimal and hexadecimal.
-/
namespace SceneScript.Text

/-- The value of a decimal digit; what is no digit has no use here. -/
def digitValue (c : Char) : Nat := c.toNat - '0'.toNat

def hexValue (c : Char) : Option Nat :=
  if c.isDigit then some (c.toNat - 48)
  else if 'a' ≤ c ∧ c ≤ 'f' then some (c.toNat - 87)
  else if 'A' ≤ c ∧ c ≤ 'F' then some (c.toNat - 55)
  else none

def hexDigit (n : Nat) : Char :=
  if n < 10 then Char.ofNat (48 + n) else Char.ofNat (87 + n)

theorem hexValue_hexDigit (n : Fin 16) : hexValue (hexDigit n) = some n.val := by
  revert n
  decide

/-- The hexadecimal form without leading zeros, the least significant digit first. -/
def hexDigitsReversed : Nat → Nat → List Char
  | 0, _ => []
  | places + 1, n =>
    hexDigit (n % 16) :: if n < 16 then [] else hexDigitsReversed places (n / 16)

/-- The hexadecimal form of a code point, which needs at most six digits. -/
def hexCode (c : Char) : List Char := (hexDigitsReversed 6 c.toNat).reverse

end SceneScript.Text
