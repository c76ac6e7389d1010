import SceneScript.Json.Scan
import SceneScript.Text.Digits

/-!
Number literals. Whole numbers that fit 64 bits are kept exactly; all others become the nearest
binary number, by way of a significand that takes in digits only as long as it fits 64 bits.
-/
namespace SceneScript.Json

open Scan

/-- Whole numbers below this are kept exactly. -/
def wordBound : Nat := Nat.pow 2 64

/-- Written exponents are tracked up to this; beyond it only their sign matters. -/
def exponentBound : Nat := Nat.pow 2 31

def takeDigits : Scan (List Char) := fun rest =>
  .ok (rest.takeWhile Char.isDigit) (rest.dropWhile Char.isDigit)

/-- Takes digits into a number while the result stays below the bound; returns the number and the
digits left over. -/
def absorb (bound : Nat) (n : Nat) : List Char → Nat × List Char
  | [] => (n, [])
  | d :: ds =>
    let next := n * 10 + Text.digitValue d
    if next < bound then absorb bound next ds else (n, d :: ds)

structure Scaled where
  significand : Nat
  power : Int

/-- The digits before the point: a zero stands alone, and there is at least one digit. -/
def wholeDigits : Scan (List Char) := fun rest =>
  match rest with
  | [] => failHere .endInValue []
  | c :: tail =>
    if c = '0' then
      match tail with
      | [] => .ok ['0'] []
      | d :: tail =>
        if d.isDigit then failAtNext .invalidNumber (d :: tail) else .ok ['0'] (d :: tail)
    else if c.isDigit then takeDigits rest
    else failAtNext .invalidNumber rest

def fractionDigits (x : Scaled) : Scan Scaled := fun rest =>
  match rest with
  | [] => failAtNext .endInValue []
  | c :: _ =>
    if c.isDigit then
      let digits := rest.takeWhile Char.isDigit
      let (significand, left) := absorb wordBound x.significand digits
      .ok ⟨significand, x.power - (digits.length - left.length : Nat)⟩ (rest.dropWhile Char.isDigit)
    else failAtNext .invalidNumber rest

def toBinary (isNegative : Bool) (x : Scaled) : Scan Number := fun rest =>
  match Decimal.Binary64.ofDecimal x.significand x.power with
  | some magnitude => .ok (.binary isNegative magnitude) rest
  | none => failHere .numberOutOfRange rest

def exponentSign : Scan Bool := fun rest =>
  match rest with
  | '+' :: tail => .ok false tail
  | '-' :: tail => .ok true tail
  | _ => .ok false rest

/-- The digits of an exponent. An exponent too large to track makes the number zero if it is
negative or there is nothing to scale, and is a fault otherwise. -/
def exponentDigits (isNegative : Bool) (x : Scaled) (isDown : Bool) : Scan Number := fun rest =>
  match rest with
  | [] => failHere .endInValue []
  | c :: _ =>
    if c.isDigit then
      let digits := rest.takeWhile Char.isDigit
      let behind := rest.dropWhile Char.isDigit
      match absorb exponentBound 0 digits with
      | (exponent, []) =>
        toBinary isNegative
          ⟨x.significand, if isDown then x.power - exponent else x.power + exponent⟩ behind
      | (_, _ :: left) =>
        if x.significand = 0 ∨ isDown then .ok (.binary isNegative .zero) behind
        else failHere .numberOutOfRange (left ++ behind)
    else failAtNext .invalidNumber rest

def exponentPart (isNegative : Bool) (x : Scaled) : Scan Number := do
  exponentDigits isNegative x (← exponentSign)

/-- A whole number: exact where it fits, and `-0` among the binary ones. -/
def wholeNumber (isNegative : Bool) (x : Scaled) : Scan Number :=
  if x.power ≠ 0 then toBinary isNegative x
  else if !isNegative then pure (.natural x.significand)
  else if 0 < x.significand ∧ x.significand ≤ Nat.pow 2 63 then pure (.negative x.significand)
  else toBinary true x

def afterDigits (isNegative : Bool) (x : Scaled) (otherwise : Scan Number) : Scan Number :=
  fun rest =>
    match rest with
    | [] => otherwise []
    | c :: tail =>
      if c = 'e' ∨ c = 'E' then exponentPart isNegative x tail else otherwise rest

def behindWhole (isNegative : Bool) (x : Scaled) : Scan Number := fun rest =>
  match rest with
  | '.' :: tail =>
    match fractionDigits x tail with
    | .ok y rest => afterDigits isNegative y (toBinary isNegative y) rest
    | .error f rest => .error f rest
  | _ => afterDigits isNegative x (wholeNumber isNegative x) rest

def readNumber (isNegative : Bool) : Scan Number := do
  let (significand, left) := absorb wordBound 0 (← wholeDigits)
  behindWhole isNegative ⟨significand, left.length⟩

def skipDigits : Scan Unit := fun rest =>
  match rest with
  | [] => failAtNext .invalidNumber []
  | c :: _ =>
    if c.isDigit then .ok () (rest.dropWhile Char.isDigit) else failAtNext .invalidNumber rest

def skipExponent : Scan Unit := fun rest =>
  match rest with
  | [] => .ok () []
  | c :: tail =>
    if c = 'e' ∨ c = 'E' then
      match tail with
      | '+' :: tail => skipDigits tail
      | '-' :: tail => skipDigits tail
      | _ => skipDigits tail
    else .ok () rest

def skipWhole : Scan Unit := fun rest =>
  match rest with
  | '0' :: c :: tail =>
    if c.isDigit then failAtNext .invalidNumber (c :: tail) else .ok () (c :: tail)
  | _ => skipDigits rest

def skipBehindWhole : Scan Unit := fun rest =>
  match rest with
  | '.' :: tail => (do skipDigits; skipExponent) tail
  | _ => skipExponent rest

/-- Passes over a number from behind its sign, of whatever size it is. -/
def skipNumber : Scan Unit := do
  skipWhole
  skipBehindWhole

end SceneScript.Json
