/-!
Magnitudes of the binary floating-point format with 53 bits of precision, in exact natural
arithmetic. Results are the nearest representable ones, a half going to the even neighbour, and
a result too large for the format is none.
-/
namespace SceneScript.Decimal

/-- The magnitude `mantissa * 2 ^ exponent`. -/
structure Binary64 where
  mantissa : Nat
  exponent : Int
  deriving DecidableEq

namespace Binary64

def zero : Binary64 := ⟨0, 0⟩

/-- The smallest exponent, which is that of the subnormal magnitudes. -/
def leastExponent : Int := -1074

def greatestExponent : Int := 971

/-- The nearest natural number to a quotient, a half going to the even one. -/
def roundQuotient (num den : Nat) : Nat :=
  let q := num / den
  let r := num % den
  if 2 * r < den then q
  else if den < 2 * r then q + 1
  else q + q % 2

def scaled (num den : Nat) : Int → Nat × Nat
  | .ofNat n => (num * Nat.pow 2 n, den)
  | .negSucc n => (num, den * Nat.pow 2 (n + 1))

/-- The exponent `e` with `2 ^ e ≤ num / den < 2 ^ (e + 1)`. -/
def magnitudeExponent (num den : Nat) : Int :=
  let size : Int := (num.log2 : Int) - (den.log2 : Int)
  let (n, d) := scaled num den (-size)
  if d ≤ n then size else size - 1

/-- The representable magnitude nearest to a quotient. -/
def ofRatio (num den : Nat) : Option Binary64 :=
  if num = 0 then some zero
  else
    let exponent := max (magnitudeExponent num den - 52) leastExponent
    let (n, d) := scaled num den (-exponent)
    let mantissa := roundQuotient n d
    let rounded : Binary64 :=
      if mantissa = Nat.pow 2 53 then ⟨Nat.pow 2 52, exponent + 1⟩ else ⟨mantissa, exponent⟩
    if greatestExponent < rounded.exponent then none else some rounded

def ofNat (n : Nat) : Option Binary64 := ofRatio n 1

def times (x y : Binary64) : Option Binary64 :=
  let (n, d) := scaled (x.mantissa * y.mantissa) 1 (x.exponent + y.exponent)
  ofRatio n d

def dividedBy (x y : Binary64) : Option Binary64 :=
  let (n, d) := scaled x.mantissa y.mantissa (x.exponent - y.exponent)
  ofRatio n d

/-- The largest power of ten that has a nearest representable magnitude. -/
def greatestPower : Nat := 308

/-- Brings a rounded significand to its power of ten in steps that are rounded each. Division by
the greatest power is repeated for exponents far below zero, until nothing is left of the
magnitude. -/
def scaleByTen (x : Binary64) : Int → Option Binary64
  | .ofNat n =>
    if x.mantissa = 0 then some zero
    else if greatestPower < n then none
    else (ofNat (Nat.pow 10 n)).bind x.times
  | .negSucc n => shrink x (n + 1) (n + 1)
where
  shrink (x : Binary64) : Nat → Nat → Option Binary64
    | 0, _ => some x
    | steps + 1, power =>
      if power ≤ greatestPower then (ofNat (Nat.pow 10 power)).bind x.dividedBy
      else if x.mantissa = 0 then some zero
      else do
        let step ← ofNat (Nat.pow 10 greatestPower)
        let y ← x.dividedBy step
        shrink y steps (power - greatestPower)

def ofDecimal (significand : Nat) (power : Int) : Option Binary64 := do
  let x ← ofNat significand
  x.scaleByTen power

end Binary64

end SceneScript.Decimal
