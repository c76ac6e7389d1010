import SceneScript.Decimal.Binary64

/-!
The shortest decimal text of a magnitude: the fewest digits that are read back as the same
magnitude, and of several such the nearest.
-/
namespace SceneScript.Decimal

/-- The decimal number `0.digits * 10 ^ point`. -/
structure Digits where
  digits : List Char
  point : Int

/-- How far positional writing reaches, by the power of ten of the first digit. -/
structure Layout where
  least : Int
  greatest : Int

/-- Numbers from 0.00001 up to sixteen digits before the point are written positionally. -/
def plainLayout : Layout := ⟨-5, 15⟩

namespace Binary64

/-- The magnitudes halfway to the two neighbours, in quarters of the last place. -/
def bounds (x : Binary64) : Nat × Nat :=
  let below := if x.mantissa = Nat.pow 2 52 ∧ leastExponent < x.exponent then 1 else 2
  (4 * x.mantissa - below, 4 * x.mantissa + 2)

/-- Whether a quotient rounds to the magnitude; the ends of the interval do if the mantissa is
even. -/
def covers (x : Binary64) (num den : Nat) : Bool :=
  let (low, high) := x.bounds
  let (lowNum, lowDen) := scaled low 1 (x.exponent - 2)
  let (highNum, highDen) := scaled high 1 (x.exponent - 2)
  if x.mantissa % 2 = 0 then lowNum * den ≤ num * lowDen ∧ num * highDen ≤ highNum * den
  else lowNum * den < num * lowDen ∧ num * highDen < highNum * den

def scaledByTen (num den : Nat) : Int → Nat × Nat
  | .ofNat n => (num * Nat.pow 10 n, den)
  | .negSucc n => (num, den * Nat.pow 10 (n + 1))

/-- The power `p` with `10 ^ (p - 1) ≤ num / den < 10 ^ p`, sought upwards from a lower bound. -/
def decimalPoint (num den : Nat) : Nat → Int → Int
  | 0, p => p
  | fuel + 1, p =>
    let (n, d) := scaledByTen num den (-p)
    if n < d then p else decimalPoint num den fuel (p + 1)

/-- The nearest multiple of a power of ten that rounds to the magnitude, if one does. -/
def onGrid (x : Binary64) (num den : Nat) (power : Int) : Option Nat :=
  let (n, d) := scaledByTen num den (-power)
  let low := n / d
  let fits (k : Nat) : Bool :=
    let (kn, kd) := scaledByTen k 1 power
    x.covers kn kd
  let nearer := if 2 * (n % d) < d ∨ (2 * (n % d) = d ∧ low % 2 = 0) then low else low + 1
  let farther := if nearer = low then low + 1 else low
  if fits nearer then some nearer else if fits farther then some farther else none

/-- Tries one digit, then two, and so on; seventeen always suffice. -/
def shortestFrom (x : Binary64) (num den : Nat) (point : Int) : Nat → Nat → Nat × Int
  | 0, count => ((onGrid x num den (point - count)).getD 0, point - count)
  | fuel + 1, count =>
    match onGrid x num den (point - count) with
    | some k => (k, point - count)
    | none => shortestFrom x num den point fuel (count + 1)

def shortest (x : Binary64) : Digits :=
  let (num, den) := scaled x.mantissa 1 x.exponent
  let start : Int := (magnitudeExponent num den) * 30103 / 100000 - 1
  let point := decimalPoint num den 8 start
  let (k, power) := shortestFrom x num den point 17 1
  let digits := (toString k).toList
  let trimmed := (digits.reverse.dropWhile (· = '0')).reverse
  ⟨trimmed, power + digits.length⟩

end Binary64

def zeros (n : Nat) : List Char := List.replicate n '0'

/-- Positional text has digits on both sides of the point. -/
def Digits.positional (x : Digits) : List Char :=
  match x.point with
  | .negSucc n => ['0', '.'] ++ zeros (n + 1) ++ x.digits
  | .ofNat 0 => ['0', '.'] ++ x.digits
  | .ofNat n =>
    if x.digits.length ≤ n then x.digits ++ zeros (n - x.digits.length) ++ ['.', '0']
    else x.digits.take n ++ '.' :: x.digits.drop n

/-- Scientific text has one digit before the point, and a sign before every exponent. -/
def Digits.scientific (x : Digits) : List Char :=
  let exponent := x.point - 1
  let sign := if exponent < 0 then '-' else '+'
  x.digits.take 1 ++ (if x.digits.length ≤ 1 then [] else '.' :: x.digits.drop 1) ++
    'e' :: sign :: (toString exponent.natAbs).toList

def Binary64.text (x : Binary64) : String :=
  if x.mantissa = 0 then "0.0"
  else
    let digits := x.shortest
    if plainLayout.least ≤ digits.point - 1 ∧ digits.point - 1 ≤ plainLayout.greatest then
      String.ofList digits.positional
    else String.ofList digits.scientific

end SceneScript.Decimal
