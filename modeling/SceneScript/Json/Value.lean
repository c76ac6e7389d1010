import SceneScript.Decimal.Binary64

/-!
JSON values. The members of an object keep their order, and a name may occur more than once.
-/
namespace SceneScript

namespace Json

/-- Whole numbers that fit 64 bits are kept exactly, a negative one by its magnitude; every other
number is the nearest binary one. -/
inductive Number where
  | natural (n : Nat)
  | negative (n : Nat)
  | binary (isNegative : Bool) (magnitude : Decimal.Binary64)
  deriving DecidableEq

end Json

inductive Json where
  | null
  | bool (b : Bool)
  | number (n : Json.Number)
  | string (s : String)
  | array (items : List Json)
  | object (members : List (String × Json))

end SceneScript
