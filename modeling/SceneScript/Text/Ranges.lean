/-!
Sets of characters given as ascending lists of closed ranges of code points.
-/
namespace SceneScript.Text

/-- Looks a code point up in ascending ranges; the first range that ends at or behind it decides. -/
def inRanges : List (Nat × Nat) → Nat → Bool
  | [], _ => false
  | (low, high) :: rest, n => if n ≤ high then decide (low ≤ n) else inRanges rest n

end SceneScript.Text
