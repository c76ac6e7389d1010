import SceneScript.Text.Digits

/-!
Decimal digits among the characters, and their values.
-/
namespace SceneScript.Text

/-- A digit is none of the characters that are no digits. -/
theorem ne_of_isDigit {c d : Char} (h : c.isDigit) (hd : d.isDigit = false) : c ≠ d := by
  intro h
  subst h
  rw [h] at hd
  exact absurd hd (by decide)

theorem hexValue_of_isDigit {c : Char} (h : c.isDigit) : hexValue c = some (digitValue c) := by
  rw [hexValue, if_pos h]
  rfl

theorem digitValue_lt_of_isDigit {c : Char} (h : c.isDigit) : digitValue c < 10 := by
  have hbounds := Char.isDigit_iff_toNat.mp h
  have hzero : '0'.toNat = 48 := rfl
  have hnine : '9'.toNat = 57 := rfl
  rw [digitValue]
  omega

end SceneScript.Text
