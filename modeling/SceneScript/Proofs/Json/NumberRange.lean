import SceneScript.Proofs.Decimal.Binary64
import SceneScript.Proofs.Json.NumberLiteral

/-!
Which literals have a number. The digits that are taken in never stand for more than the literal
does, so a literal has a number whenever its exact value leaves some room in the binary format. The
exponent must be one that is tracked.
-/
namespace SceneScript.Json

def digitsFrom (n : Nat) (digits : List Char) : Nat :=
  digits.foldl (fun n d => n * 10 + Text.digitValue d) n

theorem digitsValue_append (ds es : List Char) :
    digitsValue (ds ++ es) = digitsFrom (digitsValue ds) es := List.foldl_append

/-- Every further digit makes a number ten times as large, or more. -/
theorem mul_le_digitsFrom (n : Nat) (ds : List Char) : n * 10 ^ ds.length ≤ digitsFrom n ds := by
  induction ds generalizing n with
  | nil => simp [digitsFrom]
  | cons d ds ih =>
    have hnext := ih (n * 10 + Text.digitValue d)
    have hscaled : n * 10 * 10 ^ ds.length ≤ (n * 10 + Text.digitValue d) * 10 ^ ds.length :=
      Nat.mul_le_mul_right _ (Nat.le_add_right _ _)
    rw [List.length_cons, Nat.pow_succ', ← Nat.mul_assoc]
    exact le_trans hscaled hnext

section

variable {bound n : Nat} {d : Char} {ds : List Char}

theorem absorb_cons_of_lt (h : n * 10 + Text.digitValue d < bound) :
    absorb bound n (d :: ds) = absorb bound (n * 10 + Text.digitValue d) ds := if_pos h

theorem absorb_cons_of_not_lt (h : ¬ n * 10 + Text.digitValue d < bound) :
    absorb bound n (d :: ds) = (n, d :: ds) := if_neg h

theorem absorb_lt (h : n < bound) (ds : List Char) : (absorb bound n ds).1 < bound := by
  induction ds generalizing n with
  | nil => exact h
  | cons d ds ih =>
    by_cases hnext : n * 10 + Text.digitValue d < bound
    · rw [absorb_cons_of_lt hnext]
      exact ih hnext
    · rw [absorb_cons_of_not_lt hnext]
      exact h

/-- The digits that are left over only add to what was taken in. -/
theorem absorb_le (bound n : Nat) (ds : List Char) :
    (absorb bound n ds).1 * 10 ^ (absorb bound n ds).2.length ≤ digitsFrom n ds := by
  induction ds generalizing n with
  | nil => simp [absorb, digitsFrom]
  | cons d ds ih =>
    by_cases hnext : n * 10 + Text.digitValue d < bound
    · rw [absorb_cons_of_lt hnext]
      exact ih _
    · rw [absorb_cons_of_not_lt hnext]
      exact mul_le_digitsFrom n (d :: ds)

theorem length_absorb_le (bound n : Nat) (ds : List Char) :
    (absorb bound n ds).2.length ≤ ds.length := by
  induction ds generalizing n with
  | nil => exact Nat.le_refl _
  | cons d ds ih =>
    by_cases hnext : n * 10 + Text.digitValue d < bound
    · rw [absorb_cons_of_lt hnext]
      exact Nat.le_succ_of_le (ih _)
    · rw [absorb_cons_of_not_lt hnext]

/-- When no digit is left over, all of them have been taken in. -/
theorem absorb_of_left_eq_nil (h : (absorb bound n ds).2 = []) :
    (absorb bound n ds).1 = digitsFrom n ds := by
  induction ds generalizing n with
  | nil => rfl
  | cons d ds ih =>
    by_cases hnext : n * 10 + Text.digitValue d < bound
    · rw [absorb_cons_of_lt hnext] at h ⊢
      exact ih h
    · rw [absorb_cons_of_not_lt hnext] at h
      cases h

theorem absorb_of_length_eq (h : (absorb bound n ds).2.length = ds.length) :
    (absorb bound n ds).1 = n := by
  cases ds with
  | nil => rfl
  | cons d ds =>
    by_cases hnext : n * 10 + Text.digitValue d < bound
    · have hle := length_absorb_le bound (n * 10 + Text.digitValue d) ds
      rw [absorb_cons_of_lt hnext, List.length_cons] at h
      omega
    · rw [absorb_cons_of_not_lt hnext]

/-- Digits are left over only when the bound would be reached. -/
theorem bound_le_of_left_ne_nil (h : (absorb bound n ds).2 ≠ []) :
    bound * 10 ^ ((absorb bound n ds).2.length - 1) ≤ digitsFrom n ds := by
  induction ds generalizing n with
  | nil => exact absurd rfl h
  | cons d ds ih =>
    by_cases hnext : n * 10 + Text.digitValue d < bound
    · rw [absorb_cons_of_lt hnext] at h ⊢
      exact ih h
    · rw [absorb_cons_of_not_lt hnext]
      have hscaled := Nat.mul_le_mul_right (10 ^ ds.length) (Nat.le_of_not_lt hnext)
      exact le_trans hscaled (mul_le_digitsFrom _ ds)

end

/-- Digits that stand for less than the bound are all taken in. -/
theorem absorb_of_lt {bound : Nat} {ds : List Char} (h : digitsValue ds < bound) :
    absorb bound 0 ds = (digitsValue ds, []) := by
  have hleft : (absorb bound 0 ds).2 = [] := by
    by_contra hleft
    have hbound := bound_le_of_left_ne_nil hleft
    have hpow : 0 < 10 ^ ((absorb bound 0 ds).2.length - 1) := Nat.pow_pos (by decide)
    have hle : bound ≤ digitsValue ds := le_trans (Nat.le_mul_of_pos_right bound hpow) hbound
    omega
  exact Prod.ext (absorb_of_left_eq_nil hleft) hleft

namespace NumberLiteral

def unscaled (n : NumberLiteral) : ℚ :=
  digitsValue (n.whole ++ n.fraction) / 10 ^ n.fraction.length

theorem magnitude_eq (n : NumberLiteral) :
    n.magnitude = n.unscaled * 10 ^ (n.exponent.map Exponent.value).getD 0 := by
  rw [magnitude, unscaled, zpow_sub₀ (by norm_num), zpow_natCast, ← mul_div_assoc,
    mul_div_right_comm]

/-- The digits behind the point only add to those before it. -/
theorem whole_le_unscaled (n : NumberLiteral) : (digitsValue n.whole : ℚ) ≤ n.unscaled := by
  rw [unscaled, le_div_iff₀ (by positivity), digitsValue_append]
  exact_mod_cast mul_le_digitsFrom _ n.fraction

theorem wholeScaled_lt (n : NumberLiteral) : n.wholeScaled.significand < wordBound :=
  absorb_lt (by decide) n.whole

/-- Digits before the point that are not taken in count as zeros. -/
theorem wholeScaled_le (n : NumberLiteral) :
    (n.wholeScaled.significand : ℚ) * 10 ^ n.wholeScaled.power ≤ n.unscaled := by
  have hwhole : (n.wholeScaled.significand : ℚ) * 10 ^ n.wholeScaled.power ≤
      digitsValue n.whole := by
    simp only [wholeScaled, zpow_natCast]
    exact_mod_cast absorb_le wordBound 0 n.whole
  exact le_trans hwhole n.whole_le_unscaled

theorem scaled_lt (n : NumberLiteral) : n.scaled.significand < wordBound :=
  absorb_lt n.wholeScaled_lt n.fraction

/-- When digits before the point are left over, taking in others behind it makes up for no more
than the first of those left over. -/
theorem scaled_le (n : NumberLiteral) :
    (n.scaled.significand : ℚ) * 10 ^ n.scaled.power ≤ n.unscaled := by
  have hlength := length_absorb_le wordBound n.wholeScaled.significand n.fraction
  have hpower : n.scaled.power = n.wholeScaled.power - (n.fraction.length -
      (absorb wordBound n.wholeScaled.significand n.fraction).2.length : Nat) := rfl
  have hwholePower : n.wholeScaled.power = (absorb wordBound 0 n.whole).2.length := rfl
  by_cases hwhole : (absorb wordBound 0 n.whole).2 = []
  · have hsignificand : n.wholeScaled.significand = digitsValue n.whole :=
      absorb_of_left_eq_nil hwhole
    have hzero : n.wholeScaled.power = 0 := by simp [hwholePower, hwhole]
    have hle := absorb_le wordBound n.wholeScaled.significand n.fraction
    rw [hpower, hzero, Nat.cast_sub hlength, zero_sub, neg_sub, zpow_sub₀ (by norm_num),
      zpow_natCast, zpow_natCast, ← mul_div_assoc, unscaled, digitsValue_append, ← hsignificand]
    apply div_le_div_of_nonneg_right _ (by positivity)
    exact_mod_cast hle
  by_cases hnone : (absorb wordBound n.wholeScaled.significand n.fraction).2.length =
      n.fraction.length
  · have hsignificand : n.scaled.significand = n.wholeScaled.significand :=
      absorb_of_length_eq hnone
    rw [hsignificand, hpower, hnone, Nat.sub_self, Nat.cast_zero, sub_zero]
    exact n.wholeScaled_le
  · have hbound : (wordBound : ℚ) * 10 ^ ((absorb wordBound 0 n.whole).2.length - 1) ≤
        digitsValue n.whole := by
      exact_mod_cast bound_le_of_left_ne_nil hwhole
    have hpos : 0 < (absorb wordBound 0 n.whole).2.length := List.length_pos_iff.mpr hwhole
    have hpowers : (10 : ℚ) ^ n.scaled.power ≤
        10 ^ ((absorb wordBound 0 n.whole).2.length - 1) := by
      rw [← zpow_natCast]
      apply zpow_le_zpow_right₀ (by norm_num)
      rw [hpower, hwholePower]
      omega
    have hsignificand : (n.scaled.significand : ℚ) ≤ wordBound := by
      exact_mod_cast n.scaled_lt.le
    calc (n.scaled.significand : ℚ) * 10 ^ n.scaled.power
        ≤ wordBound * 10 ^ ((absorb wordBound 0 n.whole).2.length - 1) :=
          mul_le_mul hsignificand hpowers (zpow_pos (by norm_num) _).le (Nat.cast_nonneg _)
      _ ≤ digitsValue n.whole := hbound
      _ ≤ n.unscaled := n.whole_le_unscaled

theorem binary?_isSome {isNegative : Bool} {x : Scaled} (hword : x.significand < wordBound)
    (h : (x.significand : ℚ) * 10 ^ x.power ≤ 2 ^ 1021) : (binary? isNegative x).isSome := by
  rw [binary?, Option.isSome_map]
  exact Decimal.Binary64.ofDecimal_isSome hword.le h

theorem whole?_isSome {isNegative : Bool} {x : Scaled} (hword : x.significand < wordBound)
    (h : (x.significand : ℚ) * 10 ^ x.power ≤ 2 ^ 1021) : (whole? isNegative x).isSome := by
  unfold whole?
  split
  · exact binary?_isSome hword h
  split
  · rfl
  split
  · rfl
  · exact binary?_isSome hword h

/-- An exponent that is tracked leads out of the format only if the exact value does. -/
theorem scale?_isSome {e : Exponent} {isNegative : Bool} {x : Scaled}
    (he : digitsValue e.digits < exponentBound) (hword : x.significand < wordBound)
    (h : (x.significand : ℚ) * 10 ^ x.power * 10 ^ e.value ≤ 2 ^ 1021) :
    (e.scale? isNegative x).isSome := by
  rw [mul_assoc, ← zpow_add₀ (by norm_num)] at h
  have hpower : (if e.isDown then x.power - digitsValue e.digits
      else x.power + digitsValue e.digits) = x.power + e.value := by
    unfold Exponent.value
    split
    · exact sub_eq_add_neg _ _
    · rfl
  rw [Exponent.scale?, absorb_of_lt he]
  dsimp only
  rw [hpower]
  exact binary?_isSome (x := ⟨x.significand, x.power + e.value⟩) hword h

/-- The exact value is some way from the end of the binary format, and the exponent is one that is
tracked. -/
structure IsSmall (n : NumberLiteral) : Prop where
  magnitude_le : n.magnitude ≤ 2 ^ 1021
  exponent_lt : ∀ e ∈ n.exponent, digitsValue e.digits < exponentBound

/-- Neither the digits that are taken in nor their scaling leads out of the format. -/
theorem IsSmall.number_isSome {n : NumberLiteral} (h : n.IsSmall) : n.number.isSome := by
  have hmagnitude := h.magnitude_le
  rw [magnitude_eq] at hmagnitude
  unfold number
  cases he : n.exponent with
  | none =>
    simp only [he, Option.map_none, Option.getD_none, zpow_zero, mul_one] at hmagnitude
    dsimp only
    split
    · exact whole?_isSome n.wholeScaled_lt (le_trans n.wholeScaled_le hmagnitude)
    · exact binary?_isSome n.scaled_lt (le_trans n.scaled_le hmagnitude)
  | some e =>
    simp only [he, Option.map_some, Option.getD_some] at hmagnitude
    have hpos : (0 : ℚ) ≤ 10 ^ e.value := (zpow_pos (by norm_num) _).le
    have hscaled := mul_le_mul_of_nonneg_right n.scaled_le hpos
    exact scale?_isSome (h.exponent_lt e he) n.scaled_lt (le_trans hscaled hmagnitude)

end NumberLiteral

end SceneScript.Json
