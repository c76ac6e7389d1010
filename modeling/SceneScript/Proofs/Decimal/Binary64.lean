import Mathlib.Algebra.Order.Field.Rat
import Mathlib.Tactic.FieldSimp
import Mathlib.Tactic.Linarith
import Mathlib.Tactic.Positivity
import SceneScript.Decimal.Binary64

/-!
Bounds on rounding. A quotient is never rounded beyond a power of two that it does not exceed, and
none that is at least one is rounded below one. This is enough to tell which decimal numbers can be
scaled inside the format.
-/
namespace SceneScript.Decimal.Binary64

def value (x : Binary64) : ℚ := x.mantissa * 2 ^ x.exponent

theorem value_nonneg (x : Binary64) : 0 ≤ x.value :=
  mul_nonneg (Nat.cast_nonneg _) (zpow_pos (by norm_num) _).le

theorem scaled_pos {num den : Nat} (hden : 0 < den) (k : Int) : 0 < (scaled num den k).2 := by
  cases k with
  | ofNat n => exact hden
  | negSucc n => exact Nat.mul_pos hden (Nat.pow_pos (by decide))

/-- Scaling by a power of two, up or down, is exact. -/
theorem scaled_quotient (num den : Nat) (k : Int) :
    ((scaled num den k).1 : ℚ) / (scaled num den k).2 = num / den * 2 ^ k := by
  cases k with
  | ofNat n =>
    simp only [scaled, Nat.pow_eq, Nat.cast_mul, Nat.cast_pow, Nat.cast_ofNat,
      Int.ofNat_eq_natCast, zpow_natCast]
    rw [mul_div_right_comm]
  | negSucc n =>
    simp only [scaled, Nat.pow_eq, Nat.cast_mul, Nat.cast_pow, Nat.cast_ofNat, zpow_negSucc]
    rw [← div_div, div_eq_mul_inv]

/-- Rounding does not pass a natural number that the quotient does not pass. -/
theorem roundQuotient_le {num den bound : Nat} (hden : 0 < den) (h : num ≤ bound * den) :
    roundQuotient num den ≤ bound := by
  have hle : num / den ≤ bound := Nat.div_le_of_le_mul (by rwa [Nat.mul_comm])
  have hsplit : den * (num / den) + num % den = num := Nat.div_add_mod num den
  by_cases hbound : num / den = bound
  · have hnone : num % den = 0 := by
      rw [hbound, Nat.mul_comm] at hsplit
      omega
    simp only [roundQuotient, hnone, Nat.mul_zero, hden, if_true]
    exact hle
  · have hless : num / den + 1 ≤ bound := by omega
    have hodd : num / den % 2 ≤ 1 := by omega
    unfold roundQuotient
    dsimp only
    split
    · exact hle
    split
    · exact hless
    · omega

theorem le_roundQuotient {num den bound : Nat} (hden : 0 < den) (h : bound * den ≤ num) :
    bound ≤ roundQuotient num den := by
  have hle : bound ≤ num / den := (Nat.le_div_iff_mul_le hden).mpr h
  unfold roundQuotient
  dsimp only
  split
  · exact hle
  split <;> omega

section

variable {num den : Nat}

/-- The logarithms of numerator and denominator tell that of the quotient up to one. -/
private theorem log2_quotient_le (hnum : num ≠ 0) (hden : 0 < den) :
    (2 : ℚ) ^ ((num.log2 : Int) - den.log2 - 1) ≤ num / den := by
  have hlower : (2 : ℚ) ^ num.log2 ≤ num := by exact_mod_cast Nat.log2_self_le hnum
  have hupper : (den : ℚ) ≤ 2 ^ (den.log2 + 1) := by exact_mod_cast Nat.lt_log2_self.le
  have hdenq : (0 : ℚ) < den := by exact_mod_cast hden
  have hsplit : (num.log2 : Int) - den.log2 - 1 = num.log2 - ((den.log2 + 1 : Nat) : Int) := by
    omega
  rw [hsplit, zpow_sub₀ (by norm_num), zpow_natCast, zpow_natCast]
  exact div_le_div₀ (by positivity) hlower hdenq hupper

/-- The exponent that is sought is not too large. -/
theorem zpow_magnitudeExponent_le (hnum : num ≠ 0) (hden : 0 < den) :
    (2 : ℚ) ^ magnitudeExponent num den ≤ num / den := by
  unfold magnitudeExponent
  dsimp only
  split
  · rename_i hle
    have hpos : (0 : ℚ) < (scaled num den (-((num.log2 : Int) - den.log2))).2 := by
      exact_mod_cast scaled_pos hden _
    have hone : (1 : ℚ) ≤ num / den * 2 ^ (-((num.log2 : Int) - den.log2)) := by
      rw [← scaled_quotient, one_le_div hpos]
      exact_mod_cast hle
    rw [zpow_neg, ← div_eq_mul_inv, one_le_div (zpow_pos (by norm_num) _)] at hone
    exact hone
  · exact log2_quotient_le hnum hden

/-- A quotient that is at least one has no negative exponent. -/
theorem magnitudeExponent_nonneg (hden : 0 < den) (h : den ≤ num) :
    0 ≤ magnitudeExponent num den := by
  have hlog : den.log2 ≤ num.log2 := by
    have hnum : num ≠ 0 := by omega
    exact (Nat.le_log2 hnum).mpr (le_trans (Nat.log2_self_le hden.ne') h)
  unfold magnitudeExponent
  dsimp only
  split
  · omega
  · rename_i hlt
    by_contra hneg
    have hsize : (num.log2 : Int) - den.log2 = 0 := by omega
    rw [hsize] at hlt
    simp [scaled] at hlt
    omega

def roundingExponent (num den : Nat) : Int := max (magnitudeExponent num den - 52) leastExponent

def roundingMantissa (num den : Nat) : Nat :=
  roundQuotient (scaled num den (-roundingExponent num den)).1
    (scaled num den (-roundingExponent num den)).2

/-- A carry into another digit leaves the value alone. -/
def carried (mantissa : Nat) (exponent : Int) : Binary64 :=
  if mantissa = Nat.pow 2 53 then ⟨Nat.pow 2 52, exponent + 1⟩ else ⟨mantissa, exponent⟩

theorem value_carried (mantissa : Nat) (exponent : Int) :
    (carried mantissa exponent).value = mantissa * 2 ^ exponent := by
  unfold carried
  split
  · rename_i hcarry
    subst hcarry
    simp only [value, Nat.pow_eq, Nat.cast_pow, Nat.cast_ofNat]
    rw [zpow_add_one₀ (by norm_num), pow_succ (2 : ℚ) 52]
    linarith
  · rfl

/-- A quotient is rounded and carried, and has no magnitude if it is too large then. -/
theorem ofRatio_eq (hnum : num ≠ 0) :
    ofRatio num den =
      if greatestExponent <
        (carried (roundingMantissa num den) (roundingExponent num den)).exponent then none
      else some (carried (roundingMantissa num den) (roundingExponent num den)) := by
  unfold ofRatio
  rw [if_neg hnum]
  rfl

/-- A quotient up to a power of two of the format is rounded to a magnitude up to it. -/
theorem ofRatio_le (hden : 0 < den) {k : Nat} (hk : k ≤ 1023) (h : (num : ℚ) / den ≤ 2 ^ k) :
    ∃ y, ofRatio num den = some y ∧ y.value ≤ 2 ^ k := by
  by_cases hnum : num = 0
  · refine ⟨zero, by simp [ofRatio, hnum], ?_⟩
    simp [value, zero]
  have hexponent : roundingExponent num den ≤ k - 52 := by
    have hzpow : (2 : ℚ) ^ magnitudeExponent num den ≤ 2 ^ (k : Int) := by
      rw [zpow_natCast]
      exact le_trans (zpow_magnitudeExponent_le hnum hden) h
    have hle := (zpow_le_zpow_iff_right₀ (by norm_num)).mp hzpow
    simp only [roundingExponent, leastExponent]
    omega
  obtain ⟨j, hj⟩ : ∃ j : Nat, (j : Int) = k - roundingExponent num den :=
    ⟨(k - roundingExponent num den).toNat, by omega⟩
  have hmantissa : roundingMantissa num den ≤ 2 ^ j := by
    apply roundQuotient_le (scaled_pos hden _)
    have hpos : (0 : ℚ) < (scaled num den (-roundingExponent num den)).2 := by
      exact_mod_cast scaled_pos hden _
    have hquotient : ((scaled num den (-roundingExponent num den)).1 : ℚ) /
        (scaled num den (-roundingExponent num den)).2 ≤ 2 ^ j := by
      rw [scaled_quotient, ← zpow_natCast, hj, sub_eq_add_neg, zpow_add₀ (by norm_num),
        zpow_natCast]
      exact mul_le_mul_of_nonneg_right h (zpow_pos (by norm_num) _).le
    rw [div_le_iff₀ hpos] at hquotient
    exact_mod_cast hquotient
  have hrange : ¬ greatestExponent <
      (carried (roundingMantissa num den) (roundingExponent num den)).exponent := by
    unfold carried
    split
    · rename_i hcarry
      rw [hcarry] at hmantissa
      have hdigits : 53 ≤ j := (Nat.pow_le_pow_iff_right (by decide)).mp hmantissa
      simp only [greatestExponent]
      omega
    · simp only [greatestExponent]
      omega
  refine ⟨carried _ _, by rw [ofRatio_eq hnum, if_neg hrange], ?_⟩
  calc (carried (roundingMantissa num den) (roundingExponent num den)).value
      = roundingMantissa num den * 2 ^ roundingExponent num den := value_carried _ _
    _ ≤ 2 ^ j * 2 ^ roundingExponent num den := by
        apply mul_le_mul_of_nonneg_right _ (zpow_pos (by norm_num) _).le
        exact_mod_cast hmantissa
    _ = 2 ^ k := by
        rw [← zpow_natCast, hj, ← zpow_add₀ (by norm_num), sub_add_cancel, zpow_natCast]

theorem one_le_value_of_ofRatio (hden : 0 < den) (h : den ≤ num) {y : Binary64}
    (hy : ofRatio num den = some y) : 1 ≤ y.value := by
  have hnum : num ≠ 0 := by omega
  have hnonneg := magnitudeExponent_nonneg hden h
  have hexponent : roundingExponent num den = magnitudeExponent num den - 52 := by
    simp only [roundingExponent, leastExponent]
    omega
  have hmantissa : 2 ^ 52 ≤ roundingMantissa num den := by
    apply le_roundQuotient (scaled_pos hden _)
    have hpos : (0 : ℚ) < (scaled num den (-roundingExponent num den)).2 := by
      exact_mod_cast scaled_pos hden _
    have hquotient : (2 : ℚ) ^ 52 ≤ (scaled num den (-roundingExponent num den)).1 /
        (scaled num den (-roundingExponent num den)).2 := by
      rw [scaled_quotient, hexponent, neg_sub, zpow_sub₀ (by norm_num), ← mul_div_assoc,
        le_div_iff₀ (zpow_pos (by norm_num) _), mul_comm]
      exact mul_le_mul_of_nonneg_right (zpow_magnitudeExponent_le hnum hden) (by positivity)
    rw [le_div_iff₀ hpos] at hquotient
    exact_mod_cast hquotient
  rw [ofRatio_eq hnum] at hy
  split at hy
  · contradiction
  · obtain rfl := Option.some.inj hy
    rw [value_carried]
    have hsmallest : (2 : ℚ) ^ (-52 : Int) ≤ 2 ^ roundingExponent num den :=
      zpow_le_zpow_right₀ (by norm_num) (by omega)
    calc (1 : ℚ) = 2 ^ 52 * 2 ^ (-52 : Int) := by norm_num
      _ ≤ roundingMantissa num den * 2 ^ roundingExponent num den := by
          apply mul_le_mul _ hsmallest (by positivity) (by positivity)
          exact_mod_cast hmantissa

end

section

variable {x y : Binary64} {a b : Nat}

theorem ofNat_le {n : Nat} (ha : a ≤ 1023) (h : n ≤ 2 ^ a) :
    ∃ z, ofNat n = some z ∧ z.value ≤ 2 ^ a := by
  apply ofRatio_le (by decide) ha
  rw [Nat.cast_one, div_one]
  exact_mod_cast h

/-- Products that stay within the format are bounded as exact ones are. -/
theorem times_le (hx : x.value ≤ 2 ^ a) (hy : y.value ≤ 2 ^ b) (hab : a + b ≤ 1023) :
    ∃ z, x.times y = some z ∧ z.value ≤ 2 ^ (a + b) := by
  have hproduct : ((scaled (x.mantissa * y.mantissa) 1 (x.exponent + y.exponent)).1 : ℚ) /
      (scaled (x.mantissa * y.mantissa) 1 (x.exponent + y.exponent)).2 ≤ 2 ^ (a + b) := by
    rw [scaled_quotient]
    calc ((x.mantissa * y.mantissa : Nat) : ℚ) / (1 : Nat) * 2 ^ (x.exponent + y.exponent)
        = x.value * y.value := by
          rw [Nat.cast_one, div_one, Nat.cast_mul, zpow_add₀ (by norm_num), mul_mul_mul_comm]
          rfl
      _ ≤ 2 ^ a * 2 ^ b := mul_le_mul hx hy y.value_nonneg (by positivity)
      _ = 2 ^ (a + b) := (pow_add 2 a b).symm
  exact ofRatio_le (scaled_pos (by decide) _) hab hproduct

/-- Nothing grows when it is divided by a magnitude that is at least one. -/
theorem dividedBy_le (hx : x.value ≤ 2 ^ a) (ha : a ≤ 1023) (hy : 1 ≤ y.value) :
    ∃ z, x.dividedBy y = some z ∧ z.value ≤ 2 ^ a := by
  have hpos : 0 < y.value := lt_of_lt_of_le one_pos hy
  have hmantissa : 0 < y.mantissa := by
    by_contra hzero
    have hnone : y.mantissa = 0 := by omega
    simp [value, hnone] at hpos
  have hquotient : ((scaled x.mantissa y.mantissa (x.exponent - y.exponent)).1 : ℚ) /
      (scaled x.mantissa y.mantissa (x.exponent - y.exponent)).2 ≤ 2 ^ a := by
    rw [scaled_quotient]
    calc (x.mantissa : ℚ) / y.mantissa * 2 ^ (x.exponent - y.exponent)
        = x.value / y.value := by
          rw [zpow_sub₀ (by norm_num), div_mul_div_comm]
          rfl
      _ ≤ x.value := div_le_self x.value_nonneg hy
      _ ≤ 2 ^ a := hx
  exact ofRatio_le (scaled_pos hmantissa _) ha hquotient

end

/-- Up to the greatest power, a power of ten is representable and at least one. -/
theorem exists_power {power : Nat} (h : power ≤ greatestPower) :
    ∃ y, ofNat (Nat.pow 10 power) = some y ∧ 1 ≤ y.value := by
  have hall : ∀ p < greatestPower + 1, (ofNat (Nat.pow 10 p)).isSome := by decide +kernel
  obtain ⟨y, hy⟩ := Option.isSome_iff_exists.mp (hall power (Nat.lt_succ_of_le h))
  have hone : 1 ≤ Nat.pow 10 power := Nat.pow_pos (by decide)
  exact ⟨y, hy, one_le_value_of_ofRatio (by decide) hone hy⟩

/-- Scaling down never fails: what gets too small becomes zero. -/
theorem shrink_isSome (steps power : Nat) {x : Binary64} (hx : x.value ≤ 2 ^ 64) :
    (scaleByTen.shrink x steps power).isSome := by
  induction steps generalizing x power with
  | zero => rfl
  | succ steps ih =>
    unfold scaleByTen.shrink
    split
    · rename_i hpower
      obtain ⟨y, hy, hone⟩ := exists_power hpower
      obtain ⟨z, hz, _⟩ := dividedBy_le hx (by decide) hone
      rw [hy, Option.bind_some, hz]
      rfl
    split
    · rfl
    · obtain ⟨y, hy, hone⟩ := exists_power (Nat.le_refl greatestPower)
      obtain ⟨z, hz, hle⟩ := dividedBy_le hx (by decide) hone
      rw [hy, Option.bind_eq_bind, Option.bind_some, hz, Option.bind_some]
      exact ih (power - greatestPower) hle

private theorem log2_add_log2_le {m n k : Nat} (hm : m ≠ 0) (hn : n ≠ 0) (h : m * n ≤ 2 ^ k) :
    m.log2 + n.log2 ≤ k := by
  have hproduct : 2 ^ (m.log2 + n.log2) ≤ 2 ^ k := by
    rw [Nat.pow_add]
    exact le_trans (Nat.mul_le_mul (Nat.log2_self_le hm) (Nat.log2_self_le hn)) h
  exact (Nat.pow_le_pow_iff_right (by decide)).mp hproduct

/-- A significand of one word is scaled upwards as long as what it stands for leaves some room. -/
theorem scaleByTen_isSome {significand power : Nat} (hpos : 0 < significand)
    (h : significand * 10 ^ power ≤ 2 ^ 1021) :
    (ofDecimal significand (.ofNat power)).isSome := by
  have hten : 0 < 10 ^ power := Nat.pow_pos (by decide)
  have hsize : significand.log2 + (10 ^ power).log2 ≤ 1021 :=
    log2_add_log2_le hpos.ne' hten.ne' h
  have hpower : power ≤ greatestPower := by
    by_contra hlarge
    have hmany : 10 ^ (greatestPower + 1) ≤ 10 ^ power :=
      Nat.pow_le_pow_right (by decide) (by omega)
    have hle : 10 ^ power ≤ significand * 10 ^ power := Nat.le_mul_of_pos_left _ hpos
    have hbeyond : 2 ^ 1021 < 10 ^ (greatestPower + 1) := by decide +kernel
    exact absurd (le_trans hmany (le_trans hle h)) (not_le.mpr hbeyond)
  have hsignificand : significand ≤ 2 ^ (significand.log2 + 1) := Nat.lt_log2_self.le
  have hscale : 10 ^ power ≤ 2 ^ ((10 ^ power).log2 + 1) := Nat.lt_log2_self.le
  obtain ⟨x, hx, hxle⟩ := ofNat_le (by omega) hsignificand
  obtain ⟨y, hy, hyle⟩ := ofNat_le (by omega) hscale
  obtain ⟨z, hz, _⟩ := times_le hxle hyle (by omega)
  have hten' : ofNat (Nat.pow 10 power) = some y := hy
  simp only [ofDecimal, hx, scaleByTen, hten', Option.bind_eq_bind, Option.bind_some, hz]
  split
  · rfl
  split
  · omega
  · rfl

/-- A significand of one word can be scaled when what it stands for leaves some room. -/
theorem ofDecimal_isSome {significand : Nat} {power : Int} (hword : significand ≤ 2 ^ 64)
    (h : (significand : ℚ) * 10 ^ power ≤ 2 ^ 1021) : (ofDecimal significand power).isSome := by
  cases power with
  | ofNat n =>
    by_cases hzero : significand = 0
    · subst hzero
      rfl
    · apply scaleByTen_isSome (Nat.pos_of_ne_zero hzero)
      rw [Int.ofNat_eq_natCast, zpow_natCast] at h
      exact_mod_cast h
  | negSucc n =>
    obtain ⟨x, hx, hle⟩ := ofNat_le (by decide) hword
    simp only [ofDecimal, hx, scaleByTen, Option.bind_eq_bind, Option.bind_some]
    exact shrink_isSome _ _ hle

end SceneScript.Decimal.Binary64
