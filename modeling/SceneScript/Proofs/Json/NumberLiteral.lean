import SceneScript.Proofs.Json.Success
import SceneScript.Proofs.Text.Digits

/-!
Number literals against the grammar. What a literal is read as is computed from its digits: whole
numbers of 64 bits exactly, all others by scaling the leading digits that fit 64 bits to their
power of ten. A literal has no number when that scaling leaves the binary format. Passing over a
literal succeeds whatever its size.
-/
namespace SceneScript.Json

open Scan

/-- What may follow a value. -/
def Ends (rest : List Char) : Prop :=
  ∀ c ∈ rest.head?, isBlank c ∨ c = ',' ∨ c = ']' ∨ c = '}'

def binary? (isNegative : Bool) (x : Scaled) : Option Number :=
  (Decimal.Binary64.ofDecimal x.significand x.power).map (.binary isNegative)

def whole? (isNegative : Bool) (x : Scaled) : Option Number :=
  if x.power ≠ 0 then binary? isNegative x
  else if !isNegative then some (.natural x.significand)
  else if 0 < x.significand ∧ x.significand ≤ Nat.pow 2 63 then some (.negative x.significand)
  else binary? true x

/-- An exponent of more than 31 bits makes a number zero, or too large unless it is zero anyhow. -/
def Exponent.scale? (e : Exponent) (isNegative : Bool) (x : Scaled) : Option Number :=
  match absorb exponentBound 0 e.digits with
  | (power, []) =>
    binary? isNegative ⟨x.significand, if e.isDown then x.power - power else x.power + power⟩
  | (_, _ :: _) =>
    if x.significand = 0 ∨ e.isDown then some (.binary isNegative .zero) else none

namespace NumberLiteral

/-- The digits before the point that fit 64 bits, scaled by the number of the others. -/
def wholeScaled (n : NumberLiteral) : Scaled :=
  ⟨(absorb wordBound 0 n.whole).1, (absorb wordBound 0 n.whole).2.length⟩

/-- The digits behind the point are taken in as long as they fit as well. -/
def scaled (n : NumberLiteral) : Scaled :=
  let (significand, left) := absorb wordBound n.wholeScaled.significand n.fraction
  ⟨significand, n.wholeScaled.power - (n.fraction.length - left.length : Nat)⟩

def number (n : NumberLiteral) : Option Number :=
  match n.exponent with
  | some e => e.scale? n.isNegative n.scaled
  | none => if n.fraction = [] then whole? n.isNegative n.wholeScaled
    else binary? n.isNegative n.scaled

def Reads (number : Number) (cs : List Char) : Prop :=
  ∃ n : NumberLiteral, n.number = some number ∧ cs = n.chars

end NumberLiteral

section

variable {ds rest : List Char}

private theorem takeWhile_isDigit (hds : ∀ c ∈ ds, c.isDigit)
    (hrest : ∀ c ∈ rest.head?, c.isDigit = false) :
    (ds ++ rest).takeWhile Char.isDigit = ds ∧ (ds ++ rest).dropWhile Char.isDigit = rest := by
  rw [List.takeWhile_append_of_pos hds, List.dropWhile_append_of_pos hds]
  cases rest with
  | nil => simp
  | cons c rest =>
    have hc : c.isDigit = false := hrest c rfl
    simp [hc]

private theorem success_wholeDigits (hds : ∀ c ∈ ds, c.isDigit) (hne : ds ≠ [])
    (hzero : ds = ['0'] ∨ ds.head? ≠ some '0') (hrest : ∀ c ∈ rest.head?, c.isDigit = false) :
    wholeDigits.success (ds ++ rest) = some (ds, rest) := by
  rcases hzero with rfl | hzero
  · cases rest with
    | nil => rfl
    | cons c rest =>
      have hc : c.isDigit = false := hrest c rfl
      simp [success, wholeDigits, hc]
  · cases ds with
    | nil => exact absurd rfl hne
    | cons d ds =>
      have hd : d.isDigit := hds d (List.mem_cons_self ..)
      have hd0 : d ≠ '0' := by simpa using hzero
      obtain ⟨htake, hdrop⟩ := takeWhile_isDigit hds hrest
      simp only [List.cons_append] at htake hdrop
      simp [success, wholeDigits, hd, hd0, takeDigits, htake, hdrop]

private theorem success_skipDigits (hds : ∀ c ∈ ds, c.isDigit) (hne : ds ≠ [])
    (hrest : ∀ c ∈ rest.head?, c.isDigit = false) :
    skipDigits.success (ds ++ rest) = some ((), rest) := by
  cases ds with
  | nil => exact absurd rfl hne
  | cons d ds =>
    have hd : d.isDigit := hds d (List.mem_cons_self ..)
    obtain ⟨_, hdrop⟩ := takeWhile_isDigit hds hrest
    simp only [List.cons_append] at hdrop
    simp [success, skipDigits, hd, hdrop]

theorem Ends.not_isDigit (h : Ends rest) : ∀ c ∈ rest.head?, c.isDigit = false := by
  intro c hc
  rcases h c hc with hblank | rfl | rfl | rfl
  · simp only [isBlank, Bool.or_eq_true, decide_eq_true_eq] at hblank
    rcases hblank with ((rfl | rfl) | rfl) | rfl <;> decide
  all_goals decide

/-- What ends a value is none of the letters that go on with a number. -/
theorem Ends.ne {c : Char} {tail : List Char} (h : Ends (c :: tail)) :
    c ≠ '.' ∧ c ≠ 'e' ∧ c ≠ 'E' := by
  rcases h c rfl with hblank | rfl | rfl | rfl
  · simp only [isBlank, Bool.or_eq_true, decide_eq_true_eq] at hblank
    rcases hblank with ((rfl | rfl) | rfl) | rfl <;> decide
  all_goals decide

end

theorem success_toBinary (isNegative : Bool) (x : Scaled) (rest : List Char) :
    (toBinary isNegative x).success rest = (binary? isNegative x).map fun k => (k, rest) := by
  unfold success toBinary binary?
  cases Decimal.Binary64.ofDecimal x.significand x.power <;> rfl

theorem success_wholeNumber (isNegative : Bool) (x : Scaled) (rest : List Char) :
    (wholeNumber isNegative x).success rest = (whole? isNegative x).map fun k => (k, rest) := by
  unfold wholeNumber whole?
  split
  · exact success_toBinary ..
  split
  · rfl
  split
  · rfl
  · exact success_toBinary ..

private theorem ne_sign_of_isDigit {d : Char} (h : d.isDigit) : d ≠ '+' ∧ d ≠ '-' :=
  ⟨Text.ne_of_isDigit h (by decide), Text.ne_of_isDigit h (by decide)⟩

/-- An exponent starts with its letter. -/
private theorem Exponent.eq_of_head (e : Exponent) {c : Char} {rest : List Char}
    (h : c ∈ (e.chars ++ rest).head?) : c = 'e' ∨ c = 'E' := by
  have hletter : c = e.letter := by simpa [Exponent.chars, eq_comm] using h
  rw [hletter]
  exact e.letter_eq

private theorem success_exponentSign (e : Exponent) (rest : List Char) :
    exponentSign.success (e.sign.toList ++ e.digits ++ rest) =
      some (e.isDown, e.digits ++ rest) := by
  unfold Exponent.isDown
  rcases e.sign_eq with h | h | h
  · -- A digit stands where the sign could be.
    cases hdigits : e.digits with
    | nil => exact absurd hdigits e.digits_ne_nil
    | cons d ds =>
      have hd : d.isDigit := e.digits_isDigit d (by simp [hdigits])
      obtain ⟨hplus, hminus⟩ := ne_sign_of_isDigit hd
      simp [success, exponentSign, h, hplus, hminus]
  · simp [success, exponentSign, h]
  · simp [success, exponentSign, h]

/-- The exponent scales what was read before it, as far as this has a number. -/
private theorem success_exponentDigits (e : Exponent) (isNegative : Bool) (x : Scaled)
    {rest : List Char} (hrest : Ends rest) :
    (exponentDigits isNegative x e.isDown).success (e.digits ++ rest) =
      (e.scale? isNegative x).map fun k => (k, rest) := by
  unfold Exponent.scale?
  obtain ⟨htake, hdrop⟩ := takeWhile_isDigit e.digits_isDigit hrest.not_isDigit
  cases hdigits : e.digits with
  | nil => exact absurd hdigits e.digits_ne_nil
  | cons d ds =>
    have hd : d.isDigit := e.digits_isDigit d (by simp [hdigits])
    rw [hdigits, List.cons_append] at htake hdrop
    unfold success exponentDigits
    simp only [List.cons_append, hd, if_true, htake, hdrop]
    obtain ⟨power, left⟩ := absorb exponentBound 0 (d :: ds)
    cases left with
    | nil => exact success_toBinary ..
    | cons l left =>
      simp only
      by_cases h : x.significand = 0 ∨ e.isDown = true
      · rw [if_pos h, if_pos h]
        rfl
      · rw [if_neg h, if_neg h]
        rfl

theorem success_exponentPart (e : Exponent) (isNegative : Bool) (x : Scaled) {rest : List Char}
    (hrest : Ends rest) :
    (exponentPart isNegative x).success (e.sign.toList ++ e.digits ++ rest) =
      (e.scale? isNegative x).map fun k => (k, rest) := by
  unfold exponentPart
  rw [success_bind, success_exponentSign, Option.bind_some]
  exact success_exponentDigits e isNegative x hrest

namespace NumberLiteral

variable (n : NumberLiteral) {rest : List Char}

/-- Behind the digits after the point comes no digit. -/
private theorem not_isDigit_behind_fraction (hrest : Ends rest) :
    ∀ c ∈ (n.exponentChars ++ rest).head?, c.isDigit = false := by
  rw [exponentChars]
  cases n.exponent with
  | none => exact hrest.not_isDigit
  | some e =>
    intro c hc
    rcases e.eq_of_head hc with h | h <;> rw [h] <;> decide

/-- Behind the digits before the point comes no digit either. -/
private theorem not_isDigit_behind_whole (hrest : Ends rest) :
    ∀ c ∈ ((if n.fraction = [] then [] else '.' :: n.fraction) ++ n.exponentChars ++ rest).head?,
      c.isDigit = false := by
  split
  · exact n.not_isDigit_behind_fraction hrest
  · intro c hc
    have hpoint : c = '.' := by simpa [eq_comm] using hc
    rw [hpoint]
    decide

private theorem success_afterDigits (isNegative : Bool) (x : Scaled) (otherwise : Scan Number)
    (hrest : Ends rest) :
    (afterDigits isNegative x otherwise).success (n.exponentChars ++ rest) =
      match n.exponent with
      | some e => (e.scale? isNegative x).map fun k => (k, rest)
      | none => otherwise.success rest := by
  rw [exponentChars]
  cases n.exponent with
  | some e =>
    have hletter : e.letter = 'e' ∨ e.letter = 'E' := e.letter_eq
    have hexponent := success_exponentPart e isNegative x hrest
    simp only [List.append_assoc] at hexponent
    simp only [success] at hexponent
    simp [success, afterDigits, Exponent.chars, hletter, hexponent]
  | none =>
    cases rest with
    | nil => rfl
    | cons c tail =>
      obtain ⟨_, he, hE⟩ := hrest.ne
      simp [success, afterDigits, he, hE]

/-- The digits behind the point are taken in behind those before it. -/
private theorem success_fractionDigits (hfraction : n.fraction ≠ []) (hrest : Ends rest) :
    (fractionDigits n.wholeScaled).success (n.fraction ++ (n.exponentChars ++ rest)) =
      some (n.scaled, n.exponentChars ++ rest) := by
  obtain ⟨htake, hdrop⟩ :=
    takeWhile_isDigit n.fraction_isDigit (n.not_isDigit_behind_fraction hrest)
  unfold scaled
  cases hdigits : n.fraction with
  | nil => exact absurd hdigits hfraction
  | cons d ds =>
    have hd : d.isDigit := n.fraction_isDigit d (by simp [hdigits])
    rw [hdigits, List.cons_append] at htake hdrop
    simp [success, fractionDigits, hd, htake, hdrop]

private theorem scaled_of_fraction_eq_nil (h : n.fraction = []) : n.scaled = n.wholeScaled := by
  simp [scaled, h, absorb]

/-- Without a point the letter of an exponent or the end of the value comes next. -/
private theorem ne_point_behind_whole (hrest : Ends rest) :
    ∀ c ∈ (n.exponentChars ++ rest).head?, c ≠ '.' := by
  rw [exponentChars]
  cases n.exponent with
  | none =>
    cases rest with
    | nil => simp
    | cons c tail =>
      intro d hd
      have hdc : d = c := by simpa [eq_comm] using hd
      rw [hdc]
      exact hrest.ne.1
  | some e =>
    intro c hc
    rcases e.eq_of_head hc with h | h <;> rw [h] <;> decide

theorem behindWhole_of_ne_point {isNegative : Bool} {x : Scaled} {cs : List Char}
    (h : ∀ c ∈ cs.head?, c ≠ '.') :
    behindWhole isNegative x cs = afterDigits isNegative x (wholeNumber isNegative x) cs := by
  unfold behindWhole
  split
  · exact absurd rfl (h '.' rfl)
  · rfl

theorem skipBehindWhole_of_ne_point {cs : List Char} (h : ∀ c ∈ cs.head?, c ≠ '.') :
    skipBehindWhole cs = skipExponent cs := by
  unfold skipBehindWhole
  split
  · exact absurd rfl (h '.' rfl)
  · rfl

theorem skipWhole_of_ne_zero {cs : List Char} (h : cs.head? ≠ some '0') :
    skipWhole cs = skipDigits cs := by
  unfold skipWhole
  split
  · exact absurd rfl h
  · rfl

/-- From the point or the exponent on, a literal is read as the number that it has. -/
private theorem success_behindWhole (hrest : Ends rest) :
    (behindWhole n.isNegative n.wholeScaled).success
        ((if n.fraction = [] then [] else '.' :: n.fraction) ++ (n.exponentChars ++ rest)) =
      n.number.map fun k => (k, rest) := by
  unfold number
  by_cases hfraction : n.fraction = []
  · rw [if_pos hfraction, if_pos hfraction, List.nil_append, success,
      behindWhole_of_ne_point (n.ne_point_behind_whole hrest)]
    have hafter := n.success_afterDigits n.isNegative n.wholeScaled
      (wholeNumber n.isNegative n.wholeScaled) hrest
    rw [n.scaled_of_fraction_eq_nil hfraction]
    apply hafter.trans
    cases n.exponent with
    | some e => rfl
    | none => exact success_wholeNumber ..
  · rw [if_neg hfraction, if_neg hfraction]
    have hpoint := n.success_fractionDigits hfraction hrest
    have hafter := n.success_afterDigits n.isNegative n.scaled
      (toBinary n.isNegative n.scaled) hrest
    have hstep : (behindWhole n.isNegative n.wholeScaled).success
        ('.' :: n.fraction ++ (n.exponentChars ++ rest)) =
        (afterDigits n.isNegative n.scaled (toBinary n.isNegative n.scaled)).success
          (n.exponentChars ++ rest) := by
      unfold success at hpoint ⊢
      simp only [List.cons_append, behindWhole]
      cases hread : fractionDigits n.wholeScaled (n.fraction ++ (n.exponentChars ++ rest)) with
      | ok y left =>
        rw [hread] at hpoint
        obtain ⟨rfl, rfl⟩ := Prod.mk.inj (Option.some.inj hpoint)
        rfl
      | error f left =>
        rw [hread] at hpoint
        contradiction
    apply hstep.trans
    apply hafter.trans
    cases n.exponent with
    | some e => rfl
    | none => exact success_toBinary ..

/-- A literal is read, from behind its sign, as its number, and not at all if it has none. -/
theorem success_readNumber (hrest : Ends rest) :
    (readNumber n.isNegative).success (n.unsigned ++ rest) =
      n.number.map fun k => (k, rest) := by
  have hbehind := n.not_isDigit_behind_whole hrest
  rw [List.append_assoc] at hbehind
  have hwhole := success_wholeDigits n.whole_isDigit n.whole_ne_nil n.no_leading_zero hbehind
  unfold readNumber unsigned
  rw [success_bind, List.append_assoc, List.append_assoc, hwhole, Option.bind_some]
  exact n.success_behindWhole hrest

private theorem success_skipExponent (hrest : Ends rest) :
    skipExponent.success (n.exponentChars ++ rest) = some ((), rest) := by
  rw [exponentChars]
  cases n.exponent with
  | none =>
    cases rest with
    | nil => rfl
    | cons c tail =>
      obtain ⟨_, he, hE⟩ := hrest.ne
      simp [success, skipExponent, he, hE]
  | some e =>
    have hdigits := success_skipDigits e.digits_isDigit e.digits_ne_nil hrest.not_isDigit
    unfold success at hdigits ⊢
    rcases e.sign_eq with h | h | h
    · cases hcs : e.digits with
      | nil => exact absurd hcs e.digits_ne_nil
      | cons d ds =>
        have hd : d.isDigit := e.digits_isDigit d (by simp [hcs])
        obtain ⟨hplus, hminus⟩ := ne_sign_of_isDigit hd
        rw [hcs, List.cons_append] at hdigits
        simp [skipExponent, Exponent.chars, e.letter_eq, h, hcs, hplus, hminus, hdigits]
    · simp [skipExponent, Exponent.chars, e.letter_eq, h, hdigits]
    · simp [skipExponent, Exponent.chars, e.letter_eq, h, hdigits]

/-- What is passed over needs no number: any size will do. -/
private theorem success_skipBehindWhole (hrest : Ends rest) :
    skipBehindWhole.success
        ((if n.fraction = [] then [] else '.' :: n.fraction) ++ (n.exponentChars ++ rest)) =
      some ((), rest) := by
  have hexponent := n.success_skipExponent hrest
  by_cases hfraction : n.fraction = []
  · have hne := n.ne_point_behind_whole hrest
    rw [if_pos hfraction, List.nil_append, success, skipBehindWhole_of_ne_point hne]
    exact hexponent
  · have hdigits := success_skipDigits n.fraction_isDigit hfraction
      (n.not_isDigit_behind_fraction hrest)
    have hboth : success (do skipDigits; skipExponent)
        (n.fraction ++ (n.exponentChars ++ rest)) = some ((), rest) := by
      rw [success_bind, hdigits, Option.bind_some, hexponent]
    rw [if_neg hfraction, ← hboth]
    rfl

private theorem success_skipWhole (hrest : Ends rest) :
    skipWhole.success (n.whole ++
        ((if n.fraction = [] then [] else '.' :: n.fraction) ++ (n.exponentChars ++ rest))) =
      some ((), (if n.fraction = [] then [] else '.' :: n.fraction) ++
        (n.exponentChars ++ rest)) := by
  have hbehind := n.not_isDigit_behind_whole hrest
  rw [List.append_assoc] at hbehind
  generalize (if n.fraction = [] then [] else '.' :: n.fraction) ++ (n.exponentChars ++ rest) =
    tail at hbehind ⊢
  have hdigits := success_skipDigits n.whole_isDigit n.whole_ne_nil hbehind
  rcases n.no_leading_zero with hzero | hzero
  · cases tail with
    | nil => simpa [hzero, success, skipWhole] using hdigits
    | cons c tail =>
      have hc : c.isDigit = false := hbehind c rfl
      simp [hzero, success, skipWhole, hc]
  · have hhead : (n.whole ++ tail).head? ≠ some '0' := by
      cases hwhole : n.whole with
      | nil => exact absurd hwhole n.whole_ne_nil
      | cons d ds => simpa [hwhole] using hzero
    rw [success, skipWhole_of_ne_zero hhead]
    exact hdigits

/-- A literal is passed over whatever its size. -/
theorem success_skipNumber (hrest : Ends rest) :
    skipNumber.success (n.unsigned ++ rest) = some ((), rest) := by
  unfold skipNumber unsigned
  rw [success_bind, List.append_assoc, List.append_assoc, n.success_skipWhole hrest,
    Option.bind_some, n.success_skipBehindWhole hrest]

/-- A literal starts, behind its sign, with a digit. -/
theorem unsigned_eq_cons : ∃ d tail, n.unsigned = d :: tail ∧ d.isDigit := by
  unfold unsigned
  cases hwhole : n.whole with
  | nil => exact absurd hwhole n.whole_ne_nil
  | cons d ds => exact ⟨d, _, rfl, n.whole_isDigit d (by simp [hwhole])⟩

end NumberLiteral

end SceneScript.Json
